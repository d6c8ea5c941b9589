import Mathlib

/-!
# Fallible steps

What a successful `Except` computation establishes: sequencing, a check over a list, and a
fold of fallible steps.
-/

namespace Verilink.Framework

variable {ε α β σ : Type}

variable {f : α → Except ε β} {x : Except ε α} {b : β} {e : ε} {a : α} {l : List α}
  {step : σ → α → Except ε σ}
  {s t : σ}

def ensure (ok : Prop) [Decidable ok] (error : ε) : Except ε Unit := if ok then .ok () else .error error

def orError (error : ε) : Option α → Except ε α
  | some a => .ok a
  | none => .error error

theorem ensure_eq_error {ok : Prop} [Decidable ok] {error : ε} :
    ensure ok error = .error e ↔ ¬ ok ∧ e = error := by
  unfold ensure
  split <;> simp_all [eq_comm]

theorem bind_eq_ok :
    (x >>= f) = .ok b ↔ ∃ a, x = .ok a ∧ f a = .ok b := by
  cases x with
  | error e => simp [bind, Except.bind]
  | ok a => simp [bind, Except.bind]

theorem bind_eq_error :
    (x >>= f) = .error e ↔ x = .error e ∨ ∃ a, x = .ok a ∧ f a = .error e := by
  cases x with
  | error e' => simp [bind, Except.bind]
  | ok a => simp [bind, Except.bind]

@[simp]
theorem mapError_eq_ok {ε' : Type} {f : ε → ε'} :
    x.mapError f = .ok a ↔ x = .ok a := by
  cases x with
  | error e => simp [Except.mapError]
  | ok b => simp [Except.mapError]

theorem map_eq_ok {f : α → β} :
    x.map f = .ok b ↔ ∃ a, x = .ok a ∧ f a = b := by
  cases x with
  | error e => simp [Except.map]
  | ok a => simp [Except.map]

theorem seq_eq_ok {x : Except ε Unit} {y : Except ε β} :
    (x >>= fun _ => y) = .ok b ↔ x = .ok () ∧ y = .ok b := by
  rw [bind_eq_ok]
  exact ⟨fun ⟨_, hx, hy⟩ => ⟨hx, hy⟩, fun ⟨hx, hy⟩ => ⟨(), hx, hy⟩⟩

theorem forM_eq_ok {check : α → Except ε Unit} :
    l.forM check = .ok () ↔ ∀ x ∈ l, check x = .ok () := by
  induction l with
  | nil => simp [pure, Except.pure]
  | cons x l ih =>
    change (check x >>= fun _ => l.forM check) = .ok () ↔ _
    rw [seq_eq_ok, List.forall_mem_cons, ih]

theorem forM_eq_error {check : α → Except ε Unit} (h : l.forM check = .error e) :
    ∃ x ∈ l, check x = .error e := by
  induction l with
  | nil => cases h
  | cons x l ih =>
    rcases bind_eq_error.mp (show (check x >>= fun _ => l.forM check) = .error e from h) with
      hx | ⟨_, -, hl⟩
    · exact ⟨x, List.mem_cons_self, hx⟩
    · obtain ⟨y, hy, herr⟩ := ih hl
      exact ⟨y, List.mem_cons_of_mem _ hy, herr⟩

theorem foldlM_cons_of_ok {x : α} (l : List α) (h : step s x = .ok t) :
    (x :: l).foldlM step s = l.foldlM step t := by
  rw [List.foldlM_cons, h]
  rfl

theorem foldlM_cons_eq_ok {x : α} :
    (x :: l).foldlM step s = .ok t ↔ ∃ m, step s x = .ok m ∧ l.foldlM step m = .ok t := by
  rw [List.foldlM_cons]
  exact bind_eq_ok

theorem foldlM_append_of_ok {l₁ : List α} (l₂ : List α) (h : l₁.foldlM step s = .ok t) :
    (l₁ ++ l₂).foldlM step s = l₂.foldlM step t := by
  rw [List.foldlM_append, h]
  rfl

theorem mem_of_mapM_eq_ok {out : List β} (h : l.mapM f = .ok out) (hb : b ∈ out) :
    ∃ a ∈ l, f a = .ok b := by
  induction l generalizing out with
  | nil =>
    cases h
    exact absurd hb List.not_mem_nil
  | cons a l ih =>
    rw [List.mapM_cons] at h
    obtain ⟨c, hc, hrest⟩ := bind_eq_ok.mp h
    obtain ⟨cs, hcs, hout⟩ := bind_eq_ok.mp hrest
    cases hout
    rcases List.mem_cons.mp hb with heq | htail
    · exact ⟨a, List.mem_cons_self, heq ▸ hc⟩
    · obtain ⟨a', ha', hfa'⟩ := ih hcs htail
      exact ⟨a', List.mem_cons_of_mem _ ha', hfa'⟩

theorem exists_of_mapM_eq_ok {out : List β} (h : l.mapM f = .ok out) (ha : a ∈ l) :
    ∃ b, f a = .ok b := by
  induction l generalizing out with
  | nil => exact absurd ha List.not_mem_nil
  | cons c l ih =>
    rw [List.mapM_cons] at h
    obtain ⟨b, hb, hrest⟩ := bind_eq_ok.mp h
    obtain ⟨bs, hbs, -⟩ := bind_eq_ok.mp hrest
    rcases List.mem_cons.mp ha with heq | htail
    · exact ⟨b, heq ▸ hb⟩
    · exact ih hbs htail

theorem mapM_error_of_mem (ha : a ∈ l) (h : f a = .error e) :
    ∃ e', l.mapM f = .error e' := by
  cases hmap : l.mapM f with
  | error e' => exact ⟨e', rfl⟩
  | ok out =>
    obtain ⟨b, hb⟩ := exists_of_mapM_eq_ok hmap ha
    cases h.symm.trans hb

theorem mapM_map_of_ok {γ : Type} (f : β → Except ε α) (g : γ → β) (val : γ → α) (l : List γ)
    (h : ∀ c ∈ l, f (g c) = .ok (val c)) : (l.map g).mapM f = .ok (l.map val) := by
  induction l with
  | nil => rfl
  | cons c l ih =>
    rw [List.map_cons, List.mapM_cons, h c List.mem_cons_self,
      ih fun d hd => h d (List.mem_cons_of_mem _ hd)]
    rfl

theorem mapM_map_eq_ok_iff {P : α → Prop} {f : β → Except ε α} {g : α → β}
    (h : ∀ a ∈ l, ∀ b, f (g a) = .ok b ↔ P a ∧ b = a) (out : List α) :
    (l.map g).mapM f = .ok out ↔ (∀ a ∈ l, P a) ∧ out = l := by
  constructor
  · intro hout
    have hP : ∀ a ∈ l, P a := by
      intro a ha
      obtain ⟨b, hb⟩ := exists_of_mapM_eq_ok hout (List.mem_map_of_mem ha)
      exact ((h a ha b).mp hb).1
    have hread := mapM_map_of_ok f g id l fun a ha => (h a ha a).mpr ⟨hP a ha, rfl⟩
    rw [List.map_id, hout, Except.ok.injEq] at hread
    exact ⟨hP, hread⟩
  · rintro ⟨hP, rfl⟩
    have hread := mapM_map_of_ok f g id out fun a ha => (h a ha a).mpr ⟨hP a ha, rfl⟩
    rwa [List.map_id] at hread

theorem foldlM_ok_of_step (step : σ → α → Except ε σ) (P : σ → List α → Prop)
    (hstep : ∀ s seen x s', P s seen → step s x = .ok s' → P s' (seen ++ [x]))
    (l : List α) (s s' : σ) (hs : P s []) (h : l.foldlM step s = .ok s') : P s' l := by
  suffices hgen : ∀ (l seen : List α) (s : σ), P s seen → l.foldlM step s = .ok s' → P s' (seen ++ l) by
    simpa using hgen l [] s hs h
  intro l
  induction l with
  | nil =>
    intro seen s hs h
    cases h
    simpa using hs
  | cons x l ih =>
    intro seen s hs h
    rw [List.foldlM_cons] at h
    obtain ⟨t, hx, hl⟩ := bind_eq_ok.mp h
    simpa using ih (seen ++ [x]) t (hstep s seen x t hs hx) hl

theorem foldlM_ok_of_mem (step : σ → α → Except ε σ) (P : σ → Prop) (l : List α)
    (hstep : ∀ s x s', x ∈ l → P s → step s x = .ok s' → P s') (s s' : σ) (hs : P s)
    (h : l.foldlM step s = .ok s') : P s' := by
  induction l generalizing s with
  | nil =>
    cases h
    exact hs
  | cons x l ih =>
    rw [List.foldlM_cons] at h
    obtain ⟨t, hx, hl⟩ := bind_eq_ok.mp h
    apply ih _ t (hstep s x t List.mem_cons_self hs hx) hl
    intro s y s' hy
    exact hstep s y s' (List.mem_cons_of_mem _ hy)

theorem foldlM_ok_map {τ : Type} {step' : τ → α → Except ε τ} (f : σ → τ)
    (hstep : ∀ s x s', step s x = .ok s' → step' (f s) x = .ok (f s')) {s' : σ}
    (h : l.foldlM step s = .ok s') :
    l.foldlM step' (f s) = .ok (f s') := by
  induction l generalizing s with
  | nil =>
      cases h
      rfl
  | cons x l ih =>
      obtain ⟨t, hx, hl⟩ := foldlM_cons_eq_ok.mp h
      rw [foldlM_cons_of_ok l (hstep s x t hx)]
      exact ih hl

theorem foldlM_counting {step : σ × Nat → α → Except ε (σ × Nat)} (work : σ → α → Except ε σ)
    (p : α → Bool)
    (hstep : ∀ acc x, step acc x = if p x then (do .ok (← work acc.1 x, acc.2 + 1)) else .ok acc)
    {acc acc' : σ × Nat} (h : l.foldlM step acc = .ok acc') :
    (l.filter p).foldlM work acc.1 = .ok acc'.1 ∧ acc'.2 = acc.2 + (l.filter p).length := by
  induction l generalizing acc with
  | nil =>
    cases h
    exact ⟨rfl, rfl⟩
  | cons x l ih =>
    obtain ⟨mid, hx, hl⟩ := foldlM_cons_eq_ok.mp h
    rw [hstep] at hx
    obtain ⟨hrest, hcount⟩ := ih hl
    by_cases hp : p x = true
    · rw [if_pos hp] at hx
      obtain ⟨next, hnext, hmid⟩ := bind_eq_ok.mp hx
      cases hmid
      rw [List.filter_cons_of_pos hp, foldlM_cons_of_ok _ hnext]
      refine ⟨hrest, ?_⟩
      rw [hcount, List.length_cons]
      omega
    · rw [if_neg hp] at hx
      cases hx
      rw [List.filter_cons_of_neg hp]
      exact ⟨hrest, hcount⟩

end Verilink.Framework
