import Verilink.ControlPlane.DeEmphasis

/-!
# The organic window of the readiness gate

The gate asks for an organic share of eighty percent and for organic attestations throughout the
last thirty days.
-/

namespace Verilink.ControlPlane

open Verilink.Framework

theorem le_jsRound_iff {n : Int} {q : ℚ} : n ≤ jsRound q ↔ (n : ℚ) ≤ q + 1 / 2 := by
  rw [jsRound, Int.le_floor]

namespace Database

variable (db : Database) (now evaluationTime : Timestamp)

def weightOf (rows : List ContributionRow) : Int :=
  (rows.map fun r => |r.attestation.trustDelta|).sum

def organic (rows : List ContributionRow) : List ContributionRow :=
  rows.filter fun r => !r.attestation.bootstrapOrigin

def bootstrap (rows : List ContributionRow) : List ContributionRow :=
  rows.filter fun r => r.attestation.bootstrapOrigin

/-- The organic weight times `whole` is at least the whole weight times `part`. -/
def ShareAtLeast (part whole : Int) (rows : List ContributionRow) : Prop :=
  part * (weightOf (organic rows) + weightOf (bootstrap rows)) ≤ whole * weightOf (organic rows)

instance (part whole : Int) (rows : List ContributionRow) :
    Decidable (ShareAtLeast part whole rows) :=
  inferInstanceAs (Decidable (_ ≤ _))

def windowRows : List ContributionRow :=
  (db.contributionRows now evaluationTime).filter fun r =>
    r.attestation.issuedAt ≤ evaluationTime

def OnDay (evaluationTime : Timestamp) (day : Nat) (issuedAt : Timestamp) : Prop :=
  evaluationTime - windowDays * dayMs + day * dayMs < issuedAt ∧
    issuedAt ≤ evaluationTime - windowDays * dayMs + (day + 1) * dayMs

instance (evaluationTime : Timestamp) (day : Nat) (issuedAt : Timestamp) :
    Decidable (OnDay evaluationTime day issuedAt) :=
  inferInstanceAs (Decidable (_ ∧ _))

def OrganicOn (day : Nat) : Prop :=
  ∃ r ∈ organic (db.windowRows now evaluationTime),
    OnDay evaluationTime day r.attestation.issuedAt

instance (day : Nat) : Decidable (db.OrganicOn now evaluationTime day) :=
  inferInstanceAs (Decidable (∃ r ∈ organic (db.windowRows now evaluationTime),
    OnDay evaluationTime day r.attestation.issuedAt))

/-- The rule of the plan: eighty percent without rounding, and every day of the window. -/
def OrganicThroughout : Prop :=
  ShareAtLeast 80 100 (db.windowRows now evaluationTime) ∧
    ∀ day < windowDays, db.OrganicOn now evaluationTime day

/-- The organic share of the window is not one that is rounded up to eighty percent. -/
def NotRoundedUp : Prop :=
  ShareAtLeast 159 200 (db.windowRows now evaluationTime) →
    ShareAtLeast 80 100 (db.windowRows now evaluationTime)

/-- Rows issued after the evaluation time, which the query takes too, do not lift the share to
seventy-nine and a half percent. -/
def NotLifted : Prop :=
  ShareAtLeast 159 200 (db.contributionRows now evaluationTime) →
    ShareAtLeast 159 200 (db.windowRows now evaluationTime)

/-- No day of the window with an organic attestation is next to one without. -/
def Unbroken : Prop :=
  ∀ day, day + 1 < windowDays →
    (db.OrganicOn now evaluationTime day ↔ db.OrganicOn now evaluationTime (day + 1))

theorem share_of_jsRound {part total : Int} (hpos : 0 < total)
    (h : 80 ≤ jsRound ((part : ℚ) / total * 100)) : 159 * total ≤ 200 * part := by
  have hposQ : (0 : ℚ) < total := by exact_mod_cast hpos
  have hpct := le_jsRound_iff.mp h
  have hshare : (159 / 200 : ℚ) ≤ (part : ℚ) / total := by
    push_cast at hpct
    linarith
  rw [le_div_iff₀ hposQ] at hshare
  have hscaled : (159 : ℚ) * total ≤ 200 * part := by linarith
  exact_mod_cast hscaled

theorem computeContributionSplit_organicPct :
    (db.computeContributionSplit now evaluationTime).organicPct =
      let rows := db.contributionRows now evaluationTime
      let total := weightOf (bootstrap rows) + weightOf (organic rows)
      if 0 < total then jsRound ((weightOf (organic rows) : ℚ) / total * 100) else 0 :=
  rfl

theorem shareAtLeast_of_organicPct (h : minOrganicContributionPct ≤
      (db.computeContributionSplit now evaluationTime).organicPct) :
    ShareAtLeast 159 200 (db.contributionRows now evaluationTime) := by
  rw [computeContributionSplit_organicPct, minOrganicContributionPct] at h
  rw [ShareAtLeast, add_comm (weightOf _)]
  dsimp only at h
  split_ifs at h with hpos
  · exact share_of_jsRound hpos h
  · exact absurd h (by decide)

theorem weightOf_nonneg (rows : List ContributionRow) : 0 ≤ weightOf rows := by
  apply List.sum_nonneg
  intro w hw
  obtain ⟨r, -, rfl⟩ := List.mem_map.mp hw
  exact abs_nonneg _

theorem ShareAtLeast.lower {rows : List ContributionRow} (h : ShareAtLeast 80 100 rows) :
    ShareAtLeast 159 200 rows := by
  unfold ShareAtLeast at h ⊢
  have horganic := weightOf_nonneg (organic rows)
  have hbootstrap := weightOf_nonneg (bootstrap rows)
  omega

theorem exists_day {start t : Int} (hafter : start < t) {days : Nat}
    (hbefore : t ≤ start + days * dayMs) :
    ∃ day < days, start + day * dayMs < t ∧ t ≤ start + (day + 1) * dayMs := by
  have hday : dayMs = 86400000 := rfl
  rw [hday] at hbefore ⊢
  refine ⟨((t - start - 1) / 86400000).toNat, ?_, ?_, ?_⟩ <;> omega

theorem issuedAt_of_mem_contributionRows {r : ContributionRow}
    (h : r ∈ db.contributionRows now evaluationTime) :
    evaluationTime - windowDays * dayMs < r.attestation.issuedAt := by
  obtain ⟨a, -, ha⟩ := List.mem_filterMap.mp h
  split at ha
  · cases ha
  · split_ifs at ha with hlive
    cases ha
    exact hlive.1

/-- The earliest organic date is in the first five days of the window. -/
theorem exists_organicOn_of_windowContinuous
    (h : (db.computeContributionSplit now evaluationTime).windowContinuous = true) :
    ∃ day < windowDays, db.OrganicOn now evaluationTime day := by
  have hdates : ∃ first ∈ ((organic (db.contributionRows now evaluationTime)).map fun r =>
      r.attestation.issuedAt), first ≤ evaluationTime - windowDays * dayMs + (5 : Nat) * dayMs := by
    simp only [computeContributionSplit] at h
    split at h
    · rename_i first _ hfirst _
      refine ⟨first, ?_, (of_decide_eq_true h).1⟩
      exact (List.mem_insertionSort _).mp (List.mem_of_head? hfirst)
    · cases h
  obtain ⟨first, hmem, hearly⟩ := hdates
  obtain ⟨r, hr, rfl⟩ := List.mem_map.mp hmem
  obtain ⟨hrow, horganic⟩ := List.mem_filter.mp hr
  have hafter := db.issuedAt_of_mem_contributionRows now evaluationTime hrow
  obtain ⟨day, hday, hon⟩ := exists_day hafter hearly
  have hinside : r.attestation.issuedAt ≤ evaluationTime := by
    apply hearly.trans
    have hspan : ((5 : Nat) : Int) * dayMs ≤ windowDays * dayMs := by decide
    linarith
  refine ⟨day, hday.trans (by decide), r, ?_, hon⟩
  exact List.mem_filter.mpr ⟨List.mem_filter.mpr ⟨hrow, decide_eq_true hinside⟩, horganic⟩

variable {db now evaluationTime}

theorem Unbroken.first_iff (h : db.Unbroken now evaluationTime) {day : Nat} (hday : day < windowDays) :
    db.OrganicOn now evaluationTime 0 ↔ db.OrganicOn now evaluationTime day := by
  induction day with
  | zero => exact Iff.rfl
  | succ day ih => exact (ih (Nat.lt_of_succ_lt hday)).trans (h day hday)

theorem unbroken_iff (hsome : ∃ day < windowDays, db.OrganicOn now evaluationTime day) :
    (∀ day < windowDays, db.OrganicOn now evaluationTime day) ↔ db.Unbroken now evaluationTime := by
  constructor
  · intro hall day hday
    exact iff_of_true (hall day (Nat.lt_of_succ_lt hday)) (hall (day + 1) hday)
  · intro h day hday
    obtain ⟨some, hsome, hon⟩ := hsome
    exact (h.first_iff hday).mp ((h.first_iff hsome).mpr hon)

theorem exactShare_iff (hshare : ShareAtLeast 159 200 (db.contributionRows now evaluationTime)) :
    ShareAtLeast 80 100 (db.windowRows now evaluationTime) ↔
      db.NotRoundedUp now evaluationTime ∧ db.NotLifted now evaluationTime := by
  constructor
  · intro hexact
    exact ⟨fun _ => hexact, fun _ => hexact.lower⟩
  · rintro ⟨hrounded, hlifted⟩
    exact hrounded (hlifted hshare)

variable (db now evaluationTime)

variable {K : Type} [Field K] [LinearOrder K] [FloorRing K]

theorem contributionReasons_of_ready (decayAt : Trust.Time → Trust.Time → K)
    {result : DeEmphasisResult}
    (h : db.getDeEmphasisStatus decayAt now evaluationTime = .ok result)
    {c : DeEmphasisCandidate} (hc : c ∈ result.candidates) (hready : c.ready = true) :
    contributionReasons (db.computeContributionSplit now evaluationTime) = [] := by
  obtain ⟨candidates, hcandidates, hresult⟩ := bind_eq_ok.mp h
  cases hresult
  obtain ⟨row, _, hrow⟩ := mem_of_mapM_eq_ok hcandidates hc
  obtain ⟨report, _, hcand⟩ := bind_eq_ok.mp hrow
  cases hcand
  exact ((candidateResult_ready _ _ _).mp hready).1

theorem gate_of_contributionReasons {contribution : ContributionSplit}
    (h : contributionReasons contribution = []) :
    minOrganicContributionPct ≤ contribution.organicPct ∧ contribution.windowContinuous = true := by
  constructor
  · by_contra hlow
    simp [contributionReasons, not_le.mp hlow] at h
  · by_contra hbroken
    simp [contributionReasons, hbroken] at h

end Database

section SparseWindow

def sparseDatabase : Database :=
  { soleRootDatabase with
    policies := Table.empty
    attestations := ⟨[vouch (.short '1') "root" "agent" 77 soleRootTime true,
      vouch (.short '2') "organic-1" "organic-2" 100 (soleRootTime - 29 * dayMs) false,
      vouch (.short '3') "organic-2" "organic-1" 100 soleRootTime false,
      vouch (.short '4') "organic-3" "organic-1" 100 soleRootTime false], by decide⟩ }

theorem sparse_removalTables :
    sparseDatabase.RemovalTables Trust.calculateTimeDecayAt "root" soleRootTime
    [⟨"agent", "agent", 62, false, "propagated"⟩, ⟨"root", "issuer", 100, false, "propagated"⟩]
    [⟨"root", "issuer", 0, false, "propagated"⟩] :=
  ⟨runVeriRank_fresh ["root",
    "agent"] (by decide +kernel), runVeriRank_fresh ["root", "agent"] (by decide +kernel)⟩

theorem sparse_ready :
    ∃ result, sparseDatabase.getDeEmphasisStatus Trust.calculateTimeDecayAt soleRootTime
        soleRootTime = .ok result ∧ ∃ c ∈ result.candidates, c.ready = true :=
  ⟨_, Database.getDeEmphasisStatus_of_sole ⟨"root", "Root", 1, 0, none⟩ _ (by decide)
    sparse_removalTables, _, List.mem_singleton_self _, by decide +kernel⟩

end SparseWindow

end Verilink.ControlPlane
