import Verilink.Framework.JsonText

/-!
# Logs of lines

A file of records, one on each line, that is read back after a crash.
-/

namespace Verilink.Framework

def splitLines : Bytes → List Bytes × Bytes
  | [] => ([], [])
  | b :: bs =>
    if b = 0x0A then ([] :: (splitLines bs).1, (splitLines bs).2)
    else
      match (splitLines bs).1 with
      | [] => ([], b :: (splitLines bs).2)
      | line :: lines => ((b :: line) :: lines, (splitLines bs).2)

variable {bs line content : Bytes}

theorem splitLines_of_no_newline (h : 0x0A ∉ bs) : splitLines bs = ([], bs) := by
  induction bs with
  | nil => rfl
  | cons b bs ih =>
    rw [List.mem_cons, not_or] at h
    simp [splitLines, ih h.2, Ne.symm h.1]

theorem splitLines_line (h : 0x0A ∉ line) (rest : Bytes) :
    splitLines (line ++ 0x0A :: rest) = (line :: (splitLines rest).1, (splitLines rest).2) := by
  induction line with
  | nil => simp [splitLines]
  | cons b line ih =>
    rw [List.mem_cons, not_or] at h
    simp [splitLines, ih h.2, Ne.symm h.1]

/-- The lines that the scanner sees: the last one may lack its line feed. -/
def scanLines (content : Bytes) : List Bytes :=
  (splitLines content).1 ++ if (splitLines content).2 = [] then [] else [(splitLines content).2]

theorem scanLines_line (h : 0x0A ∉ line) (rest : Bytes) :
    scanLines (line ++ 0x0A :: rest) = line :: scanLines rest := by
  rw [scanLines, splitLines_line h, scanLines, List.cons_append]

theorem scanLines_of_no_newline (h : 0x0A ∉ bs) :
    scanLines bs = if bs = [] then [] else [bs] := by
  rw [scanLines, splitLines_of_no_newline h, List.nil_append]

theorem splitLines_append (h : (splitLines content).2 = []) (rest : Bytes) :
    splitLines (content ++ rest) =
      ((splitLines content).1 ++ (splitLines rest).1, (splitLines rest).2) := by
  induction content with
  | nil => rfl
  | cons b bs ih =>
    rw [List.cons_append, splitLines, splitLines]
    rw [splitLines] at h
    by_cases hb : b = 0x0A
    · rw [if_pos hb] at h
      rw [if_pos hb, if_pos hb, ih h]
      rfl
    · rw [if_neg hb] at h
      rw [if_neg hb, if_neg hb]
      cases hlines : (splitLines bs).1 with
      | nil =>
        rw [hlines] at h
        cases h
      | cons line lines =>
        rw [hlines] at h
        rw [ih h, hlines]
        rfl

theorem scanLines_append (h : (splitLines content).2 = []) (rest : Bytes) :
    scanLines (content ++ rest) = scanLines content ++ scanLines rest := by
  simp [scanLines, splitLines_append h, h]

def dropCR (line : Bytes) : Bytes := if line.getLast? = some 0x0D then line.dropLast else line

/-- How the records of a log are read, and the errors of its reader. -/
structure LineFormat (α ε : Type) where
  limit : Nat
  decode : Bytes → Option α
  tooLong : ε
  torn : ε

namespace LineFormat

variable {α ε σ : Type} (L : LineFormat α ε)

/-- The loop of the reader. `torn` says whether an unreadable line was seen. -/
def scan (step : σ → α → Except ε σ) : List Bytes → Bool → σ → Except ε σ
  | [], _, s => .ok s
  | raw :: lines, torn, s =>
    if L.limit ≤ raw.length then .error L.tooLong
    else if dropCR raw = [] then scan step lines torn s
    else if torn then .error L.torn
    else
      match L.decode (dropCR raw) with
      | none => scan step lines true s
      | some a => step s a >>= scan step lines false

def scanFile (step : σ → α → Except ε σ) (content : Bytes) (s : σ) : Except ε σ :=
  L.scan step (scanLines content) false s

def record (raw : Bytes) : Option α :=
  if dropCR raw = [] then none else L.decode (dropCR raw)

variable {L}

theorem foldlM_of_scan {step : σ → α → Except ε σ} {lines : List Bytes} {torn : Bool} {s s' : σ}
    (h : L.scan step lines torn s = .ok s') :
    (lines.filterMap L.record).foldlM step s = .ok s' := by
  induction lines generalizing torn s with
  | nil => exact h
  | cons raw lines ih =>
    rw [scan] at h
    split at h
    · cases h
    · split at h
      · rename_i hnil
        rw [List.filterMap_cons_none (by rw [record, if_pos hnil])]
        exact ih h
      · rename_i hne
        split at h
        · cases h
        · split at h
          · rename_i hdec
            rw [List.filterMap_cons_none (by rw [record, if_neg hne, hdec])]
            exact ih h
          · rename_i a hdec
            obtain ⟨t, hstep, hrest⟩ := bind_eq_ok.mp h
            rw [List.filterMap_cons_some (b := a) (by rw [record, if_neg hne, hdec]),
              foldlM_cons_of_ok _ hstep]
            exact ih hrest

structure Writes (L : LineFormat α ε) (text : α → Bytes) (a : α) : Prop where
  short : (text a).length < L.limit
  single : 0x0A ∉ text a
  ne_nil : text a ≠ []
  last : (text a).getLast? ≠ some 0x0D
  decode : L.decode (text a) = some a

def fileText (text : α → Bytes) (as : List α) : Bytes := as.flatMap fun a => text a ++ [0x0A]

@[simp]
theorem fileText_append (text : α → Bytes) (as bs : List α) :
    fileText text (as ++ bs) = fileText text as ++ fileText text bs :=
  List.flatMap_append

@[simp]
theorem fileText_singleton (text : α → Bytes) (a : α) : fileText text [a] = text a ++ [0x0A] := by
  simp [fileText]

variable {text : α → Bytes} {a : α}

theorem scan_text (h : L.Writes text a) (step : σ → α → Except ε σ) (lines : List Bytes) (s : σ) :
    L.scan step (text a :: lines) false s = step s a >>= L.scan step lines false := by
  have hcr : dropCR (text a) = text a := if_neg h.last
  rw [scan, if_neg (Nat.not_le.mpr h.short), hcr, if_neg h.ne_nil, if_neg Bool.false_ne_true, h.decode]

/-- The end of a log after its complete lines: nothing, or part of a line that cannot be read. -/
structure TornTail (L : LineFormat α ε) (tail : Bytes) : Prop where
  short : tail.length < L.limit
  single : 0x0A ∉ tail
  unreadable : L.record tail = none

variable {tail : Bytes} {as : List α}

theorem scan_torn (h : L.TornTail tail) (step : σ → α → Except ε σ) (s : σ) :
    L.scanFile step tail s = .ok s := by
  rw [scanFile, scanLines_of_no_newline h.single]
  split
  · rfl
  · rw [scan, if_neg (Nat.not_le.mpr h.short)]
    have hrec := h.unreadable
    rw [record] at hrec
    split
    · rfl
    · rename_i hne
      rw [if_neg hne] at hrec
      rw [if_neg Bool.false_ne_true, hrec]
      rfl

variable (h : ∀ a ∈ as, L.Writes text a)
include h

theorem scanFile_lines (step : σ → α → Except ε σ) (rest : Bytes) (s : σ) :
    L.scanFile step (fileText text as ++ rest) s = as.foldlM step s >>= L.scanFile step rest := by
  induction as generalizing s with
  | nil => rfl
  | cons a as ih =>
    have ha := h a List.mem_cons_self
    have hcons : fileText text (a :: as) ++ rest = text a ++ 0x0A :: (fileText text as ++ rest) := by
      simp [fileText]
    rw [hcons, scanFile, scanLines_line ha.single, scan_text ha, List.foldlM_cons, bind_assoc]
    congr 1
    funext t
    exact ih (fun b hb => h b (List.mem_cons_of_mem _ hb)) t

theorem filterMap_record_fileText :
    (scanLines (fileText text as)).filterMap L.record = as := by
  induction as with
  | nil => rfl
  | cons a as ih =>
    have ha := h a List.mem_cons_self
    have hcons : fileText text (a :: as) = text a ++ 0x0A :: fileText text as := by simp [fileText]
    have hrecord : L.record (text a) = some a := by
      rw [record, show dropCR (text a) = text a from if_neg ha.last, if_neg ha.ne_nil, ha.decode]
    rw [hcons, scanLines_line ha.single, List.filterMap_cons_some hrecord,
      ih fun b hb => h b (List.mem_cons_of_mem _ hb)]

/-- A torn end of the log is as good as none. -/
theorem scanFile_torn (ht : L.TornTail tail) (step : σ → α → Except ε σ) (s : σ) :
    L.scanFile step (fileText text as ++ tail) s = as.foldlM step s := by
  rw [scanFile_lines h]
  have hok : L.scanFile step tail = pure := funext (scan_torn ht step)
  rw [hok, bind_pure]

/-- A last line that lacks only its line feed counts. -/
theorem scanFile_unterminated (ha : L.Writes text a) (step : σ → α → Except ε σ) (s : σ) :
    L.scanFile step (fileText text as ++ text a) s = (as ++ [a]).foldlM step s := by
  rw [scanFile_lines h, List.foldlM_append]
  congr 1
  funext t
  rw [scanFile, scanLines_of_no_newline ha.single, if_neg ha.ne_nil, scan_text ha]
  rfl

end LineFormat

end Verilink.Framework
