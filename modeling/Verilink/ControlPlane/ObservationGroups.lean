import Verilink.ControlPlane.Graph
import Verilink.Framework.CharText

/-!
# Attestations of one observation

An issuer may attest one observation twice, for the participants and for the public.
-/

namespace Verilink.ControlPlane

open Verilink.Framework

def observationIdentity (row : AttestationRow) : String × String × String :=
  (row.issuerId, row.subjectId, observationKey row)

def NulFree (row : AttestationRow) : Prop :=
  '\x00' ∉ row.issuerId.toList ∧ '\x00' ∉ row.subjectId.toList

instance : DecidablePred NulFree := fun _ => inferInstanceAs (Decidable (_ ∧ _))

theorem toList_groupKey (row : AttestationRow) : (groupKey row).toList = row.issuerId.toList ++ '\x00' ::
      (row.subjectId.toList ++ '\x00' :: (observationKey row).toList) := by
  have hnul : ("\x00" : String).toList = ['\x00'] := by decide
  simp [groupKey, hnul]

variable {row a : AttestationRow}

theorem cut_groupKey (h : NulFree row) : Chars.cut '\x00' (groupKey row).toList = (row.issuerId.toList,
      some (row.subjectId.toList ++ '\x00' :: (observationKey row).toList)) := by
  rw [toList_groupKey, Chars.cut_append h.1]

theorem groupKey_eq_iff {b : AttestationRow} (ha : NulFree a) (hb : NulFree b) :
    groupKey a = groupKey b ↔ observationIdentity a = observationIdentity b := by
  constructor
  · intro h
    have hcut := cut_groupKey ha
    rw [h, cut_groupKey hb, Prod.mk.injEq, Option.some.injEq] at hcut
    have hrest := congrArg (Chars.cut '\x00') hcut.2
    rw [Chars.cut_append ha.2, Chars.cut_append hb.2, Prod.mk.injEq, Option.some.injEq] at hrest
    rw [observationIdentity, observationIdentity, String.toList_injective hcut.1,
      String.toList_injective hrest.1, String.toList_injective hrest.2]
  · intro h
    simp only [observationIdentity, Prod.mk.injEq] at h
    rw [groupKey, groupKey, h.1, h.2.1, h.2.2]

instance : Std.Total groupBefore where
  total a b := by
    unfold groupBefore
    grind

instance : IsTrans AttestationRow groupBefore where
  trans a b c := by
    unfold groupBefore
    grind

theorem issuedAt_eq_of_groupBefore {b : AttestationRow} (hab : groupBefore a b) (hba : groupBefore b a) :
    a.issuedAt = b.issuedAt := by
  unfold groupBefore at hab hba
  grind

theorem groupAttestationsForScoring_eq_representatives (rows : List AttestationRow) :
    groupAttestationsForScoring rows = (rows.filter fun row => observationKey row = "") ++
      Grouped.representatives groupKey groupBefore (observed rows) :=
  rfl

variable {rows : List AttestationRow}

theorem observed_of_mem_representatives (ha : a ∈ Grouped.representatives groupKey groupBefore
    (observed rows)) :
    a ∈ rows ∧ observationKey a ≠ "" :=
  mem_observed.mp (Grouped.of_mem_representatives groupKey groupBefore ha).1

theorem filter_unpaired_grouped (rows : List AttestationRow) :
    (groupAttestationsForScoring rows).filter (fun row => observationKey row = "") =
      rows.filter fun row => observationKey row = "" := by
  have hnone : (Grouped.representatives groupKey groupBefore (observed rows)).filter
      (fun row => observationKey row = "") = [] := by
    rw [List.filter_eq_nil_iff]
    intro a ha hempty
    exact (observed_of_mem_representatives ha).2 (of_decide_eq_true hempty)
  rw [groupAttestationsForScoring_eq_representatives, List.filter_append, hnone, List.append_nil,
    List.filter_filter]
  simp

theorem filter_identity_grouped (hnul : ∀ row ∈ rows, NulFree row) (hrow : row ∈ rows)
    (hobs : observationKey row ≠ "") :
    ∃ a ∈ rows, (groupAttestationsForScoring rows).filter
        (fun b => observationIdentity b = observationIdentity row) = [a] ∧
      ∀ b ∈ rows, observationIdentity b = observationIdentity row → groupBefore a b := by
  have hkey : ∀ b ∈ rows, groupKey b = groupKey row ↔ observationIdentity b = observationIdentity row :=
    fun b hb => groupKey_eq_iff (hnul b hb) (hnul row hrow)
  have hsame : ∀ b, observationIdentity b = observationIdentity row →
      observationKey b = observationKey row := fun b h => congrArg (fun t => t.2.2) h
  obtain ⟨a, ha, hone, _, hfirst⟩ :=
    Grouped.filter_representatives groupKey groupBefore (mem_observed.mpr ⟨hrow, hobs⟩)
  refine ⟨a, (mem_observed.mp ha).1, ?_, ?_⟩
  · have hnone : (rows.filter fun b => observationKey b = "").filter
        (fun b => observationIdentity b = observationIdentity row) = [] := by
      rw [List.filter_eq_nil_iff]
      intro b hb hid
      have hempty : observationKey b = "" := by simpa using (List.mem_filter.mp hb).2
      exact hobs ((hsame b (of_decide_eq_true hid)).symm.trans hempty)
    rw [groupAttestationsForScoring_eq_representatives, List.filter_append, hnone,
      List.nil_append, ← hone]
    apply List.filter_congr
    intro b hb
    rw [decide_eq_decide]
    exact (hkey b (observed_of_mem_representatives hb).1).symm
  · intro b hb hid
    have hb' : b ∈ observed rows := mem_observed.mpr ⟨hb, by rw [hsame b hid]; exact hobs⟩
    exact hfirst b hb' ((hkey b hb).mpr hid)

def scoredEdge (row : AttestationRow) : String × String × Int × Timestamp :=
  (row.issuerId, row.subjectId, row.trustDelta, row.issuedAt)

theorem scoredEdges_perm {rows' : List AttestationRow} (hnul : ∀ row ∈ rows, NulFree row)
    (hdelta : ∀ a ∈ rows, ∀ b ∈ rows, observationKey a ≠ "" →
      observationIdentity a = observationIdentity b → a.trustDelta =
        b.trustDelta) (hperm : rows'.Perm rows) :
    ((groupAttestationsForScoring rows').map scoredEdge).Perm
      ((groupAttestationsForScoring rows).map scoredEdge) := by
  rw [groupAttestationsForScoring_eq_representatives,
    groupAttestationsForScoring_eq_representatives, List.map_append, List.map_append]
  apply List.Perm.append
  · exact (hperm.filter _).map _
  · apply Grouped.map_representatives_perm groupKey groupBefore scoredEdge (hperm.filter _)
    intro a ha b hb hkey hab hba
    obtain ⟨ha, hobs⟩ := mem_observed.mp ha
    obtain ⟨hb, _⟩ := mem_observed.mp hb
    have hid := (groupKey_eq_iff (hnul a ha) (hnul b hb)).mp hkey
    have hd := hdelta a ha b hb hobs hid
    simp only [observationIdentity, Prod.mk.injEq] at hid
    rw [scoredEdge, scoredEdge, hid.1, hid.2.1, hd, issuedAt_eq_of_groupBefore hab hba]

/-- Grouping keeps every row without an observation and one row of every other group, the most
restrictive and then the latest, and the scored edges do not depend on the order of the rows
when the rows of a group agree on their delta. -/
theorem grouping_one_per_observation (rows : List AttestationRow)
    (hnul : ∀ row ∈ rows, NulFree row) :
    (∀ a ∈ groupAttestationsForScoring rows, a ∈ rows) ∧
    (groupAttestationsForScoring rows).filter (fun row => observationKey row = "") =
      rows.filter (fun row => observationKey row = "") ∧
    (∀ row ∈ rows, observationKey row ≠ "" →
      ∃ a ∈ rows, (groupAttestationsForScoring rows).filter
          (fun b => observationIdentity b = observationIdentity row) = [a] ∧
        ∀ b ∈ rows, observationIdentity b = observationIdentity row →
          visibilityRank b.visibility ≤ visibilityRank a.visibility ∧
          (visibilityRank b.visibility = visibilityRank a.visibility → b.issuedAt ≤ a.issuedAt)) ∧
    ((∀ a ∈ rows, ∀ b ∈ rows, observationKey a ≠ "" →
        observationIdentity a = observationIdentity b → a.trustDelta = b.trustDelta) →
      ∀ rows' : List AttestationRow, rows'.Perm rows →
        ((groupAttestationsForScoring rows').map scoredEdge).Perm
          ((groupAttestationsForScoring rows).map scoredEdge)) := by
  refine ⟨fun a => mem_of_mem_grouped, filter_unpaired_grouped rows, ?_, ?_⟩
  · intro row hrow hobs
    obtain ⟨a, ha, hone, hfirst⟩ := filter_identity_grouped hnul hrow hobs
    refine ⟨a, ha, hone, ?_⟩
    intro b hb hid
    have hbefore := hfirst b hb hid
    unfold groupBefore at hbefore
    grind
  · intro hdelta rows' hperm
    exact scoredEdges_perm hnul hdelta hperm

def splitRows : List AttestationRow :=
  [⟨⟨"a1", by decide⟩, "p1", "p2", 3, 10, none, "outcome", some "obs ", .participants, none, false⟩,
   ⟨⟨"a2", by decide⟩, "p1", "p2", 3, 20, none, "outcome", some "obs", .isPublic, none, false⟩,
   ⟨⟨"a3", by decide⟩, "p1", "p2", -1, 30, none, "outcome", some " ", .isPublic, none, false⟩]

theorem grouping_one_per_observation_split :
    groupAttestationsForScoring splitRows ≠ [] ∧
    (∀ rows' : List AttestationRow, rows'.Perm splitRows →
      ((groupAttestationsForScoring rows').map scoredEdge).Perm
        ((groupAttestationsForScoring splitRows).map scoredEdge)) := by
  have h := grouping_one_per_observation splitRows (by decide)
  exact ⟨by decide, h.2.2.2 (by decide)⟩

end Verilink.ControlPlane
