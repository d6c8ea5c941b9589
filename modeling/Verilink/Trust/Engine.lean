import Mathlib
import Verilink.Framework.KeyedList

/-!
# The VeriRank engine

The call-local part of the Go engine: `RunVeriRank` turns claims into edges and `propagate` runs at
most `MaxHops` synchronous hops over them.
-/

namespace Verilink.Trust

open Framework

abbrev Time := Int

def maxHops : Nat := 4

def maxClockSkew : Time := 2 * 60 * 1000000000

def blacklistIssuerThreshold : Int := 80

/-- `unset` is the zero value of the Go string type, seen where no principal was streamed. -/
inductive EntityKind
  | unset
  | agent
  | issuer
  | both
  deriving DecidableEq, Repr

inductive ScoreReason
  | propagated
  | blacklisted
  deriving DecidableEq, Repr

structure Root (K : Type) where
  id : String
  weight : K

structure Principal (K : Type) where
  id : String
  entityKind : EntityKind
  trustWeight : K
  isBootstrap : Bool

/-- The claims the engine reads. `issuedAt` is absent when the token carries no `iat`. -/
structure AttestationClaims where
  issuer : String
  subject : String
  issuedAt : Option Time
  trustLevelDelta : Int
  deriving DecidableEq, Repr

structure Edge where
  issuer : String
  subject : String
  score : Int
  timestamp : Time
  deriving DecidableEq, Repr

structure ScoreRow where
  principalId : String
  entityKind : EntityKind
  score : Int
  blacklisted : Bool
  scoreReason : ScoreReason
  deriving DecidableEq, Repr

structure ScoreTable where
  rows : List ScoreRow
  computedAtUnix : Int
  deriving DecidableEq, Repr

abbrev Scores (K : Type) := Finmap fun _ : String => K

section Propagate

variable {K : Type} [Field K] [LinearOrder K]

def distanceDecay : K := 8 / 10

/-- Reading a missing key of a Go map yields the zero value. -/
def valueAt (m : Scores K) (id : String) : K := (m.lookup id).getD 0

def weightByDID (principals : List (Principal K)) : Scores K :=
  principals.foldl (fun m p => m.insert p.id p.trustWeight) ∅

def kindByDID (principals : List (Principal K)) : Finmap fun _ : String => EntityKind :=
  principals.foldl (fun m p => m.insert p.id p.entityKind) ∅

abbrev Root.initialScore (r : Root K) : K := 100 * r.weight

def initialScores (roots : List (Root K)) : Scores K :=
  roots.foldl (fun m r => m.insert r.id r.initialScore) ∅

structure Graph (K : Type) where
  edges : List Edge
  weightByDID : Scores K
  timeDecay : Edge → K

/-- The factor an edge applies to the score of its issuer. An issuer without a principal
row has weight zero. -/
def Graph.gain (g : Graph K) (e : Edge) : K :=
  (e.score : K) / 100 * distanceDecay * g.timeDecay e * valueAt g.weightByDID e.issuer

/-- Subjects of negative claims whose issuer reaches the blacklist threshold. -/
def Graph.blacklistedThisHop (g : Graph K) (scores : Scores K) : List String :=
  g.edges.filterMap fun e =>
    if e.score < (0 : Int) then
      match scores.lookup e.issuer with
      | none => none
      | some issuerScore =>
        if (blacklistIssuerThreshold : K) ≤ issuerScore * valueAt g.weightByDID e.issuer then
          some e.subject
        else none
    else none

/-- One edge of the inner loop: `scores` is the previous hop, the pair is the next hop under
construction and the `changed` flag. -/
def Graph.relaxEdge (g : Graph K) (scores : Scores K) (black : List String)
    (acc : Scores K × Bool) (e : Edge) : Scores K × Bool :=
  if e.issuer ∈ black then acc
  else
    match scores.lookup e.issuer with
    | none => acc
    | some issuerScore =>
      if valueAt acc.1 e.subject < issuerScore * g.gain e then
        (acc.1.insert e.subject (issuerScore * g.gain e), true)
      else acc

structure HopState (K : Type) where
  scores : Scores K
  blacklistedNodes : List String

def Graph.hop (g : Graph K) (st : HopState K) : HopState K × Bool :=
  let black := g.blacklistedThisHop st.scores
  let relaxed := g.edges.foldl (g.relaxEdge st.scores black) (st.scores, false)
  let overridden := black.foldl (fun m subject => m.insert subject 0) relaxed.1
  (⟨overridden, st.blacklistedNodes ++ black⟩, relaxed.2 || !black.isEmpty)

/-- The hop loop with its early exit; the state of a hop is kept before the exit test. -/
def Graph.hopLoop (g : Graph K) : Nat → HopState K → HopState K
  | 0, st => st
  | n + 1, st =>
    let r := g.hop st
    if r.2 then g.hopLoop n r.1 else r.1

variable [FloorRing K]

/-- `math.Round`: halves are rounded away from zero. -/
def mathRound (x : K) : Int := if x < 0 then -⌊-x + 1 / 2⌋ else ⌊x + 1 / 2⌋

/-- Rounds to zero or below. -/
abbrev BelowHalf (x : K) : Prop := x < 1 / 2

def rowScore (score : K) : Int :=
  let clamped := if score < 0 then 0 else score
  let clamped := if 100 < clamped then 100 else clamped
  mathRound clamped

def scoreRow (kinds : Finmap fun _ : String => EntityKind) (st : HopState K) (node : String) :
    ScoreRow where
  principalId := node
  entityKind := (kinds.lookup node).getD .unset
  score := rowScore (valueAt st.scores node)
  blacklisted := decide (node ∈ st.blacklistedNodes)
  scoreReason := if node ∈ st.blacklistedNodes then .blacklisted else .propagated

def propagateGraph (timeDecay : Edge → K) (edges : List Edge) (principals : List (Principal K)) :
    Graph K :=
  ⟨edges, weightByDID principals, timeDecay⟩

/-- Scores and blacklist flags after the hop loop, before rounding. -/
def propagateScores (timeDecay : Edge → K) (edges : List Edge) (principals : List (Principal K))
    (roots : List (Root K)) : HopState K :=
  (propagateGraph timeDecay edges principals).hopLoop maxHops ⟨initialScores roots, []⟩

def propagate (timeDecay : Edge → K) (edges : List Edge) (principals : List (Principal K))
    (roots : List (Root K)) (evaluationTime : Time) : ScoreTable :=
  let st := propagateScores timeDecay edges principals roots
  ⟨(sortedKeys st.scores).map (scoreRow (kindByDID principals) st),
    evaluationTime / 1000000000⟩

/-- Claims without an issue time, or dated beyond the clock skew, are dropped; a tolerated
future date is moved back to the evaluation time. -/
def claimEdge (evaluationTime : Time) (c : Option AttestationClaims) : Option Edge :=
  match c with
  | none => none
  | some c =>
    match c.issuedAt with
    | none => none
    | some issuedAt =>
      if evaluationTime + maxClockSkew < issuedAt then none
      else
        some ⟨c.issuer, c.subject, c.trustLevelDelta,
          if evaluationTime < issuedAt then evaluationTime else issuedAt⟩

def runVeriRank (decayAt : Time → Time → K) (claims : List (Option AttestationClaims))
    (principals : List (Principal K)) (roots : List (Root K)) (evaluationTime : Time) :
    ScoreTable :=
  propagate (fun e => decayAt e.timestamp evaluationTime)
    (claims.filterMap (claimEdge evaluationTime)) principals roots evaluationTime

end Propagate

/-- `calculateTimeDecayAt` in exact arithmetic: half-life 180 days, no decay for ages below zero. -/
noncomputable def calculateTimeDecayAt (t evaluationTime : Time) : ℝ :=
  let daysOld : ℝ := ((evaluationTime - t : Int) : ℝ) / (1000000000 * 3600) / 24
  let daysOld := if daysOld < 0 then 0 else daysOld
  Real.exp (-(Real.log 2 / 180) * daysOld)

@[simp]
theorem calculateTimeDecayAt_self (t : Time) : calculateTimeDecayAt t t = 1 := by
  simp [calculateTimeDecayAt]

theorem calculateTimeDecayAt_pos (t evaluationTime : Time) :
    0 < calculateTimeDecayAt t evaluationTime := Real.exp_pos _

theorem calculateTimeDecayAt_le_one (t evaluationTime : Time) :
    calculateTimeDecayAt t evaluationTime ≤ 1 := by
  apply Real.exp_le_one_iff.mpr
  apply mul_nonpos_of_nonpos_of_nonneg
  · linarith [div_nonneg (Real.log_nonneg one_le_two) (show (0 : ℝ) ≤ 180 by norm_num)]
  · split_ifs with h
    · exact le_rfl
    · exact not_lt.mp h

end Verilink.Trust
