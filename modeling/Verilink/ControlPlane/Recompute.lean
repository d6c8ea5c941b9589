import Verilink.ControlPlane.Graph
import Verilink.ControlPlane.ScoreWriter
import Verilink.Framework.Runs

/-!
# Concurrent recomputes

`recomputeNow` loads the graph, asks the engine and writes the table in three steps, and only the
last one is under a lock.
-/

namespace Verilink.ControlPlane

open Verilink.Framework

/-! ## The rows of the engine -/

section Engine

variable {K : Type} [Field K] [LinearOrder K] [FloorRing K]

variable {graph : AttestationGraph} {evaluationTime : Timestamp} {rows : List EngineScore}

theorem runVeriRank_nodup (decayAt : Trust.Time → Trust.Time → K)
    (h : runVeriRank decayAt graph evaluationTime = .ok rows) :
    (rows.map EngineScore.principalId).Nodup := by
  obtain ⟨table, htable, hrows⟩ := bind_eq_ok.mp h
  cases hrows
  obtain ⟨st, evalTime, -, -, -, rfl⟩ := (Trust.serveRunVeriRank_eq_ok _ _ _).mp htable
  simp only [Trust.runVeriRank, Trust.propagate, List.map_map]
  have hid : EngineScore.principalId ∘ engineScore ∘ Trust.stampRow st.principals ∘
      Trust.scoreRow (Trust.kindByDID st.principals) (Trust.propagateScores
        (fun e => decayAt e.timestamp evalTime)
          ((st.claims.map some).filterMap (Trust.claimEdge evalTime))
        st.principals st.roots) = id := rfl
  rw [hid, List.map_id]
  exact Finset.sort_nodup _ _

end Engine

end Verilink.ControlPlane
