import EvmRecorder.Model.MultiRecorder
import EvmRecorder.Recorder.Events

/-!
# Which events a block of the multi-contract recorder can issue

The blocks shared with the single-contract recorder are in `Recorder.Events`.
-/

namespace EvmRecorder.MultiRecorder

theorem issues_depthEvents (mainPath : Path) (log : StructLog) (s : MultiRecorderState) :
    Issues [.setup, .call, .ret] (depthEvents mainPath log s) := by
  unfold depthEvents
  split
  · exact .cons (by simp [TraceEvent.kind]) (.cons (by simp [TraceEvent.kind]) .nil)
  · exact .replicate (by simp [TraceEvent.kind]) _

theorem issues_handleJump (mainPath : Path) (structLogs : List StructLog) (a : Artifacts)
    (i : Nat) (log : StructLog) (loc : SourceLocation) (s : MultiRecorderState) :
    Issues [.setup, .argument, .call, .ret]
      (handleJump mainPath structLogs a i log loc s).2 := by
  unfold handleJump
  split
  · exact (issues_enterInternalCall _ _ _ _ _ _ _).mono (by simp)
  · exact .cons (by simp [TraceEvent.kind]) .nil
  · exact Issues.nil

theorem issues_handleLocation (mainPath : Path) (structLogs : List StructLog) (a : Artifacts)
    (i : Nat) (log : StructLog) (s : MultiRecorderState) :
    Issues [.lineTable, .step, .variable, .setup, .argument, .call, .ret]
      (handleLocation mainPath structLogs a i log s).2 := by
  unfold handleLocation
  split
  · exact issues_located _ _ _ _ _ _ _ (issues_handleJump _ _ _ _ _ _ _)
  · exact Issues.nil

theorem issues_handleStorage (keccak256 : List UInt8 → U256) (a : Artifacts) (log : StructLog)
    (s : MultiRecorderState) : Issues [.setup, .variable] (handleStorage keccak256 a log s).2 := by
  unfold handleStorage
  dsimp only
  split
  · exact issues_recordStorageWrite _ _ _ _ _ _
  · exact Issues.nil

end EvmRecorder.MultiRecorder
