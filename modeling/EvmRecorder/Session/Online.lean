import EvmRecorder.Library.LookAhead
import EvmRecorder.Model.MapOrders

/-!
# Recording as the trace arrives

The recorders read entries around the one they are at: the previous log for the
opcode that entered or left a frame, the next log for the stack after the opcode
and for a placeholder's name, and a few more for the callee of a jump. So they
never need more than that many logs beyond the ones whose events they issue.
-/

namespace EvmRecorder

section Shared

/-- From these indices on the traces agree as far as the recorders look ahead. -/
def SameAhead (xs ys : List StructLog) (i j : Nat) : Prop :=
  ∀ n, n ≤ internalCallLookahead → xs[i + n]? = ys[j + n]?

variable {xs ys : List StructLog} {i j : Nat}

theorem SameAhead.next (h : SameAhead xs ys i j) : xs[i + 1]? = ys[j + 1]? :=
  h 1 (by decide)

theorem resolveInternalCallTarget_congr (a : Artifacts) (h : SameAhead xs ys i j) :
    resolveInternalCallTarget a xs i = resolveInternalCallTarget a ys j := by
  have hwithin : ∀ step, step ≤ 5 → xs[i + step]? = ys[j + step]? := h
  simp [resolveInternalCallTarget, internalCallLookahead, List.range', List.findSome?_cons,
    hwithin]

theorem enterInternalCall_congr (a : Artifacts) (mainPath : Path) (log : StructLog)
    (loc : SourceLocation) (tracker : StackTracker) (h : SameAhead xs ys i j) :
    enterInternalCall a mainPath xs i log loc tracker =
      enterInternalCall a mainPath ys j log loc tracker := by
  have htarget : internalCallTarget a xs i = internalCallTarget a ys j := by
    rw [internalCallTarget, internalCallTarget, resolveInternalCallTarget_congr a h,
      resolveEnclosingFunctionForJump, resolveEnclosingFunctionForJump,
      show xs[i]? = ys[j]? from h 0 (Nat.zero_le _)]
  have hname : ∀ target, internalCallName a xs i target = internalCallName a ys j target := by
    intro target
    unfold internalCallName
    rw [h.next]
  rw [enterInternalCall, enterInternalCall, htarget, hname]

theorem sameAhead_of_agree (h : ∀ j, j ≤ i + internalCallLookahead → xs[j]? = ys[j]?) :
    SameAhead xs ys i i :=
  fun n hn => h (i + n) (Nat.add_le_add_left hn i)

end Shared

namespace Recorder

theorem seesAhead_step (keccak256 : List UInt8 → U256) (a : Artifacts) (mainPath : Path) :
    Machine.SeesAhead internalCallLookahead (step keccak256 a mainPath) := by
  intro xs ys i h
  have hahead := sameAhead_of_agree h
  have hdepth : ∀ log s, depthEvents a mainPath xs i log s = depthEvents a mainPath ys i log s := by
    intro log s
    rw [depthEvents, depthEvents, revertCaught, revertCaught, h (i - 1) (by omega)]
  have hjump : ∀ log loc s, handleJump a mainPath xs i log loc s =
      handleJump a mainPath ys i log loc s := by
    intro log loc s
    simp only [handleJump, jumpInto, enterInternalCall_congr a mainPath _ _ _ hahead,
      resolveInternalCallTarget_congr a hahead]
  have hlocals : ∀ log loc s, localsRead a xs i log loc s = localsRead a ys i log loc s := by
    intro log loc s
    rw [localsRead, localsRead, postStack, postStack, hahead.next]
  have hlocation : ∀ log s, handleLocation a mainPath xs i log s =
      handleLocation a mainPath ys i log s := by
    intro log s
    simp only [handleLocation, atLocation, hjump, hlocals]
  funext log s
  rw [step, step, hdepth, hlocation]

end Recorder

namespace MultiRecorder

theorem seesAhead_step (keccak256 : List UInt8 → U256) (registry : ContractRegistry)
    (initial : Artifacts) (contractAddress : Address) (mainPath : Path) :
    Machine.SeesAhead internalCallLookahead
      (step keccak256 registry initial contractAddress mainPath) := by
  intro xs ys i h
  have henter : ∀ log s, enterDepth xs i log s = enterDepth ys i log s := by
    intro log s
    rw [enterDepth, enterDepth, enterFrame, enterFrame, prevLogOf, prevLogOf, h (i - 1) (by omega)]
  have hlocation : ∀ a log s, handleLocation mainPath xs a i log s =
      handleLocation mainPath ys a i log s := by
    intro a log s
    simp only [handleLocation, atLocation, handleJump,
      enterInternalCall_congr a mainPath _ _ _ (sameAhead_of_agree h)]
  funext log s
  rw [step, step, henter, hlocation]

end MultiRecorder

/-- **Recording online.** Either recorder has issued the same events and is in the
same state before log `k` of a trace as before log `k` of the trace cut off
`INTERNAL_CALL_LOOKAHEAD` logs further on, in whatever orders the caches are walked. -/
theorem recordings_online (orders : Nat → MapOrder) (keccak256 : List UInt8 → U256)
    (registered : List Path) (structLogs : List StructLog) (k : Nat) :
    (∀ a : Artifacts,
      Recorder.eventsBeforeIn orders keccak256 registered a
            (structLogs.take (k + internalCallLookahead)) k =
          Recorder.eventsBeforeIn orders keccak256 registered a structLogs k ∧
        Recorder.stateBeforeIn orders keccak256 registered a
            (structLogs.take (k + internalCallLookahead)) k =
          Recorder.stateBeforeIn orders keccak256 registered a structLogs k) ∧
    (∀ (registry : ContractRegistry) (contractAddress : Address),
      MultiRecorder.eventsBeforeIn keccak256 registered registry contractAddress
            (structLogs.take (k + internalCallLookahead)) orders k =
          MultiRecorder.eventsBeforeIn keccak256 registered registry contractAddress structLogs
            orders k ∧
        MultiRecorder.stateBeforeIn keccak256 registered registry contractAddress
            (structLogs.take (k + internalCallLookahead)) orders k =
          MultiRecorder.stateBeforeIn keccak256 registered registry contractAddress structLogs
            orders k) := by
  constructor
  · intro a
    have hsees : Machine.SeesAhead internalCallLookahead fun structLogs =>
        Recorder.stepIn keccak256 a (Recorder.mainPathOf a.sourcePaths) structLogs orders := by
      intro xs ys i h
      funext log s
      exact congrFun₂ (Recorder.seesAhead_step keccak256 a _ xs ys i h) log _
    exact ⟨congrArg _ (hsees.outputBefore_take structLogs k _),
      hsees.stateBefore_take structLogs k _⟩
  · intro registry contractAddress
    have hsees : Machine.SeesAhead internalCallLookahead fun structLogs =>
        MultiRecorder.stepIn keccak256 registry contractAddress structLogs orders := by
      intro xs ys i h
      funext log s
      exact congrFun₂ (MultiRecorder.seesAhead_step keccak256 registry _ contractAddress _ xs ys i h)
        log _
    exact ⟨congrArg _ (hsees.outputBefore_take structLogs k _),
      hsees.stateBefore_take structLogs k _⟩

end EvmRecorder
