import EvmRecorder.Library.Levels
import EvmRecorder.Library.Run
import EvmRecorder.Model.ContractRegistry
import EvmRecorder.Model.Recorder

/-!
# The multi-contract recorder

`EvmRecorder::record_from_structlog_multi_contract`: the loop of the
single-contract recorder with artifacts looked up for the executing frame, one
storage cache per call depth, no absorbed call and no revert events.

A structLog depth is at least 1, so the containers have an entry for the current
depth once it has been entered.
-/

namespace EvmRecorder

open Stack Levels

structure FrameContext where
  address : Address
  isDelegate : Bool := false
  delegateProxy : Option Address := none
deriving DecidableEq, Repr

/-- The loop's mutable variables, and the recorder's set of registered paths.
The containers are indexed by depth, index 0 for depth 1. -/
structure MultiRecorderState where
  pathsWithLineLengths : List Path := []
  frameStack : List FrameContext
  callTree : CallTree
  prevDepth : Nat := 1
  prevLine : Option SourceLocation := none
  stackTrackers : List StackTracker := []
  memoryTrackers : List MemoryTracker := []
  storageStates : List NamedValues := [∅]
  slotValuesPerFrame : List SlotValues := [∅]
  mappingSlotNamesPerFrame : List MappingSlotNames := [∅]

namespace MultiRecorder

section Blocks

variable (keccak256 : List UInt8 → U256) (registry : ContractRegistry) (initial : Artifacts)
  (contractAddress : Address) (mainPath : Path) (structLogs : List StructLog)

/-! ## §1  Entering and leaving frames -/

/-- The low 160 bits of the second word from the top, zero when there is none. -/
def calleeAddress (prevStack : Option (List U256)) : Address :=
  ((prevStack.bind fun s => if 2 ≤ s.length then s[s.length - 2]? else none).map
    (·.setWidth 160)).getD 0

/-- The frame entered and the kind of its call, from the previous log. -/
def enteredFrame (frameStack : List FrameContext) (prevLog : Option StructLog) :
    FrameContext × CallType :=
  let prevOp := (prevLog.map (·.op)).getD ""
  let addr := calleeAddress (prevLog.bind (·.stack))
  if prevOp = "CALL" ∨ prevOp = "CALLCODE" then ({ address := addr }, .call)
  else if prevOp = "DELEGATECALL" then
    let proxy := (frameStack.getLast?.map (·.address)).getD 0
    ({ address := addr, isDelegate := true, delegateProxy := some proxy }, .delegateCall)
  else if prevOp = "STATICCALL" then ({ address := addr }, .staticCall)
  else if prevOp = "CREATE" then ({ address := 0 }, .create)
  else if prevOp = "CREATE2" then ({ address := 0 }, .create2)
  else ({ address := 0 }, .call)

/-- Entry `i - 1` of the trace. -/
def prevLogOf (i : Nat) : Option StructLog := if 0 < i then structLogs[i - 1]? else none

/-- Pop `n` entries, but never the last one. -/
def popKeepRoot {α : Type} (xs : List α) (n : Nat) : List α := popN xs (min n (xs.length - 1))

/-- `prev_line` is reset before the call is registered, so its function is always
placed at the main path, line 0. -/
def depthEvents (log : StructLog) (s : MultiRecorderState) : List TraceEvent :=
  if s.prevDepth < log.depth then
    let fnId : FunctionId := ⟨"external_call_depth_" ++ toString log.depth, mainPath, 0⟩
    [.ensureFunctionId fnId, .registerCall fnId]
  else List.replicate (s.prevDepth - log.depth) (.registerReturn returnValue)

/-- One frame is entered per rise, whatever its size. -/
def enterFrame (i : Nat) (log : StructLog) (s : MultiRecorderState) : MultiRecorderState :=
  let entered := enteredFrame s.frameStack (prevLogOf structLogs i)
  { s with
    callTree := s.callTree.enterCall entered.1.address entered.2 i
    frameStack := s.frameStack ++ [entered.1]
    prevLine := none
    stackTrackers := growTo log.depth .new s.stackTrackers
    memoryTrackers := growTo log.depth .new s.memoryTrackers
    storageStates := growTo log.depth ∅ s.storageStates
    slotValuesPerFrame := growTo log.depth ∅ s.slotValuesPerFrame
    mappingSlotNamesPerFrame := growTo log.depth ∅ s.mappingSlotNamesPerFrame }

/-- One frame is left per level. -/
def leaveFrames (i : Nat) (log : StructLog) (s : MultiRecorderState) : MultiRecorderState :=
  let depthDiff := s.prevDepth - log.depth
  { s with
    callTree := (·.exitCall i)^[depthDiff] s.callTree
    frameStack := popKeepRoot s.frameStack depthDiff
    prevLine := none
    stackTrackers := popN s.stackTrackers depthDiff
    memoryTrackers := popN s.memoryTrackers depthDiff
    storageStates := popKeepRoot s.storageStates depthDiff
    slotValuesPerFrame := popKeepRoot s.slotValuesPerFrame depthDiff
    mappingSlotNamesPerFrame := popKeepRoot s.mappingSlotNamesPerFrame depthDiff }

/-- Depth changes, then trackers up to the current depth. -/
def enterDepth (i : Nat) (log : StructLog) (s : MultiRecorderState) : MultiRecorderState :=
  let s :=
    if s.prevDepth < log.depth then enterFrame structLogs i log s
    else if log.depth < s.prevDepth then leaveFrames i log s
    else s
  { s with
    stackTrackers := growTo log.depth .new s.stackTrackers
    memoryTrackers := growTo log.depth .new s.memoryTrackers }

/-- The artifacts of the executing frame. -/
def currentArtifacts (frameStack : List FrameContext) : Artifacts :=
  let currentAddr := (frameStack.getLast?.map (·.address)).getD contractAddress
  let isDelegateFrame := (frameStack.getLast?.map (·.isDelegate)).getD false
  let delegateProxy := frameStack.getLast?.bind (·.delegateProxy)
  if isDelegateFrame then
    (delegateProxy.bind (registry.getDelegatecall currentAddr)).getD {}
  else ((registry.get currentAddr).map (·.artifacts)).getD initial

/-! ## §2  One log -/

/-- The tracker of the log's depth after the log's opcode. -/
def trackedStack (a : Artifacts) (log : StructLog) (loc : Option SourceLocation)
    (s : MultiRecorderState) : StackTracker :=
  trackOpcode (atLevel log.depth .new s.stackTrackers) log.op (a.sourceOffset log.pc)
    (loc.elim [] (inScopeAt a log.pc))

/-- Local values are looked up in the log's own stack. -/
def localsRead (a : Artifacts) (log : StructLog) (loc : SourceLocation)
    (s : MultiRecorderState) : List (VarDecl × U256) :=
  localsAt a log loc (trackedStack a log (some loc) s) log.stack

/-- Every `Into` is a call, every `OutOf` a return. -/
def handleJump (a : Artifacts) (i : Nat) (log : StructLog) (loc : SourceLocation)
    (s : MultiRecorderState) : MultiRecorderState × List TraceEvent :=
  match (a.entryForPc log.pc).map (·.jumpType) with
  | some JumpType.into =>
      let entered := enterInternalCall a mainPath structLogs i log loc
        (atLevel log.depth .new s.stackTrackers)
      ({ s with stackTrackers := setLevel log.depth entered.1 s.stackTrackers }, entered.2)
  | some JumpType.outOf =>
      ({ s with stackTrackers := setLevel log.depth .new s.stackTrackers },
        [.registerReturn returnValue])
  | _ => (s, [])

/-- Everything done at a resolved location: step, locals, jump marker. -/
def atLocation (a : Artifacts) (i : Nat) (log : StructLog) (loc : SourceLocation)
    (s : MultiRecorderState) : MultiRecorderState × List TraceEvent :=
  let stepped := emitStep a mainPath s.pathsWithLineLengths s.prevLine loc
    (atLevel log.depth ∅ s.storageStates)
  let locals := localEvents (localsRead a log loc s)
  let jumped := handleJump mainPath structLogs a i log loc
    { s with
      pathsWithLineLengths := stepped.1
      prevLine := some loc
      stackTrackers := setLevel log.depth (trackedStack a log (some loc) s) s.stackTrackers
      memoryTrackers := setLevel log.depth
        (trackMemory a log loc (atLevel log.depth .new s.memoryTrackers)) s.memoryTrackers }
  (jumped.1, stepped.2 ++ locals ++ jumped.2)

def handleLocation (a : Artifacts) (i : Nat) (log : StructLog) (s : MultiRecorderState) :
    MultiRecorderState × List TraceEvent :=
  match a.resolvePc log.pc with
  | some loc => atLocation mainPath structLogs a i log loc s
  | none =>
      ({ s with
          stackTrackers := setLevel log.depth (trackedStack a log none s) s.stackTrackers }, [])

/-- KECCAK256: the names of the log's depth; missing depths are filled up when
the input is captured. -/
def nameMappingSlots (a : Artifacts) (log : StructLog) (names : List MappingSlotNames) :
    List MappingSlotNames :=
  if a.storageLayout.isSome ∧ (keccakInput log).isSome then
    setLevel log.depth
      (recordMappingSlot keccak256 a.storageLayout log (atLevel log.depth ∅ names))
      (growTo log.depth ∅ names)
  else names

/-- KECCAK256 and SSTORE, on the caches of the log's depth. -/
def handleStorage (a : Artifacts) (log : StructLog) (s : MultiRecorderState) :
    MultiRecorderState × List TraceEvent :=
  let names := nameMappingSlots keccak256 a log s.mappingSlotNamesPerFrame
  match storageWrite log with
  | some (slot, value) =>
      let states := growTo log.depth ∅ s.storageStates
      let values := growTo log.depth ∅ s.slotValuesPerFrame
      let written := recordStorageWrite a.storageLayout (atLevel log.depth ∅ names) slot value
        (atLevel log.depth ∅ states) (atLevel log.depth ∅ values)
      ({ s with
          mappingSlotNamesPerFrame := names
          storageStates := setLevel log.depth written.1 states
          slotValuesPerFrame := setLevel log.depth written.2.1 values },
        written.2.2)
  | none => ({ s with mappingSlotNamesPerFrame := names }, [])

/-- The loop body. -/
def step (i : Nat) (log : StructLog) (s : MultiRecorderState) :
    MultiRecorderState × List TraceEvent :=
  let entered := enterDepth structLogs i log s
  let a := currentArtifacts registry initial contractAddress entered.frameStack
  let located := handleLocation mainPath structLogs a i log entered
  let stored := handleStorage keccak256 a log located.1
  ({ stored.1 with prevDepth := log.depth },
    depthEvents mainPath log s ++ located.2 ++ stored.2 ++ specialEvents log)

end Blocks

/-! ## §3  Recordings -/

/-- The artifacts of the entry-point contract; its index is built anew unless its
bytecode is empty. -/
def initialArtifacts (registry : ContractRegistry) (contractAddress : Address) : Artifacts :=
  match registry.get contractAddress with
  | some a =>
      { a.artifacts with
        pcToIdx := if a.runtimeBytecode.isEmpty then a.pcToIdx
          else (buildPcToInstructionIndex a.runtimeBytecode).getD [] }
  | none => {}

section Runs

variable (keccak256 : List UInt8 → U256) (registered : List Path) (registry : ContractRegistry)
  (contractAddress : Address) (structLogs : List StructLog)

/-- The loop's variables before the first log. -/
def initialState : MultiRecorderState :=
  { pathsWithLineLengths :=
      (Recorder.registerMain registered (initialArtifacts registry contractAddress)).1
    frameStack := [{ address := contractAddress }]
    callTree := .new contractAddress }

/-- The loop body with the parameters of the recording. -/
def stepOf : Nat → StructLog → MultiRecorderState → MultiRecorderState × List TraceEvent :=
  step keccak256 registry (initialArtifacts registry contractAddress) contractAddress
    (Recorder.mainPathOf (initialArtifacts registry contractAddress).sourcePaths) structLogs

/-- The loop's variables before log `k`. -/
def stateBefore (k : Nat) : MultiRecorderState :=
  Machine.stateBefore (stepOf keccak256 registry contractAddress structLogs) structLogs
    (initialState registered registry contractAddress) k

/-- The events issued before log `k`. -/
def eventsBefore (k : Nat) : List TraceEvent :=
  Recorder.preamble registered (initialArtifacts registry contractAddress) ++
    Machine.outputBefore (stepOf keccak256 registry contractAddress structLogs) structLogs
      (initialState registered registry contractAddress) k

theorem eventsBefore_succ {k : Nat} {log : StructLog} (hlog : structLogs[k]? = some log) :
    eventsBefore keccak256 registered registry contractAddress structLogs (k + 1) =
      eventsBefore keccak256 registered registry contractAddress structLogs k ++
        (stepOf keccak256 registry contractAddress structLogs k log
          (stateBefore keccak256 registered registry contractAddress structLogs k)).2 := by
  rw [eventsBefore, Machine.outputBefore_succ hlog, ← List.append_assoc]
  rfl

end Runs

end MultiRecorder

open MultiRecorder in
/-- `record_from_structlog_multi_contract`, by a recorder that has registered the
line tables of `registered` before: the events and the call tree. -/
def recordFromStructlogMultiContract (keccak256 : List UInt8 → U256) (registered : List Path)
    (registry : ContractRegistry) (contractAddress : Address) (structLogs : List StructLog) :
    List TraceEvent × CallTree :=
  if structLogs.isEmpty then ([], .new contractAddress)
  else
    let r := Machine.run (stepOf keccak256 registry contractAddress structLogs) 0 structLogs
      (initialState registered registry contractAddress)
    (Recorder.preamble registered (initialArtifacts registry contractAddress) ++ r.2,
      r.1.callTree)

namespace MultiRecorder

theorem events_eq_eventsBefore (keccak256 : List UInt8 → U256) (registered : List Path)
    (registry : ContractRegistry) (contractAddress : Address) {structLogs : List StructLog}
    (h : structLogs ≠ []) :
    (recordFromStructlogMultiContract keccak256 registered registry contractAddress
        structLogs).1 =
      eventsBefore keccak256 registered registry contractAddress structLogs structLogs.length := by
  rw [recordFromStructlogMultiContract, if_neg (by simpa using h), eventsBefore,
    ← Machine.run_eq_outputBefore]

end MultiRecorder

end EvmRecorder
