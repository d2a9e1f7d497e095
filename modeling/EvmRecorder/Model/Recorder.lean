import EvmRecorder.Library.Levels
import EvmRecorder.Library.Run
import EvmRecorder.Model.RecorderParts

/-!
# The single-contract recorder

`EvmRecorder::record_from_structlog`: one pass over the structLog entries that
turns depth changes, resolved locations, jump markers and storage writes into
trace writer calls. The loop body is cut into its blocks, each a function from
the loop's variables to the loop's variables and the events it issues.

A structLog depth is at least 1, so the tracker of the current depth always
exists; the default taken below for it is never used.
-/

namespace EvmRecorder

open Stack Levels

/-- The loop's mutable variables, and the recorder's set of registered paths. -/
structure RecorderState where
  pathsWithLineLengths : List Path := []
  prevLine : Option SourceLocation := none
  prevDepth : Nat := 1
  firstInternalCallAbsorbed : Bool := false
  absorbedCallNesting : Nat := 0
  stackTrackers : List StackTracker := []
  memoryTrackers : List MemoryTracker := []
  storageState : NamedValues := ∅
  slotValues : SlotValues := ∅
  mappingSlotNames : MappingSlotNames := ∅

namespace Recorder

section Blocks

variable (keccak256 : List UInt8 → U256) (a : Artifacts) (mainPath : Path)
  (structLogs : List StructLog)

/-- The function registered for an external call: at the caller's last line. -/
def externalCallFunction (depth : Nat) (prevLine : Option SourceLocation) : FunctionId :=
  ⟨"external_call_depth_" ++ toString depth,
    (prevLine.bind fun p => a.sourcePaths[asUsize p.fileIndex]?).getD mainPath,
    (prevLine.map (·.line)).getD 0⟩

/-- The payload of a REVERT that ended the frame just left. -/
def revertCaught (i : Nat) (prevDepth : Nat) : List TraceEvent :=
  match (if 0 < i then structLogs[i - 1]? else none) with
  | some prevLog =>
      if prevLog.depth = prevDepth ∧ prevLog.op = "REVERT" then
        [.registerSpecialEvent .error "RevertCaught" (RevertDecode.decodeRevert
          (decodeRevertOpcodePayload prevLog.stack prevLog.memory)).message]
      else []
  | none => []

/-- Depth changes: one call per rise, one return per level left. -/
def depthEvents (i : Nat) (log : StructLog) (s : RecorderState) : List TraceEvent :=
  if s.prevDepth < log.depth then
    let fnId := externalCallFunction a mainPath log.depth s.prevLine
    [.ensureFunctionId fnId, .registerCall fnId]
  else if log.depth < s.prevDepth then
    revertCaught structLogs i s.prevDepth ++
      List.replicate (s.prevDepth - log.depth) (.registerReturn returnValue)
  else []

/-- Depth changes: trackers of left levels are popped, then there is a tracker
for every level up to the current one. -/
def enterDepth (log : StructLog) (s : RecorderState) : RecorderState :=
  { s with
    stackTrackers := growTo log.depth .new (popN s.stackTrackers (s.prevDepth - log.depth))
    memoryTrackers := growTo log.depth .new (popN s.memoryTrackers (s.prevDepth - log.depth)) }

/-- An `Into` marker at a resolved location. The first one of the trace is
absorbed into `<toplevel>`. -/
def jumpInto (i : Nat) (log : StructLog) (loc : SourceLocation) (s : RecorderState) :
    RecorderState × List TraceEvent :=
  if s.firstInternalCallAbsorbed then
    let tracker := atLevel log.depth .new s.stackTrackers
    let entered := enterInternalCall a mainPath structLogs i log loc tracker
    ({ s with
        absorbedCallNesting :=
          if 0 < s.absorbedCallNesting then s.absorbedCallNesting + 1 else s.absorbedCallNesting
        stackTrackers := setLevel log.depth entered.1 s.stackTrackers },
      entered.2)
  else
    ({ s with
        firstInternalCallAbsorbed := true
        absorbedCallNesting := 1
        stackTrackers := setLevel log.depth .new s.stackTrackers },
      match resolveInternalCallTarget a structLogs i with
      | some func => [.ensureFunctionId
          ⟨displayName a func, a.pathOf mainPath loc.fileIndex, loc.line⟩]
      | none => [])

/-- An `OutOf` marker at a resolved location. The return that closes the
absorbed call is not registered. -/
def jumpOutOf (log : StructLog) (s : RecorderState) : RecorderState × List TraceEvent :=
  ({ s with
      absorbedCallNesting := s.absorbedCallNesting - 1
      stackTrackers := setLevel log.depth .new s.stackTrackers },
    if s.absorbedCallNesting = 1 then [] else [.registerReturn returnValue])

/-- Jump markers are handled at resolved locations only. -/
def handleJump (i : Nat) (log : StructLog) (loc : SourceLocation) (s : RecorderState) :
    RecorderState × List TraceEvent :=
  match (a.entryForPc log.pc).map (·.jumpType) with
  | some JumpType.into => jumpInto a mainPath structLogs i log loc s
  | some JumpType.outOf => jumpOutOf log s
  | _ => (s, [])

/-- The tracker of the log's depth after the log's opcode. -/
def trackedStack (log : StructLog) (loc : Option SourceLocation) (s : RecorderState) :
    StackTracker :=
  trackOpcode (atLevel log.depth .new s.stackTrackers) log.op (a.sourceOffset log.pc)
    (loc.elim [] (inScopeAt a log.pc))

/-- The stack that local values are looked up in: the next log's. -/
def postStack (i : Nat) : Option (List U256) := structLogs[i + 1]?.bind (·.stack)

/-- Local values read at log `i`, in the state after `enter_depth`. -/
def localsRead (i : Nat) (log : StructLog) (loc : SourceLocation) (s : RecorderState) :
    List (VarDecl × U256) :=
  localsAt a log loc (trackedStack a log (some loc) s) (postStack structLogs i)

/-- Everything done at a resolved location: step, locals, jump marker. -/
def atLocation (i : Nat) (log : StructLog) (loc : SourceLocation) (s : RecorderState) :
    RecorderState × List TraceEvent :=
  let stepped := emitStep a mainPath s.pathsWithLineLengths s.prevLine loc s.storageState
  let locals := localEvents (localsRead a structLogs i log loc s)
  let jumped := handleJump a mainPath structLogs i log loc
    { s with
      pathsWithLineLengths := stepped.1
      prevLine := some loc
      stackTrackers := setLevel log.depth (trackedStack a log (some loc) s) s.stackTrackers
      memoryTrackers := setLevel log.depth
        (trackMemory a log loc (atLevel log.depth .new s.memoryTrackers)) s.memoryTrackers }
  (jumped.1, stepped.2 ++ locals ++ jumped.2)

/-- Resolved or not, the tracker follows the opcode. -/
def handleLocation (i : Nat) (log : StructLog) (s : RecorderState) :
    RecorderState × List TraceEvent :=
  match a.resolvePc log.pc with
  | some loc => atLocation a mainPath structLogs i log loc s
  | none =>
      ({ s with
          stackTrackers := setLevel log.depth (trackedStack a log none s) s.stackTrackers }, [])

/-- KECCAK256 and SSTORE. -/
def handleStorage (log : StructLog) (s : RecorderState) : RecorderState × List TraceEvent :=
  let names := recordMappingSlot keccak256 a.storageLayout log s.mappingSlotNames
  match storageWrite log with
  | some (slot, value) =>
      let written := recordStorageWrite a.storageLayout names slot value s.storageState s.slotValues
      ({ s with
          mappingSlotNames := names, storageState := written.1, slotValues := written.2.1 },
        written.2.2)
  | none => ({ s with mappingSlotNames := names }, [])

/-- The loop body. -/
def step (i : Nat) (log : StructLog) (s : RecorderState) : RecorderState × List TraceEvent :=
  let located := handleLocation a mainPath structLogs i log (enterDepth log s)
  let stored := handleStorage keccak256 a log located.1
  ({ stored.1 with prevDepth := log.depth },
    depthEvents a mainPath structLogs i log s ++ located.2 ++ stored.2 ++ specialEvents log)

end Blocks

def unknownPath : Path := ⟨["<unknown>"]⟩

/-- What `record_from_structlog` makes of its parameters before the loop. -/
def singleArtifacts (sourceMap : SourceMap) (bytecode : List UInt8) (sourcePaths : List Path)
    (sourceContents : List String) (storageLayout : Option StorageLayout)
    (solidityAst : Option SolidityAst) : Artifacts :=
  { sourceMap := some sourceMap
    pcToIdx := (buildPcToInstructionIndex bytecode).getD []
    sourcePaths, sourceContents, storageLayout, solidityAst }

def mainPathOf (sourcePaths : List Path) : Path := sourcePaths.head?.getD unknownPath

/-- What is registered before the loop: the main file's line table. -/
def registerMain (registered : List Path) (a : Artifacts) : List Path × List TraceEvent :=
  match a.sourcePaths.head?, a.sourceContents.head? with
  | some path, some src => ensurePathWithLineLengths registered path src
  | _, _ => (registered, [])

/-- The events before the loop. -/
def preamble (registered : List Path) (a : Artifacts) : List TraceEvent :=
  (registerMain registered a).2 ++
    [.start (mainPathOf a.sourcePaths) 1, .ensureTypeId uint256TypeId]

/-- The loop's variables before the first log. -/
def initialState (registered : List Path) (a : Artifacts) : RecorderState :=
  { pathsWithLineLengths := (registerMain registered a).1 }

section Runs

variable (keccak256 : List UInt8 → U256) (registered : List Path) (a : Artifacts)
  (structLogs : List StructLog)

/-- The loop's variables before log `k`. -/
def stateBefore (k : Nat) : RecorderState :=
  Machine.stateBefore (step keccak256 a (mainPathOf a.sourcePaths) structLogs) structLogs
    (initialState registered a) k

/-- The events issued before log `k`. -/
def eventsBefore (k : Nat) : List TraceEvent :=
  preamble registered a ++
    Machine.outputBefore (step keccak256 a (mainPathOf a.sourcePaths) structLogs) structLogs
      (initialState registered a) k

theorem eventsBefore_succ {k : Nat} {log : StructLog} (hlog : structLogs[k]? = some log) :
    eventsBefore keccak256 registered a structLogs (k + 1) =
      eventsBefore keccak256 registered a structLogs k ++
        (step keccak256 a (mainPathOf a.sourcePaths) structLogs k log
          (stateBefore keccak256 registered a structLogs k)).2 := by
  rw [eventsBefore, Machine.outputBefore_succ hlog, ← List.append_assoc]
  rfl

/-- The events issued up to the depth change at log `k`. -/
def eventsAtEntry (k : Nat) : List TraceEvent :=
  eventsBefore keccak256 registered a structLogs k ++
    structLogs[k]?.elim [] fun log =>
      depthEvents a (mainPathOf a.sourcePaths) structLogs k log
        (stateBefore keccak256 registered a structLogs k)

end Runs

end Recorder

open Recorder in
/-- `record_from_structlog`, by a recorder that has registered the line tables of
`registered` before. -/
def recordFromStructlog (keccak256 : List UInt8 → U256) (registered : List Path) (a : Artifacts)
    (structLogs : List StructLog) : List TraceEvent :=
  if structLogs.isEmpty then []
  else preamble registered a ++
    (Machine.run (step keccak256 a (mainPathOf a.sourcePaths) structLogs) 0 structLogs
      (initialState registered a)).2

namespace Recorder

theorem recordFromStructlog_eq_eventsBefore (keccak256 : List UInt8 → U256)
    (registered : List Path) (a : Artifacts) {structLogs : List StructLog}
    (h : structLogs ≠ []) :
    recordFromStructlog keccak256 registered a structLogs =
      eventsBefore keccak256 registered a structLogs structLogs.length := by
  rw [recordFromStructlog, if_neg (by simpa using h), eventsBefore, Machine.run_eq_outputBefore]

end Recorder

end EvmRecorder
