import EvmRecorder.MultiRecorder.LocalParity
import EvmRecorder.Model.MapOrders

/-!
# Recording one frame

Both recorders on a trace of one frame in which no jump marker is handled: one
recorder without per-depth containers, frame stack and call tree does the same. The
only difference that is left is the stack the local variables are looked up in.
-/

namespace EvmRecorder

open Levels

/-! ## §1  A recorder of one frame -/

/-- What has to be kept between the logs of one frame. -/
structure FrameState where
  pathsWithLineLengths : List Path := []
  prevLine : Option SourceLocation := none
  stackTracker : StackTracker := .new
  memoryTracker : MemoryTracker := .new
  storageState : NamedValues := ∅
  slotValues : SlotValues := ∅
  mappingSlotNames : MappingSlotNames := ∅

namespace FrameState

section

variable (keccak256 : List UInt8 → U256) (a : Artifacts) (mainPath : Path)
  (localStack : Nat → Option (List U256))

/-- The move to the log's location, and the local variables there. -/
def located (i : Nat) (log : StructLog) (s : FrameState) : FrameState × List TraceEvent :=
  let loc := a.resolvePc log.pc
  let tracker := trackOpcode s.stackTracker log.op (a.sourceOffset log.pc)
    (loc.elim [] (inScopeAt a log.pc))
  match loc with
  | some loc =>
      let stepped := emitStep a mainPath s.pathsWithLineLengths s.prevLine loc s.storageState
      ({ s with
          pathsWithLineLengths := stepped.1
          prevLine := some loc
          stackTracker := tracker
          memoryTracker := trackMemory a log loc s.memoryTracker },
        stepped.2 ++ localEvents (localsAt a log loc tracker (localStack i)))
  | none => ({ s with stackTracker := tracker }, [])

/-- Names of mapping slots, and a storage write. -/
def stored (log : StructLog) (s : FrameState) : FrameState × List TraceEvent :=
  let names := recordMappingSlot keccak256 a.storageLayout log s.mappingSlotNames
  match storageWrite log with
  | some (slot, value) =>
      let written := recordStorageWrite a.storageLayout names slot value s.storageState s.slotValues
      ({ s with
          mappingSlotNames := names, storageState := written.1, slotValues := written.2.1 },
        written.2.2)
  | none => ({ s with mappingSlotNames := names }, [])

def step (i : Nat) (log : StructLog) (s : FrameState) : FrameState × List TraceEvent :=
  let moved := s.located a mainPath localStack i log
  let written := moved.1.stored keccak256 a log
  (written.1, moved.2 ++ written.2 ++ specialEvents log)

end

end FrameState

/-- The recording of one frame; `localStack` gives the stack that the local variables
of a log are looked up in. -/
def recordFrame (keccak256 : List UInt8 → U256) (registered : List Path) (a : Artifacts)
    (localStack : Nat → Option (List U256)) (structLogs : List StructLog) : List TraceEvent :=
  if structLogs.isEmpty then []
  else Recorder.preamble registered a ++
    (Machine.run (FrameState.step keccak256 a (Recorder.mainPathOf a.sourcePaths) localStack) 0
      structLogs { pathsWithLineLengths := (Recorder.registerMain registered a).1 }).2

/-- The log is of the first frame, and no jump marker is handled at it. -/
structure InFrame (a : Artifacts) (log : StructLog) : Prop where
  depth : log.depth = 1
  marker : processedMarker a log = .regular

theorem InFrame.sourceMarker {a : Artifacts} {log : StructLog} (h : InFrame a log)
    {loc : SourceLocation} (hloc : a.resolvePc log.pc = some loc) :
    sourceMarker a log = .regular := by
  have hmarker := h.marker
  rwa [processedMarker, hloc, Option.isSome_some, if_pos rfl] at hmarker

/-! ## §2  The single-contract recorder -/

namespace Recorder

/-- The containers hold the entries of the only frame. -/
structure KeepsFrame (s : RecorderState) (t : FrameState) : Prop where
  prevDepth : s.prevDepth = 1
  pathsWithLineLengths : s.pathsWithLineLengths = t.pathsWithLineLengths
  prevLine : s.prevLine = t.prevLine
  stackTrackers : growTo 1 .new s.stackTrackers = [t.stackTracker]
  memoryTrackers : growTo 1 .new s.memoryTrackers = [t.memoryTracker]
  storageState : s.storageState = t.storageState
  slotValues : s.slotValues = t.slotValues
  mappingSlotNames : s.mappingSlotNames = t.mappingSlotNames

variable (keccak256 : List UInt8 → U256) (a : Artifacts) (mainPath : Path)
  (structLogs : List StructLog) {s : RecorderState} {t : FrameState} {log : StructLog}

/-- After the depth handling the containers have exactly one entry. -/
theorem KeepsFrame.enterDepth (h : KeepsFrame s t) (hdepth : log.depth = 1) :
    (enterDepth log s).stackTrackers = [t.stackTracker] ∧
      (Recorder.enterDepth log s).memoryTrackers = [t.memoryTracker] := by
  simp only [Recorder.enterDepth, hdepth, h.prevDepth, Nat.sub_self]
  rw [Stack.popN, Stack.popN, Nat.sub_zero, Nat.sub_zero, List.take_length, List.take_length]
  exact ⟨h.stackTrackers, h.memoryTrackers⟩

theorem KeepsFrame.handleLocation (h : KeepsFrame s t) (hframe : InFrame a log) (i : Nat) :
    let located := t.located a mainPath (fun i => stackAt structLogs (i + 1)) i log
    KeepsFrame (handleLocation a mainPath structLogs i log (Recorder.enterDepth log s)).1
        located.1 ∧
      (Recorder.handleLocation a mainPath structLogs i log (Recorder.enterDepth log s)).2 =
        located.2 := by
  intro located
  obtain ⟨hstack, hmemory⟩ := h.enterDepth hframe.depth
  have htracked : ∀ loc, trackedStack a log loc (Recorder.enterDepth log s) =
      trackOpcode t.stackTracker log.op (a.sourceOffset log.pc)
        (loc.elim [] (inScopeAt a log.pc)) := by
    intro loc
    rw [trackedStack, hstack, hframe.depth]
    rfl
  unfold Recorder.handleLocation
  dsimp only [located, FrameState.located]
  cases hloc : a.resolvePc log.pc with
  | none =>
      refine ⟨?_, rfl⟩
      constructor
      · exact h.prevDepth
      · exact h.pathsWithLineLengths
      · exact h.prevLine
      · dsimp only
        rw [htracked, hstack, hframe.depth]
        rfl
      · exact (congrArg (growTo 1 .new) hmemory).trans rfl
      · exact h.storageState
      · exact h.slotValues
      · exact h.mappingSlotNames
  | some loc =>
      dsimp only [atLocation]
      rw [handleJump_regular (hframe.sourceMarker hloc), localsRead, htracked, hstack, hmemory,
        hframe.depth]
      dsimp only [Recorder.enterDepth]
      rw [h.pathsWithLineLengths, h.prevLine, h.storageState]
      refine ⟨?_, List.append_nil _⟩
      constructor
      · exact h.prevDepth
      · rfl
      · rfl
      · rfl
      · rfl
      · rfl
      · exact h.slotValues
      · exact h.mappingSlotNames

theorem KeepsFrame.handleStorage (h : KeepsFrame s t) (log : StructLog) :
    KeepsFrame (handleStorage keccak256 a log s).1 (t.stored keccak256 a log).1 ∧
      (Recorder.handleStorage keccak256 a log s).2 = (t.stored keccak256 a log).2 := by
  unfold Recorder.handleStorage FrameState.stored
  dsimp only
  rw [h.mappingSlotNames, h.storageState, h.slotValues]
  cases storageWrite log with
  | none => exact ⟨{ h with storageState := rfl, slotValues := rfl, mappingSlotNames := rfl }, rfl⟩
  | some write =>
      exact ⟨{ h with storageState := rfl, slotValues := rfl, mappingSlotNames := rfl }, rfl⟩

/-- A log of the frame. -/
theorem KeepsFrame.step (h : KeepsFrame s t) (hframe : InFrame a log) (i : Nat) :
    let stepped := t.step keccak256 a mainPath (fun i => stackAt structLogs (i + 1)) i log
    KeepsFrame (step keccak256 a mainPath structLogs i log s).1 stepped.1 ∧
      (Recorder.step keccak256 a mainPath structLogs i log s).2 = stepped.2 := by
  intro stepped
  obtain ⟨hlocated, hmoved⟩ := h.handleLocation a mainPath structLogs hframe i
  obtain ⟨hstored, hwritten⟩ := hlocated.handleStorage keccak256 a log
  have hquiet : depthEvents a mainPath structLogs i log s = [] := by
    rw [depthEvents, h.prevDepth, hframe.depth]
    rfl
  constructor
  · exact { hstored with prevDepth := hframe.depth }
  · dsimp only [Recorder.step, stepped, FrameState.step]
    rw [hquiet, hmoved, hwritten, List.nil_append]

end Recorder

/-! ## §3  The multi-contract recorder -/

namespace MultiRecorder

/-- The per-depth containers hold the entries of the only frame. -/
structure KeepsFrame (contractAddress : Address) (s : MultiRecorderState) (t : FrameState) :
    Prop where
  prevDepth : s.prevDepth = 1
  frameStack : s.frameStack = [{ address := contractAddress }]
  pathsWithLineLengths : s.pathsWithLineLengths = t.pathsWithLineLengths
  prevLine : s.prevLine = t.prevLine
  stackTrackers : growTo 1 .new s.stackTrackers = [t.stackTracker]
  memoryTrackers : growTo 1 .new s.memoryTrackers = [t.memoryTracker]
  storageStates : s.storageStates = [t.storageState]
  slotValuesPerFrame : s.slotValuesPerFrame = [t.slotValues]
  mappingSlotNamesPerFrame : s.mappingSlotNamesPerFrame = [t.mappingSlotNames]

variable (keccak256 : List UInt8 → U256) (a : Artifacts) (mainPath : Path)
  (structLogs : List StructLog) {contractAddress : Address} {s : MultiRecorderState}
  {t : FrameState} {log : StructLog}

theorem KeepsFrame.handleLocation (h : KeepsFrame contractAddress s t) (hframe : InFrame a log)
    (i : Nat) (hlog : structLogs[i]? = some log) :
    let located := t.located a mainPath (stackAt structLogs) i log
    KeepsFrame contractAddress
        (handleLocation mainPath structLogs a i log (enterDepth structLogs i log s)).1 located.1 ∧
      (MultiRecorder.handleLocation mainPath structLogs a i log
        (enterDepth structLogs i log s)).2 = located.2 := by
  intro located
  have htracked : ∀ loc, trackedStack a log loc (enterDepth structLogs i log s) =
      trackOpcode t.stackTracker log.op (a.sourceOffset log.pc)
        (loc.elim [] (inScopeAt a log.pc)) := by
    intro loc
    rw [trackedStack, enterDepth_one hframe.depth h.prevDepth, h.stackTrackers, hframe.depth]
    rfl
  have hstack : stackAt structLogs i = log.stack := by
    rw [stackAt, hlog]
    rfl
  unfold MultiRecorder.handleLocation
  dsimp only [located, FrameState.located]
  cases hloc : a.resolvePc log.pc with
  | none =>
      refine ⟨?_, rfl⟩
      dsimp only
      rw [htracked, enterDepth_one hframe.depth h.prevDepth, h.stackTrackers, h.memoryTrackers,
        hframe.depth]
      exact { h with stackTrackers := rfl, memoryTrackers := rfl }
  | some loc =>
      dsimp only [atLocation]
      rw [handleJump_regular (hframe.sourceMarker hloc), localsRead, htracked,
        enterDepth_one hframe.depth h.prevDepth, h.stackTrackers, h.memoryTrackers, hframe.depth,
        hstack]
      dsimp only
      rw [h.pathsWithLineLengths, h.prevLine, h.storageStates]
      exact ⟨{ h with
        pathsWithLineLengths := rfl, prevLine := rfl, stackTrackers := rfl, memoryTrackers := rfl,
        storageStates := rfl }, List.append_nil _⟩

theorem KeepsFrame.nameMappingSlots (h : KeepsFrame contractAddress s t)
    (hdepth : log.depth = 1) :
    nameMappingSlots keccak256 a log s.mappingSlotNamesPerFrame =
      [recordMappingSlot keccak256 a.storageLayout log t.mappingSlotNames] := by
  unfold MultiRecorder.nameMappingSlots
  rw [h.mappingSlotNamesPerFrame, hdepth]
  split
  · rfl
  · next hnone =>
      unfold recordMappingSlot
      split
      · next layout input hlayout hinput =>
          exact absurd (by rw [hlayout, hinput]; exact ⟨rfl, rfl⟩) hnone
      · rfl

theorem KeepsFrame.handleStorage (h : KeepsFrame contractAddress s t) (hdepth : log.depth = 1) :
    KeepsFrame contractAddress (handleStorage keccak256 a log s).1 (t.stored keccak256 a log).1 ∧
      (MultiRecorder.handleStorage keccak256 a log s).2 = (t.stored keccak256 a log).2 := by
  unfold MultiRecorder.handleStorage FrameState.stored
  dsimp only
  rw [h.nameMappingSlots keccak256 a hdepth, h.storageStates, h.slotValuesPerFrame, hdepth]
  cases storageWrite log with
  | none =>
      exact ⟨{ h with
        storageStates := rfl, slotValuesPerFrame := rfl, mappingSlotNamesPerFrame := rfl }, rfl⟩
  | some write =>
      exact ⟨{ h with
        storageStates := rfl, slotValuesPerFrame := rfl, mappingSlotNamesPerFrame := rfl }, rfl⟩

end MultiRecorder

/-- The contract is registered under its address, with the index of its bytecode. -/
structure RegisteredContract (registry : ContractRegistry) (contractAddress : Address)
    (contract : ContractArtifacts) : Prop where
  get : registry.get contractAddress = some contract
  pcToIdx : contract.pcToIdx = (buildPcToInstructionIndex contract.runtimeBytecode).getD []

namespace MultiRecorder

variable {registry : ContractRegistry} {contractAddress : Address} {contract : ContractArtifacts}

theorem initialArtifacts_registered
    (h : RegisteredContract registry contractAddress contract) :
    initialArtifacts registry contractAddress = contract.artifacts := by
  unfold initialArtifacts
  rw [h.get]
  dsimp only
  rw [← h.pcToIdx, ite_self]
  rfl

/-- In the only frame the artifacts are those of the contract. -/
theorem KeepsFrame.artifacts {structLogs : List StructLog} {s : MultiRecorderState}
    {t : FrameState} {log : StructLog} (h : KeepsFrame contractAddress s t)
    (hregistered : RegisteredContract registry contractAddress contract) (hdepth : log.depth = 1)
    (i : Nat) :
    artifactsFor registry contractAddress structLogs i log s = contract.artifacts := by
  rw [artifactsFor, artifactsOn, enterDepth_one hdepth h.prevDepth]
  simp only [currentArtifacts, h.frameStack, List.getLast?_singleton, Option.map_some,
    Option.getD_some, hregistered.get]
  rfl

/-- A log of the frame. -/
theorem KeepsFrame.stepOf (keccak256 : List UInt8 → U256) {structLogs : List StructLog}
    {s : MultiRecorderState} {t : FrameState} {log : StructLog} {i : Nat}
    (h : KeepsFrame contractAddress s t)
    (hregistered : RegisteredContract registry contractAddress contract)
    (hframe : InFrame contract.artifacts log) (hlog : structLogs[i]? = some log) :
    let stepped := t.step keccak256 contract.artifacts
      (Recorder.mainPathOf contract.artifacts.sourcePaths) (stackAt structLogs) i log
    KeepsFrame contractAddress (stepOf keccak256 registry contractAddress structLogs i log s).1
        stepped.1 ∧
      (MultiRecorder.stepOf keccak256 registry contractAddress structLogs i log s).2 =
        stepped.2 := by
  intro stepped
  let mainPath := Recorder.mainPathOf contract.artifacts.sourcePaths
  obtain ⟨hlocated, hmoved⟩ := h.handleLocation contract.artifacts mainPath structLogs hframe i hlog
  obtain ⟨hstored, hwritten⟩ := hlocated.handleStorage keccak256 contract.artifacts hframe.depth
  have hquiet : depthEvents mainPath log s = [] := by
    rw [depthEvents, h.prevDepth, hframe.depth]
    rfl
  have hartifacts : currentArtifacts registry contract.artifacts contractAddress
      (enterDepth structLogs i log s).frameStack = contract.artifacts := by
    rw [← initialArtifacts_registered hregistered]
    exact (h.artifacts hregistered hframe.depth i).trans
      (initialArtifacts_registered hregistered).symm
  rw [MultiRecorder.stepOf, initialArtifacts_registered hregistered]
  dsimp only [MultiRecorder.step]
  rw [hartifacts]
  constructor
  · exact { hstored with prevDepth := hframe.depth }
  · dsimp only [stepped, FrameState.step]
    rw [hquiet, hmoved, hwritten, List.nil_append]

end MultiRecorder

/-! ## §4  Recordings -/

/-- Without an AST no local variable is known. -/
theorem recordFrame_noAst (keccak256 : List UInt8 → U256) (registered : List Path)
    {a : Artifacts} (hast : a.solidityAst = none) (localStack localStack' : Nat → Option (List U256))
    (structLogs : List StructLog) :
    recordFrame keccak256 registered a localStack structLogs =
      recordFrame keccak256 registered a localStack' structLogs := by
  have henclosing : ∀ pc loc, enclosingFunction a pc loc = none := by
    intro pc loc
    rw [enclosingFunction, hast]
    rfl
  have hlocals : ∀ log loc tracker stack, localsAt a log loc tracker stack = [] := by
    intro log loc tracker stack
    unfold localsAt
    rw [henclosing]
    split
    · next hfound => cases hfound
    · rfl
  have hstep : FrameState.step keccak256 a (Recorder.mainPathOf a.sourcePaths) localStack =
      FrameState.step keccak256 a (Recorder.mainPathOf a.sourcePaths) localStack' := by
    funext i log s
    simp only [FrameState.step, FrameState.located, hlocals]
  rw [recordFrame, recordFrame, hstep]

/-- On a trace of one frame without handled jump markers the two recorders issue the
events of the recorder of one frame, the single-contract recorder with the local variables
read in the next log's stack, the multi-contract recorder in the log's own. -/
theorem recordings_eq_recordFrame (keccak256 : List UInt8 → U256) (registered : List Path)
    {registry : ContractRegistry} {contractAddress : Address} {contract : ContractArtifacts}
    {structLogs : List StructLog}
    (hregistered : RegisteredContract registry contractAddress contract)
    (hframe : ∀ log ∈ structLogs, InFrame contract.artifacts log) :
    recordFromStructlog keccak256 registered (contract.traced contract.storageLayout) structLogs =
        recordFrame keccak256 registered contract.artifacts
          (fun i => stackAt structLogs (i + 1)) structLogs ∧
      (recordFromStructlogMultiContract keccak256 registered registry contractAddress
          structLogs).1 =
        recordFrame keccak256 registered contract.artifacts (stackAt structLogs) structLogs := by
  have htraced : contract.traced contract.storageLayout = contract.artifacts := by
    rw [ContractArtifacts.traced, Recorder.singleArtifacts, ← hregistered.pcToIdx]
    rfl
  have hinitial := MultiRecorder.initialArtifacts_registered hregistered
  have hlogs : ∀ k log, structLogs[k]? = some log →
      InFrame contract.artifacts log ∧ structLogs[0 + k]? = some log := fun k log hlog =>
    ⟨hframe log (List.mem_of_getElem? hlog), by rwa [Nat.zero_add]⟩
  have hsingle : recordFromStructlog keccak256 registered
      (contract.traced contract.storageLayout) structLogs =
        recordFrame keccak256 registered contract.artifacts
          (fun i => stackAt structLogs (i + 1)) structLogs := by
    rw [htraced]
    unfold recordFromStructlog recordFrame
    by_cases hempty : structLogs.isEmpty = true
    · rw [if_pos hempty, if_pos hempty]
    · rw [if_neg hempty, if_neg hempty]
      refine congrArg _ (Machine.run_simulate (R := Recorder.KeepsFrame)
        (P := fun _ log => InFrame contract.artifacts log)
        (fun i log s t hlog h => h.step keccak256 contract.artifacts _ structLogs hlog i)
        structLogs 0 _ _ (fun k log hlog => (hlogs k log hlog).1) ?_).2
      exact ⟨rfl, rfl, rfl, rfl, rfl, rfl, rfl, rfl⟩
  have hmulti : (recordFromStructlogMultiContract keccak256 registered registry contractAddress
      structLogs).1 =
        recordFrame keccak256 registered contract.artifacts (stackAt structLogs) structLogs := by
    unfold recordFromStructlogMultiContract recordFrame
    by_cases hempty : structLogs.isEmpty = true
    · rw [if_pos hempty, if_pos hempty]
    · rw [if_neg hempty, if_neg hempty]
      dsimp only
      have hstep : ∀ i log s t, InFrame contract.artifacts log ∧ structLogs[i]? = some log →
          MultiRecorder.KeepsFrame contractAddress s t → _ ∧ _ :=
        fun i log s t hlog h => MultiRecorder.KeepsFrame.stepOf keccak256 h hregistered
          hlog.1 hlog.2
      have hrun := (Machine.run_simulate (R := MultiRecorder.KeepsFrame contractAddress) hstep
        structLogs 0 (MultiRecorder.initialState registered registry contractAddress)
        { pathsWithLineLengths := (Recorder.registerMain registered contract.artifacts).1 }
        hlogs ?_).2
      · rw [hinitial, hrun]
      · exact ⟨rfl, rfl, by rw [MultiRecorder.initialState, hinitial], rfl, rfl, rfl, rfl, rfl, rfl⟩
  exact ⟨hsingle, hmulti⟩

/-- **One frame, one recorder.** On a trace of one frame without handled jump markers
the two recorders issue, in whatever orders they walk their caches, the events of the
recorder of one frame, the single-contract recorder with the local variables read in the next
log's stack, the multi-contract recorder in the log's own; so without an AST the recordings
are the same. -/
theorem recordings_of_one_frame (keccak256 : List UInt8 → U256) (registered : List Path)
    (orders orders' : Nat → MapOrder) {registry : ContractRegistry} {contractAddress : Address}
    {contract : ContractArtifacts} {structLogs : List StructLog}
    (hregistered : RegisteredContract registry contractAddress contract)
    (hframe : ∀ log ∈ structLogs, InFrame contract.artifacts log) :
    UpToOrder
        (recordFromStructlogIn orders keccak256 registered
          (contract.traced contract.storageLayout) structLogs)
        (recordFrame keccak256 registered contract.artifacts
          (fun i => stackAt structLogs (i + 1)) structLogs) ∧
      UpToOrder
        (recordFromStructlogMultiContractIn orders' keccak256 registered registry contractAddress
          structLogs).1
        (recordFrame keccak256 registered contract.artifacts (stackAt structLogs) structLogs) ∧
      (contract.solidityAst = none →
        UpToOrder
          (recordFromStructlogIn orders keccak256 registered
            (contract.traced contract.storageLayout) structLogs)
          (recordFromStructlogMultiContractIn orders' keccak256 registered registry
            contractAddress structLogs).1) := by
  obtain ⟨hsingle, hmulti⟩ := recordings_eq_recordFrame keccak256 registered hregistered hframe
  have hwalked := recordFromStructlogIn_upToOrder orders keccak256 registered
    (contract.traced contract.storageLayout) structLogs
  have hwalked' := (recordFromStructlogMultiContractIn_upToOrder orders' keccak256 registered
    registry contractAddress structLogs).1
  rw [hsingle] at hwalked
  rw [hmulti] at hwalked'
  refine ⟨hwalked, hwalked', fun hast => ?_⟩
  rw [recordFrame_noAst keccak256 registered hast _ (stackAt structLogs)] at hwalked
  exact hwalked.trans hwalked'.symm

/-- A run with a local variable, and one without an AST in which two variables are written
again on another line. -/
theorem recordings_of_one_frame_declaration :
    UpToOrder
        (recordFromStructlogIn (fun _ => .listed) (fun _ => 0) []
          (MultiRecorder.localsContract.traced none) Recorder.declarationRun)
        (recordFrame (fun _ => 0) [] MultiRecorder.localsContract.artifacts
          (fun i => stackAt Recorder.declarationRun (i + 1)) Recorder.declarationRun) ∧
      UpToOrder
        (recordFromStructlogMultiContractIn (fun _ => .reversed) (fun _ => 0) []
          MultiRecorder.localsRegistry 1 Recorder.declarationRun).1
        (recordFrame (fun _ => 0) [] MultiRecorder.localsContract.artifacts
          (stackAt Recorder.declarationRun) Recorder.declarationRun) ∧
      UpToOrder
        (recordFromStructlogIn (fun _ => .listed) (fun _ => 0) []
          (storingContract.traced none) (storingLogs 1))
        (recordFromStructlogMultiContractIn (fun _ => .reversed) (fun _ => 0) []
          { contracts := [(1, storingContract)] } 1 (storingLogs 1)).1 := by
  have hframe : ∀ log ∈ Recorder.declarationRun,
      InFrame MultiRecorder.localsContract.artifacts log := by
    intro log hlog
    have hmarker := MultiRecorder.oneFrame_declarationRun.marker log hlog
    refine ⟨MultiRecorder.oneFrame_declarationRun.depth log hlog, ?_⟩
    rw [processedMarker, hmarker, ite_self]
  have hregistered : RegisteredContract MultiRecorder.localsRegistry 1
      MultiRecorder.localsContract := ⟨rfl, rfl⟩
  have hstoring : ∀ log ∈ storingLogs 1, InFrame storingContract.artifacts log := by
    have hdepth : ∀ log ∈ storingLogs 1, log.depth = 1 := by decide
    have hmarker : ∀ log ∈ storingLogs 1,
        processedMarker storingContract.artifacts log = .regular := by decide
    exact fun log hlog => ⟨hdepth log hlog, hmarker log hlog⟩
  have hstored : RegisteredContract { contracts := [(1, storingContract)] } 1 storingContract :=
    ⟨rfl, rfl⟩
  have h := recordings_of_one_frame (fun _ => 0) [] (fun _ => .listed) (fun _ => .reversed)
    hregistered hframe
  have h' := recordings_of_one_frame (fun _ => 0) [] (fun _ => .listed) (fun _ => .reversed)
    hstored hstoring
  exact ⟨h.1, h.2.1, h'.2.2 rfl⟩

end EvmRecorder
