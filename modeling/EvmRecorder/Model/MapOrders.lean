import EvmRecorder.Library.Reordered
import EvmRecorder.Model.MultiRecorder

/-!
# The order of re-emitted variables

At a step that changes the line the recorders walk their cache of storage variables, a hash
map whose order of iteration is unspecified. Here a recording is made with any order at any
log. It differs from the recording that walks the entries as they are listed only in the
order of variables that are written one after another.
-/

namespace EvmRecorder

open Commuting Levels Stack

/-! ## §1  Orders -/

/-- An order in which the entries of a map are walked. -/
structure MapOrder where
  walked : NamedValues → NamedValues
  perm : ∀ m, (walked m).entries.Perm m.entries

def MapOrder.listed : MapOrder := ⟨id, fun _ => .refl _⟩

/-- The last entry first. -/
def MapOrder.reversed : MapOrder where
  walked m := ⟨m.entries.reverse, (List.perm_nodupKeys (List.reverse_perm _)).mpr m.nodupKeys⟩
  perm _ := List.reverse_perm _

/-- Both write a variable, not the same one. -/
def TraceEvent.Commutes (e e' : TraceEvent) : Prop :=
  ∃ name value name' value', name ≠ name' ∧ e = .registerVariableWithFullValue name value ∧
    e' = .registerVariableWithFullValue name' value'

theorem TraceEvent.Commutes.symm {e e' : TraceEvent} (h : e.Commutes e') : e'.Commutes e := by
  obtain ⟨name, value, name', value', hne, he, he'⟩ := h
  exact ⟨name', value', name, value, hne.symm, he', he⟩

/-- The same events, up to the order of variables written one after another. -/
abbrev UpToOrder : List TraceEvent → List TraceEvent → Prop := Reordered TraceEvent.Commutes

theorem UpToOrder.symm {events events' : List TraceEvent} (h : UpToOrder events events') :
    UpToOrder events' events :=
  Reordered.symm (fun _ _ => TraceEvent.Commutes.symm) h

section Blocks

variable {m m' : NamedValues} (h : m.entries.Perm m'.entries)

include h

/-- A cache walked in another order: its names are different. -/
theorem upToOrder_carriedForward (prevLine : Option SourceLocation) (loc : SourceLocation) :
    UpToOrder ((carriedForward prevLine loc m).map fun e => .registerVariableWithFullValue e.1 e.2)
      ((carriedForward prevLine loc m').map fun e => .registerVariableWithFullValue e.1 e.2) := by
  unfold carriedForward
  split
  · rw [List.map_map, List.map_map]
    refine .of_perm (fun _ _ => TraceEvent.Commutes.symm) (h.map _) ?_
    have hnames : m.entries.Pairwise fun e e' => e.1 ≠ e'.1 :=
      List.nodupKeys_iff_pairwise.mp m.nodupKeys
    exact List.pairwise_map.mpr (hnames.imp fun {e e'} hne => ⟨e.1, e.2, e'.1, e'.2, hne, rfl, rfl⟩)
  · exact .refl _

theorem emitStep_perm (a : Artifacts) (mainPath : Path) (registered : List Path)
    (prevLine : Option SourceLocation) (loc : SourceLocation) :
    (emitStep a mainPath registered prevLine loc m).1 =
        (emitStep a mainPath registered prevLine loc m').1 ∧
      UpToOrder (emitStep a mainPath registered prevLine loc m).2
        (emitStep a mainPath registered prevLine loc m').2 := by
  unfold emitStep
  split
  · exact ⟨rfl, .refl _⟩
  · exact ⟨rfl, (upToOrder_carriedForward h prevLine loc).append_left _⟩

theorem recordStorageWrite_perm (layout : Option StorageLayout) (names : MappingSlotNames)
    (slot value : U256) (slotValues : SlotValues) :
    (recordStorageWrite layout names slot value m slotValues).1.entries.Perm
        (recordStorageWrite layout names slot value m' slotValues).1.entries ∧
      (recordStorageWrite layout names slot value m slotValues).2 =
        (recordStorageWrite layout names slot value m' slotValues).2 := by
  unfold recordStorageWrite
  dsimp only
  split
  · exact ⟨AList.perm_insert (AList.perm_insert h), rfl⟩
  · exact ⟨AList.perm_insert h, rfl⟩

end Blocks

/-! ## §2  The single-contract recorder -/

namespace Recorder

/-- The states agree, the caches up to order. -/
def SameUpToOrder (s s' : RecorderState) : Prop :=
  ∃ m, m.entries.Perm s'.storageState.entries ∧ s = { s' with storageState := m }

section

variable (keccak256 : List UInt8 → U256) (a : Artifacts) (mainPath : Path)
  (structLogs : List StructLog) {s s' : RecorderState}

theorem SameUpToOrder.handleJump (h : SameUpToOrder s s') (i : Nat) (log : StructLog)
    (loc : SourceLocation) :
    SameUpToOrder (handleJump a mainPath structLogs i log loc s).1
        (Recorder.handleJump a mainPath structLogs i log loc s').1 ∧
      (Recorder.handleJump a mainPath structLogs i log loc s).2 =
        (Recorder.handleJump a mainPath structLogs i log loc s').2 := by
  obtain ⟨m, hm, rfl⟩ := h
  unfold Recorder.handleJump
  split
  · unfold jumpInto
    dsimp only
    by_cases habsorbed : s'.firstInternalCallAbsorbed = true
    · rw [if_pos habsorbed, if_pos habsorbed]
      exact ⟨⟨m, hm, rfl⟩, rfl⟩
    · rw [if_neg habsorbed, if_neg habsorbed]
      exact ⟨⟨m, hm, rfl⟩, rfl⟩
  · exact ⟨⟨m, hm, rfl⟩, rfl⟩
  · exact ⟨⟨m, hm, rfl⟩, rfl⟩

theorem SameUpToOrder.handleLocation (h : SameUpToOrder s s') (i : Nat) (log : StructLog) :
    SameUpToOrder (handleLocation a mainPath structLogs i log s).1
        (Recorder.handleLocation a mainPath structLogs i log s').1 ∧
      UpToOrder (Recorder.handleLocation a mainPath structLogs i log s).2
        (Recorder.handleLocation a mainPath structLogs i log s').2 := by
  obtain ⟨m, hm, rfl⟩ := h
  have hjump := fun s s' (h : SameUpToOrder s s') =>
    h.handleJump a mainPath structLogs i log
  unfold Recorder.handleLocation
  cases a.resolvePc log.pc with
  | none => exact ⟨⟨m, hm, rfl⟩, .refl _⟩
  | some loc =>
      obtain ⟨hpaths, hsteps⟩ := emitStep_perm hm a mainPath s'.pathsWithLineLengths s'.prevLine loc
      dsimp only [atLocation]
      rw [hpaths]
      constructor
      · refine (hjump _ _ ?_ loc).1
        exact ⟨m, hm, rfl⟩
      · refine (hsteps.append_right _).append (.of_eq (hjump _ _ ?_ loc).2)
        exact ⟨m, hm, rfl⟩

theorem SameUpToOrder.handleStorage (h : SameUpToOrder s s') (log : StructLog) :
    SameUpToOrder (handleStorage keccak256 a log s).1
        (Recorder.handleStorage keccak256 a log s').1 ∧
      (Recorder.handleStorage keccak256 a log s).2 =
        (Recorder.handleStorage keccak256 a log s').2 := by
  obtain ⟨m, hm, rfl⟩ := h
  unfold Recorder.handleStorage
  dsimp only
  split
  · next slot value _ =>
      obtain ⟨hcached, hwritten⟩ := recordStorageWrite_perm hm a.storageLayout
        (recordMappingSlot keccak256 a.storageLayout log s'.mappingSlotNames) slot value
        s'.slotValues
      rw [hwritten]
      exact ⟨⟨_, hcached, rfl⟩, rfl⟩
  · exact ⟨⟨m, hm, rfl⟩, rfl⟩

/-- A log, when the cache is walked in another order. -/
theorem SameUpToOrder.step (h : SameUpToOrder s s') (i : Nat) (log : StructLog) :
    SameUpToOrder (step keccak256 a mainPath structLogs i log s).1
        (Recorder.step keccak256 a mainPath structLogs i log s').1 ∧
      UpToOrder (Recorder.step keccak256 a mainPath structLogs i log s).2
        (Recorder.step keccak256 a mainPath structLogs i log s').2 := by
  have hentered : SameUpToOrder (enterDepth log s) (enterDepth log s') := by
    obtain ⟨m, hm, rfl⟩ := h
    exact ⟨m, hm, rfl⟩
  have hdepth : depthEvents a mainPath structLogs i log s =
      depthEvents a mainPath structLogs i log s' := by
    obtain ⟨m, hm, rfl⟩ := h
    rfl
  obtain ⟨hlocated, hmoved⟩ := hentered.handleLocation a mainPath structLogs i log
  obtain ⟨hstored, hwritten⟩ := hlocated.handleStorage keccak256 a log
  constructor
  · obtain ⟨m, hm, heq⟩ := hstored
    exact ⟨m, hm, congrArg (fun s : RecorderState => { s with prevDepth := log.depth }) heq⟩
  · dsimp only [Recorder.step]
    rw [hdepth, hwritten]
    exact ((hmoved.append_left _).append_right _).append_right _

/-- The loop body, with the cache walked in the order of the log. -/
def stepIn (orders : Nat → MapOrder) (i : Nat) (log : StructLog) (s : RecorderState) :
    RecorderState × List TraceEvent :=
  Recorder.step keccak256 a mainPath structLogs i log
    { s with storageState := (orders i).walked s.storageState }

theorem SameUpToOrder.stepIn (orders : Nat → MapOrder) (h : SameUpToOrder s s') (i : Nat)
    (log : StructLog) :
    SameUpToOrder (stepIn keccak256 a mainPath structLogs orders i log s).1
        (Recorder.step keccak256 a mainPath structLogs i log s').1 ∧
      UpToOrder (Recorder.stepIn keccak256 a mainPath structLogs orders i log s).2
        (Recorder.step keccak256 a mainPath structLogs i log s').2 := by
  have hwalked : SameUpToOrder { s with storageState := (orders i).walked s.storageState } s' := by
    obtain ⟨m, hm, rfl⟩ := h
    exact ⟨_, ((orders i).perm m).trans hm, rfl⟩
  exact hwalked.step keccak256 a mainPath structLogs i log

end

section Runs

variable (orders : Nat → MapOrder) (keccak256 : List UInt8 → U256) (registered : List Path)
  (a : Artifacts) (structLogs : List StructLog) (k : Nat)

/-- The loop's variables before log `k`. -/
def stateBeforeIn : RecorderState :=
  Machine.stateBefore (stepIn keccak256 a (mainPathOf a.sourcePaths) structLogs orders) structLogs
    (initialState registered a) k

/-- The events issued before log `k`. -/
def eventsBeforeIn : List TraceEvent :=
  preamble registered a ++
    Machine.outputBefore (stepIn keccak256 a (mainPathOf a.sourcePaths) structLogs orders) structLogs
      (initialState registered a) k

end Runs

end Recorder

open Recorder in
/-- `record_from_structlog`, with the cache walked in these orders. -/
def recordFromStructlogIn (orders : Nat → MapOrder) (keccak256 : List UInt8 → U256)
    (registered : List Path) (a : Artifacts) (structLogs : List StructLog) : List TraceEvent :=
  if structLogs.isEmpty then []
  else preamble registered a ++
    (Machine.run (stepIn keccak256 a (mainPathOf a.sourcePaths) structLogs orders) 0 structLogs
      (initialState registered a)).2

/-- The model lists the entries as they are. -/
theorem recordFromStructlogIn_listed (keccak256 : List UInt8 → U256) (registered : List Path)
    (a : Artifacts) (structLogs : List StructLog) :
    recordFromStructlogIn (fun _ => .listed) keccak256 registered a structLogs =
      recordFromStructlog keccak256 registered a structLogs :=
  rfl

/-- The order of the cache shows nowhere else. -/
theorem recordFromStructlogIn_upToOrder (orders : Nat → MapOrder) (keccak256 : List UInt8 → U256)
    (registered : List Path) (a : Artifacts) (structLogs : List StructLog) :
    UpToOrder (recordFromStructlogIn orders keccak256 registered a structLogs)
      (recordFromStructlog keccak256 registered a structLogs) := by
  unfold recordFromStructlogIn recordFromStructlog
  split
  · exact .refl _
  · refine Reordered.append_left _ (Machine.run_simulate_output (R := Recorder.SameUpToOrder)
      .nil (fun _ _ _ _ => .append) (fun i log _ _ h => h.stepIn keccak256 a _ structLogs orders i
        log) structLogs 0 _ _ ?_).2
    exact ⟨_, .refl _, rfl⟩

/-! ## §3  The multi-contract recorder -/

namespace MultiRecorder

/-- The caches of the frames agree up to order. -/
abbrev CachesUpToOrder : List NamedValues → List NamedValues → Prop :=
  List.Forall₂ fun m m' => m.entries.Perm m'.entries

section Caches

variable {caches caches' : List NamedValues} (h : CachesUpToOrder caches caches')

include h

theorem CachesUpToOrder.popKeepRoot (n : Nat) :
    CachesUpToOrder (popKeepRoot caches n) (MultiRecorder.popKeepRoot caches' n) := by
  rw [MultiRecorder.popKeepRoot, MultiRecorder.popKeepRoot, popN, popN, h.length_eq]
  exact List.forall₂_take _ h

/-- The entries of each frame's cache, walked in an order of their own. -/
theorem CachesUpToOrder.walked (order : MapOrder) :
    CachesUpToOrder (caches.map order.walked) caches' :=
  List.forall₂_map_left_iff.mpr (h.imp fun m _ hm => (order.perm m).trans hm)

end Caches

/-- The states agree, the caches up to order. -/
def SameUpToOrder (s s' : MultiRecorderState) : Prop :=
  ∃ caches, CachesUpToOrder caches s'.storageStates ∧ s = { s' with storageStates := caches }

section

variable (keccak256 : List UInt8 → U256) (a : Artifacts) (mainPath : Path)
  (structLogs : List StructLog) {s s' : MultiRecorderState}

theorem SameUpToOrder.frameStack (h : SameUpToOrder s s') : s.frameStack = s'.frameStack := by
  obtain ⟨caches, -, rfl⟩ := h
  rfl

theorem SameUpToOrder.callTree (h : SameUpToOrder s s') : s.callTree = s'.callTree := by
  obtain ⟨caches, -, rfl⟩ := h
  rfl

theorem SameUpToOrder.enterDepth (h : SameUpToOrder s s') (i : Nat) (log : StructLog) :
    SameUpToOrder (enterDepth structLogs i log s)
      (MultiRecorder.enterDepth structLogs i log s') := by
  obtain ⟨caches, hcaches, rfl⟩ := h
  unfold MultiRecorder.enterDepth enterFrame leaveFrames
  dsimp only
  split_ifs
  · exact ⟨_, forall₂_growTo _ (.refl _) hcaches, rfl⟩
  · exact ⟨_, hcaches.popKeepRoot _, rfl⟩
  · exact ⟨_, hcaches, rfl⟩

theorem SameUpToOrder.handleJump (h : SameUpToOrder s s') (i : Nat) (log : StructLog)
    (loc : SourceLocation) :
    SameUpToOrder (handleJump mainPath structLogs a i log loc s).1
        (MultiRecorder.handleJump mainPath structLogs a i log loc s').1 ∧
      (MultiRecorder.handleJump mainPath structLogs a i log loc s).2 =
        (MultiRecorder.handleJump mainPath structLogs a i log loc s').2 := by
  obtain ⟨caches, hcaches, rfl⟩ := h
  unfold MultiRecorder.handleJump
  split
  · exact ⟨⟨caches, hcaches, rfl⟩, rfl⟩
  · exact ⟨⟨caches, hcaches, rfl⟩, rfl⟩
  · exact ⟨⟨caches, hcaches, rfl⟩, rfl⟩

theorem SameUpToOrder.handleLocation (h : SameUpToOrder s s') (i : Nat) (log : StructLog) :
    SameUpToOrder (handleLocation mainPath structLogs a i log s).1
        (MultiRecorder.handleLocation mainPath structLogs a i log s').1 ∧
      UpToOrder (MultiRecorder.handleLocation mainPath structLogs a i log s).2
        (MultiRecorder.handleLocation mainPath structLogs a i log s').2 := by
  obtain ⟨caches, hcaches, rfl⟩ := h
  have hjump := fun s s' (h : SameUpToOrder s s') => h.handleJump a mainPath structLogs i log
  unfold MultiRecorder.handleLocation
  cases a.resolvePc log.pc with
  | none => exact ⟨⟨caches, hcaches, rfl⟩, .refl _⟩
  | some loc =>
      obtain ⟨hpaths, hsteps⟩ := emitStep_perm
        (rel_atLevel (x := ∅) (y := ∅) log.depth (.refl _) hcaches) a mainPath
        s'.pathsWithLineLengths s'.prevLine loc
      dsimp only [atLocation]
      rw [hpaths]
      constructor
      · refine (hjump _ _ ?_ loc).1
        exact ⟨caches, hcaches, rfl⟩
      · refine (hsteps.append_right _).append (.of_eq (hjump _ _ ?_ loc).2)
        exact ⟨caches, hcaches, rfl⟩

theorem SameUpToOrder.handleStorage (h : SameUpToOrder s s') (log : StructLog) :
    SameUpToOrder (handleStorage keccak256 a log s).1
        (MultiRecorder.handleStorage keccak256 a log s').1 ∧
      (MultiRecorder.handleStorage keccak256 a log s).2 =
        (MultiRecorder.handleStorage keccak256 a log s').2 := by
  obtain ⟨caches, hcaches, rfl⟩ := h
  unfold MultiRecorder.handleStorage
  dsimp only
  split
  · next slot value _ =>
      have hgrown : CachesUpToOrder (growTo log.depth ∅ caches)
          (growTo log.depth ∅ s'.storageStates) := forall₂_growTo _ (.refl _) hcaches
      obtain ⟨hcached, hwritten⟩ := recordStorageWrite_perm
        (rel_atLevel (x := ∅) (y := ∅) log.depth (.refl _) hgrown) a.storageLayout
        (atLevel log.depth ∅ (nameMappingSlots keccak256 a log s'.mappingSlotNamesPerFrame)) slot
        value (atLevel log.depth ∅ (growTo log.depth ∅ s'.slotValuesPerFrame))
      rw [hwritten]
      exact ⟨⟨_, forall₂_setLevel _ hcached hgrown, rfl⟩, rfl⟩
  · exact ⟨⟨caches, hcaches, rfl⟩, rfl⟩

end

section Runs

variable (keccak256 : List UInt8 → U256) (registered : List Path) (registry : ContractRegistry)
  (contractAddress : Address) (structLogs : List StructLog) {s s' : MultiRecorderState}

/-- A log, when the caches are walked in another order. -/
theorem SameUpToOrder.stepOf (h : SameUpToOrder s s') (i : Nat) (log : StructLog) :
    SameUpToOrder (stepOf keccak256 registry contractAddress structLogs i log s).1
        (MultiRecorder.stepOf keccak256 registry contractAddress structLogs i log s').1 ∧
      UpToOrder (MultiRecorder.stepOf keccak256 registry contractAddress structLogs i log s).2
        (MultiRecorder.stepOf keccak256 registry contractAddress structLogs i log s').2 := by
  have hentered := h.enterDepth structLogs i log
  have hdepth : ∀ mainPath, depthEvents mainPath log s = depthEvents mainPath log s' := by
    obtain ⟨caches, hcaches, rfl⟩ := h
    exact fun _ => rfl
  unfold MultiRecorder.stepOf step
  dsimp only
  rw [hentered.frameStack, hdepth]
  generalize currentArtifacts registry (initialArtifacts registry contractAddress) contractAddress
    (MultiRecorder.enterDepth structLogs i log s').frameStack = current
  generalize Recorder.mainPathOf (initialArtifacts registry contractAddress).sourcePaths = mainPath
  obtain ⟨hlocated, hmoved⟩ := hentered.handleLocation current mainPath structLogs i log
  obtain ⟨hstored, hwritten⟩ := hlocated.handleStorage keccak256 current log
  constructor
  · obtain ⟨caches, hcaches, heq⟩ := hstored
    exact ⟨caches, hcaches,
      congrArg (fun s : MultiRecorderState => { s with prevDepth := log.depth }) heq⟩
  · rw [hwritten]
    exact ((hmoved.append_left _).append_right _).append_right _

/-- The loop body, with the caches walked in the order of the log. -/
def stepIn (orders : Nat → MapOrder) (i : Nat) (log : StructLog) (s : MultiRecorderState) :
    MultiRecorderState × List TraceEvent :=
  MultiRecorder.stepOf keccak256 registry contractAddress structLogs i log
    { s with storageStates := s.storageStates.map (orders i).walked }

theorem SameUpToOrder.stepIn (orders : Nat → MapOrder) (h : SameUpToOrder s s') (i : Nat)
    (log : StructLog) :
    SameUpToOrder (stepIn keccak256 registry contractAddress structLogs orders i log s).1
        (MultiRecorder.stepOf keccak256 registry contractAddress structLogs i log s').1 ∧
      UpToOrder (MultiRecorder.stepIn keccak256 registry contractAddress structLogs orders i log s).2
        (MultiRecorder.stepOf keccak256 registry contractAddress structLogs i log s').2 := by
  have hwalked : SameUpToOrder
      { s with storageStates := s.storageStates.map (orders i).walked } s' := by
    obtain ⟨caches, hcaches, rfl⟩ := h
    exact ⟨_, hcaches.walked (orders i), rfl⟩
  exact hwalked.stepOf keccak256 registry contractAddress structLogs i log

/-- The loop's variables before log `k`. -/
def stateBeforeIn (orders : Nat → MapOrder) (k : Nat) : MultiRecorderState :=
  Machine.stateBefore (MultiRecorder.stepIn keccak256 registry contractAddress structLogs orders)
    structLogs (initialState registered registry contractAddress) k

/-- The events issued before log `k`. -/
def eventsBeforeIn (orders : Nat → MapOrder) (k : Nat) : List TraceEvent :=
  Recorder.preamble registered (initialArtifacts registry contractAddress) ++
    Machine.outputBefore (MultiRecorder.stepIn keccak256 registry contractAddress structLogs orders)
      structLogs (initialState registered registry contractAddress) k

/-- Along a run. -/
theorem run_upToOrder (orders : Nat → MapOrder) (xs : List StructLog) :
    let recorded := Machine.run
      (MultiRecorder.stepIn keccak256 registry contractAddress structLogs orders) 0 xs
      (initialState registered registry contractAddress)
    let listed := Machine.run
      (MultiRecorder.stepOf keccak256 registry contractAddress structLogs) 0 xs
      (initialState registered registry contractAddress)
    SameUpToOrder recorded.1 listed.1 ∧ UpToOrder recorded.2 listed.2 :=
  Machine.run_simulate_output (R := SameUpToOrder) .nil (fun _ _ _ _ => .append)
    (fun i log _ _ h => h.stepIn keccak256 registry contractAddress structLogs orders i log) xs 0
    _ _ ⟨_, List.forall₂_same.mpr fun _ _ => .refl _, rfl⟩

end Runs

end MultiRecorder

open MultiRecorder in
/-- `record_from_structlog_multi_contract`, with the caches walked in these orders. -/
def recordFromStructlogMultiContractIn (orders : Nat → MapOrder) (keccak256 : List UInt8 → U256)
    (registered : List Path) (registry : ContractRegistry) (contractAddress : Address)
    (structLogs : List StructLog) : List TraceEvent × CallTree :=
  if structLogs.isEmpty then ([], .new contractAddress)
  else
    let r := Machine.run (stepIn keccak256 registry contractAddress structLogs orders) 0 structLogs
      (initialState registered registry contractAddress)
    (Recorder.preamble registered (initialArtifacts registry contractAddress) ++ r.2,
      r.1.callTree)

/-- The model lists the entries as they are. -/
theorem recordFromStructlogMultiContractIn_listed (keccak256 : List UInt8 → U256)
    (registered : List Path) (registry : ContractRegistry) (contractAddress : Address)
    (structLogs : List StructLog) :
    recordFromStructlogMultiContractIn (fun _ => .listed) keccak256 registered registry
        contractAddress structLogs =
      recordFromStructlogMultiContract keccak256 registered registry contractAddress
        structLogs := by
  have hstep : MultiRecorder.stepIn keccak256 registry contractAddress structLogs
        (fun _ => .listed) =
      MultiRecorder.stepOf keccak256 registry contractAddress structLogs := by
    funext i log s
    show MultiRecorder.stepOf keccak256 registry contractAddress structLogs i log
      { s with storageStates := s.storageStates.map id } = _
    rw [List.map_id]
  rw [recordFromStructlogMultiContractIn, hstep]
  rfl

/-- The order of the caches shows nowhere else. -/
theorem recordFromStructlogMultiContractIn_upToOrder (orders : Nat → MapOrder)
    (keccak256 : List UInt8 → U256) (registered : List Path) (registry : ContractRegistry)
    (contractAddress : Address) (structLogs : List StructLog) :
    UpToOrder
        (recordFromStructlogMultiContractIn orders keccak256 registered registry contractAddress
          structLogs).1
        (recordFromStructlogMultiContract keccak256 registered registry contractAddress
          structLogs).1 ∧
      (recordFromStructlogMultiContractIn orders keccak256 registered registry contractAddress
          structLogs).2 =
        (recordFromStructlogMultiContract keccak256 registered registry contractAddress
          structLogs).2 := by
  unfold recordFromStructlogMultiContractIn recordFromStructlogMultiContract
  split
  · exact ⟨.refl _, rfl⟩
  · obtain ⟨hstate, hevents⟩ := MultiRecorder.run_upToOrder keccak256 registered registry
      contractAddress structLogs orders structLogs
    exact ⟨hevents.append_left _, hstate.callTree⟩

/-! ## §4  A contract that writes two variables -/

/-- `sstore` twice on line 1, `stop` on line 2. -/
def storingContract : ContractArtifacts where
  sourceMap := SourceMap.parse "0:1:0:-;;2:1"
  runtimeBytecode := [0x55, 0x55, 0x00]
  pcToIdx := (buildPcToInstructionIndex [0x55, 0x55, 0x00]).getD []
  sourcePaths := [⟨["C.sol"]⟩]
  sourceContents := ["s\nt"]

def storingLogs (depth : Nat) : List StructLog :=
  [{ pc := 0, op := "SSTORE", depth, stack := some [7, 1, 6, 0] },
    { pc := 1, op := "SSTORE", depth, stack := some [7, 1] },
    { pc := 2, op := "STOP", depth, stack := some [] }]

end EvmRecorder
