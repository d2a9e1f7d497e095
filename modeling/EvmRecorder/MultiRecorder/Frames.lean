import EvmRecorder.Model.MultiRecorder

/-!
# Frames of the multi-contract recorder

On an execution that enters one frame at a time the containers have one entry
per open frame, and a change of depth is the same for all of them: entries of
the frames that stay open are kept, a frame just entered gets a fresh one.
-/

namespace EvmRecorder.MultiRecorder

open Stack Levels

section Artifacts

variable (registry : ContractRegistry) (contractAddress : Address)

/-- The artifacts of the frame on top of a frame stack. -/
def artifactsOn (frameStack : List FrameContext) : Artifacts :=
  currentArtifacts registry (initialArtifacts registry contractAddress) contractAddress frameStack

/-- The artifacts a log is recorded with. -/
def artifactsFor (structLogs : List StructLog) (i : Nat) (log : StructLog)
    (s : MultiRecorderState) : Artifacts :=
  artifactsOn registry contractAddress (enterDepth structLogs i log s).frameStack

theorem mem_contracts_of_get {registry : ContractRegistry} {address : Address}
    {contract : ContractArtifacts} (h : registry.get address = some contract) :
    ∃ entry ∈ registry.contracts, entry.2 = contract := by
  have hlookup : ∀ key, registry.contracts.lookup key = some contract →
      ∃ entry ∈ registry.contracts, entry.2 = contract := by
    intro key hkey
    obtain ⟨before, after, heq, -⟩ := List.lookup_eq_some_iff.mp hkey
    exact ⟨(key, contract), heq ▸ List.mem_append_right _ List.mem_cons_self, rfl⟩
  unfold ContractRegistry.get at h
  split at h
  · next found hfound =>
      obtain rfl := Option.some.inj h
      exact hlookup _ hfound
  · obtain ⟨key, -, hkey⟩ := Option.bind_eq_some_iff.mp h
    exact hlookup key hkey

/-- A property that unknown contracts have and that depends on neither the storage layout
nor the index. -/
structure AboutSources (P : Artifacts → Prop) : Prop where
  unknown : P {}
  layout : ∀ a layout, P a → P { a with storageLayout := layout }
  index : ∀ a pcToIdx, P a → P { a with pcToIdx := pcToIdx }

namespace AboutSources

variable {P : Artifacts → Prop} {registry}

theorem initialArtifacts (hP : AboutSources P)
    (h : ∀ entry ∈ registry.contracts, P entry.2.artifacts) :
    P (initialArtifacts registry contractAddress) := by
  unfold MultiRecorder.initialArtifacts
  split
  · next contract hget =>
      obtain ⟨entry, hentry, rfl⟩ := mem_contracts_of_get hget
      exact hP.index _ _ (h entry hentry)
  · exact hP.unknown

/-- In whatever frame; of a proxy only the storage layout counts. -/
theorem artifactsOn (hP : AboutSources P)
    (h : ∀ entry ∈ registry.contracts, P entry.2.artifacts) (frameStack : List FrameContext) :
    P (artifactsOn registry contractAddress frameStack) := by
  have hget : ∀ {address contract}, registry.get address = some contract →
      P contract.artifacts := by
    intro address contract hget
    obtain ⟨entry, hentry, rfl⟩ := mem_contracts_of_get hget
    exact h entry hentry
  unfold MultiRecorder.artifactsOn currentArtifacts
  dsimp only
  split
  · cases hview : (frameStack.getLast?.bind (·.delegateProxy)).bind (registry.getDelegatecall
        ((frameStack.getLast?.map (·.address)).getD contractAddress)) with
    | none => exact hP.unknown
    | some view =>
        obtain ⟨proxy, -, hdelegate⟩ := Option.bind_eq_some_iff.mp hview
        obtain ⟨contract, hcontract, rfl⟩ := Option.map_eq_some_iff.mp hdelegate
        exact hP.layout _ _ (hget hcontract)
  · cases hcontract : registry.get
        ((frameStack.getLast?.map (·.address)).getD contractAddress) with
    | none => exact hP.initialArtifacts contractAddress h
    | some contract => exact hget hcontract

end AboutSources

end Artifacts

/-! ## §1  After a log -/

theorem prevLogOf_succ {structLogs : List StructLog} {k : Nat} {prev : StructLog}
    (hprev : structLogs[k]? = some prev) : prevLogOf structLogs (k + 1) = some prev := by
  rw [prevLogOf, if_pos (Nat.succ_pos k), Nat.add_sub_cancel, hprev]

/-- Behind a log the recorder is at the log's depth. -/
theorem prevDepth_stateBefore_succ (keccak256 : List UInt8 → U256) (registered : List Path)
    (registry : ContractRegistry) (contractAddress : Address) {structLogs : List StructLog}
    {k : Nat} {prev : StructLog} (hprev : structLogs[k]? = some prev) :
    (stateBefore keccak256 registered registry contractAddress structLogs (k + 1)).prevDepth =
      prev.depth := by
  rw [stateBefore, Machine.stateBefore_succ hprev]
  rfl

/-! ## §2  One entry per open frame -/

structure Lockstep (d : Nat) (s : MultiRecorderState) : Prop where
  frameStack : s.frameStack.length = d
  storageStates : s.storageStates.length = d
  slotValuesPerFrame : s.slotValuesPerFrame.length = d
  mappingSlotNamesPerFrame : s.mappingSlotNamesPerFrame.length = d

/-- Popping down to a positive depth never reaches the root entry. -/
theorem popKeepRoot_eq_resize {α : Type} {d : Nat} {x : α} {xs : List α} (hpos : 1 ≤ d)
    (hd : d ≤ xs.length) : popKeepRoot xs (xs.length - d) = resize d x xs := by
  rw [popKeepRoot, Nat.min_eq_left (Nat.sub_le_sub_left hpos xs.length), popN_eq_resize hd]

/-- The containers after a change of depth; `entered` is the context of the frame
if one is entered. -/
structure Resized (d : Nat) (entered : FrameContext) (s s' : MultiRecorderState) : Prop where
  frameStack : s'.frameStack = resize d entered s.frameStack
  storageStates : s'.storageStates = resize d ∅ s.storageStates
  slotValuesPerFrame : s'.slotValuesPerFrame = resize d ∅ s.slotValuesPerFrame
  mappingSlotNamesPerFrame :
    s'.mappingSlotNamesPerFrame = resize d ∅ s.mappingSlotNamesPerFrame

theorem resized_enterDepth (structLogs : List StructLog) {i : Nat} {log : StructLog} {s : MultiRecorderState}
    (h : Lockstep s.prevDepth s) (hpos : 1 ≤ log.depth) (hrise : log.depth ≤ s.prevDepth + 1) :
    Resized log.depth (enteredFrame s.frameStack (prevLogOf structLogs i)).1 s
      (enterDepth structLogs i log s) := by
  unfold enterDepth
  dsimp only
  rcases Nat.lt_trichotomy s.prevDepth log.depth with hlt | heq | hgt
  · -- one frame is entered
    have hdepth : log.depth = s.prevDepth + 1 := Nat.le_antisymm hrise hlt
    rw [if_pos hlt]
    refine ⟨?_, ?_, ?_, ?_⟩
    · exact append_eq_resize (by rw [h.frameStack, hdepth])
    · exact growTo_eq_resize (by rw [h.storageStates]; exact hlt.le)
    · exact growTo_eq_resize (by rw [h.slotValuesPerFrame]; exact hlt.le)
    · exact growTo_eq_resize (by rw [h.mappingSlotNamesPerFrame]; exact hlt.le)
  · rw [if_neg (by omega), if_neg (by omega)]
    refine ⟨?_, ?_, ?_, ?_⟩
    · exact (resize_of_length (h.frameStack.trans heq)).symm
    · exact (resize_of_length (h.storageStates.trans heq)).symm
    · exact (resize_of_length (h.slotValuesPerFrame.trans heq)).symm
    · exact (resize_of_length (h.mappingSlotNamesPerFrame.trans heq)).symm
  · rw [if_neg (by omega), if_pos hgt]
    have hpop : ∀ {α : Type} (x : α) (xs : List α), xs.length = s.prevDepth →
        popKeepRoot xs (s.prevDepth - log.depth) = resize log.depth x xs := by
      intro α x xs hlen
      rw [← hlen]
      exact popKeepRoot_eq_resize hpos (by rw [hlen]; exact hgt.le)
    refine ⟨?_, ?_, ?_, ?_⟩
    · exact hpop _ _ h.frameStack
    · exact hpop _ _ h.storageStates
    · exact hpop _ _ h.slotValuesPerFrame
    · exact hpop _ _ h.mappingSlotNamesPerFrame

theorem Resized.lockstep {d : Nat} {entered : FrameContext} {s s' : MultiRecorderState}
    (h : Resized d entered s s') : Lockstep d s' where
  frameStack := by rw [h.frameStack, length_resize]
  storageStates := by rw [h.storageStates, length_resize]
  slotValuesPerFrame := by rw [h.slotValuesPerFrame, length_resize]
  mappingSlotNamesPerFrame := by rw [h.mappingSlotNamesPerFrame, length_resize]

/-! ## §3  The rest of a log -/

/-- What a log does at its location leaves frames and storage caches alone. -/
structure SameStorage (s s' : MultiRecorderState) : Prop where
  frameStack : s'.frameStack = s.frameStack
  storageStates : s'.storageStates = s.storageStates
  slotValuesPerFrame : s'.slotValuesPerFrame = s.slotValuesPerFrame
  mappingSlotNamesPerFrame : s'.mappingSlotNamesPerFrame = s.mappingSlotNamesPerFrame

theorem sameStorage_handleLocation (mainPath : Path) (structLogs : List StructLog) (a : Artifacts) (i : Nat) (log : StructLog)
    (s : MultiRecorderState) :
    SameStorage s (handleLocation mainPath structLogs a i log s).1 := by
  unfold handleLocation
  split
  · simp only [atLocation, handleJump]
    split <;> exact ⟨rfl, rfl, rfl, rfl⟩
  · exact ⟨rfl, rfl, rfl, rfl⟩

theorem SameStorage.lockstep {d : Nat} {s s' : MultiRecorderState} (h : SameStorage s s')
    (hs : Lockstep d s) : Lockstep d s' where
  frameStack := by rw [h.frameStack, hs.frameStack]
  storageStates := by rw [h.storageStates, hs.storageStates]
  slotValuesPerFrame := by rw [h.slotValuesPerFrame, hs.slotValuesPerFrame]
  mappingSlotNamesPerFrame := by rw [h.mappingSlotNamesPerFrame, hs.mappingSlotNamesPerFrame]

/-- KECCAK256 and SSTORE replace the entries of the current frame. -/
structure Stored (a : Artifacts) (log : StructLog) (keccak256 : List UInt8 → U256)
    (s s' : MultiRecorderState) : Prop where
  frameStack : s'.frameStack = s.frameStack
  below : ∀ l, 1 ≤ l → l < log.depth →
    atLevel l ∅ s'.storageStates = atLevel l ∅ s.storageStates ∧
    atLevel l ∅ s'.slotValuesPerFrame = atLevel l ∅ s.slotValuesPerFrame ∧
    atLevel l ∅ s'.mappingSlotNamesPerFrame = atLevel l ∅ s.mappingSlotNamesPerFrame
  names : atLevel log.depth ∅ s'.mappingSlotNamesPerFrame =
    recordMappingSlot keccak256 a.storageLayout log
      (atLevel log.depth ∅ s.mappingSlotNamesPerFrame)
  caches : (atLevel log.depth ∅ s'.storageStates, atLevel log.depth ∅ s'.slotValuesPerFrame) =
    match storageWrite log with
    | some (slot, value) =>
        let written := recordStorageWrite a.storageLayout
          (atLevel log.depth ∅ s'.mappingSlotNamesPerFrame) slot value
          (atLevel log.depth ∅ s.storageStates) (atLevel log.depth ∅ s.slotValuesPerFrame)
        (written.1, written.2.1)
    | none => (atLevel log.depth ∅ s.storageStates, atLevel log.depth ∅ s.slotValuesPerFrame)

/-- Names are only made when there is a layout and a captured input, which is
also when `recordMappingSlot` can change them. -/
theorem nameMappingSlots_spec (keccak256 : List UInt8 → U256) (a : Artifacts) {log : StructLog} {names : List MappingSlotNames}
    (hpos : 1 ≤ log.depth) (hlen : names.length = log.depth) :
    (nameMappingSlots keccak256 a log names).length = log.depth ∧
      atLevel log.depth ∅ (nameMappingSlots keccak256 a log names) =
        recordMappingSlot keccak256 a.storageLayout log (atLevel log.depth ∅ names) ∧
      ∀ l, 1 ≤ l → l < log.depth →
        atLevel l ∅ (nameMappingSlots keccak256 a log names) = atLevel l ∅ names := by
  unfold nameMappingSlots
  rw [growTo_of_le hlen.ge]
  split
  · refine ⟨by rw [length_setLevel, hlen], atLevel_setLevel_self hpos hlen.ge, ?_⟩
    intro l hl hlt
    exact atLevel_setLevel_ne hl hlt
  · next hnone =>
      refine ⟨hlen, ?_, fun _ _ _ => rfl⟩
      unfold recordMappingSlot
      split
      · next layout input hlayout hinput =>
          exact absurd (by rw [hlayout, hinput]; exact ⟨rfl, rfl⟩) hnone
      · rfl

theorem stored_handleStorage (keccak256 : List UInt8 → U256) (a : Artifacts) {log : StructLog} {s : MultiRecorderState}
    (hpos : 1 ≤ log.depth) (h : Lockstep log.depth s) :
    Stored a log keccak256 s (handleStorage keccak256 a log s).1 ∧
      Lockstep log.depth (handleStorage keccak256 a log s).1 := by
  obtain ⟨hnamesLen, hnames, hbelow⟩ :=
    nameMappingSlots_spec keccak256 a hpos h.mappingSlotNamesPerFrame
  unfold handleStorage
  dsimp only
  rw [growTo_of_le h.storageStates.ge, growTo_of_le h.slotValuesPerFrame.ge]
  cases hwrite : storageWrite log with
  | none =>
      refine ⟨⟨rfl, ?_, hnames, by rw [hwrite]⟩, h.frameStack, h.storageStates,
        h.slotValuesPerFrame, hnamesLen⟩
      intro l hl hlt
      exact ⟨rfl, rfl, hbelow l hl hlt⟩
  | some write =>
      obtain ⟨slot, value⟩ := write
      dsimp only
      refine ⟨⟨rfl, ?_, hnames, ?_⟩, h.frameStack, ?_, ?_, hnamesLen⟩
      · intro l hl hlt
        exact ⟨atLevel_setLevel_ne hl hlt, atLevel_setLevel_ne hl hlt, hbelow l hl hlt⟩
      · rw [hwrite]
        dsimp only
        rw [atLevel_setLevel_self hpos h.storageStates.ge,
          atLevel_setLevel_self hpos h.slotValuesPerFrame.ge]
      · rw [length_setLevel, h.storageStates]
      · rw [length_setLevel, h.slotValuesPerFrame]

end EvmRecorder.MultiRecorder
