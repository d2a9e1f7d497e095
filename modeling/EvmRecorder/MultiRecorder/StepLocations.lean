import EvmRecorder.MultiRecorder.Events
import EvmRecorder.MultiRecorder.Frames
import EvmRecorder.Recorder.StepLocations

/-!
# Steps of the multi-contract recorder

Whatever frame executes, its artifacts are those of a registered contract, of
the entry point, or empty; so the steps of both recorders map back to the byte
offsets of their source-map entries.
-/

namespace EvmRecorder

namespace MultiRecorder

section Blocks

variable {textOf : Path → String} {keccak256 : List UInt8 → U256} {registry : ContractRegistry}
  {contractAddress : Address} {mainPath : Path} {structLogs : List StructLog}

/-! ## §1  The artifacts in use -/

/-- All registered contracts have the same texts, and offsets on character
boundaries. -/
def RegistryAgrees (textOf : Path → String) (registry : ContractRegistry) : Prop :=
  ∀ address contract, registry.contracts.lookup address = some contract →
    SourcesAgree textOf contract.artifacts

theorem sourcesAgree_empty (textOf : Path → String) : SourcesAgree textOf {} where
  lengths := rfl
  texts := by
    intro i path source hpath
    cases hpath
  boundaries := by
    intro sourceMap hmap
    cases hmap

theorem RegistryAgrees.get (h : RegistryAgrees textOf registry) {address : Address}
    {contract : ContractArtifacts} (hget : registry.get address = some contract) :
    SourcesAgree textOf contract.artifacts := by
  unfold ContractRegistry.get at hget
  split at hget
  · next hlookup =>
      cases hget
      exact h _ _ hlookup
  · obtain ⟨fallback, -, hlookup⟩ := Option.bind_eq_some_iff.mp hget
    exact h _ _ hlookup

/-- The proxy contributes its storage layout only. -/
theorem RegistryAgrees.delegated (h : RegistryAgrees textOf registry)
    {implementation proxy : Address} {a : Artifacts}
    (hget : registry.getDelegatecall implementation proxy = some a) : SourcesAgree textOf a := by
  obtain ⟨contract, hcontract, rfl⟩ := Option.map_eq_some_iff.mp hget
  have hagree : SourcesAgree textOf contract.artifacts := h.get hcontract
  exact ⟨hagree.lengths, hagree.texts, hagree.boundaries⟩

theorem RegistryAgrees.initial (h : RegistryAgrees textOf registry)
    (contractAddress : Address) :
    SourcesAgree textOf (initialArtifacts registry contractAddress) := by
  unfold MultiRecorder.initialArtifacts
  split
  · next contract hget =>
      have hagree : SourcesAgree textOf contract.artifacts := h.get hget
      exact ⟨hagree.lengths, hagree.texts, hagree.boundaries⟩
  · exact sourcesAgree_empty textOf

theorem RegistryAgrees.current (h : RegistryAgrees textOf registry)
    (contractAddress : Address) (frameStack : List FrameContext) :
    SourcesAgree textOf (currentArtifacts registry (initialArtifacts registry contractAddress)
      contractAddress frameStack) := by
  unfold MultiRecorder.currentArtifacts
  dsimp only
  split
  · cases hget : (frameStack.getLast?.bind (·.delegateProxy)).bind (registry.getDelegatecall
        ((frameStack.getLast?.map (·.address)).getD contractAddress)) with
    | none => exact sourcesAgree_empty textOf
    | some a =>
        obtain ⟨proxy, -, hdelegate⟩ := Option.bind_eq_some_iff.mp hget
        exact h.delegated hdelegate
  · cases hget : registry.get ((frameStack.getLast?.map (·.address)).getD contractAddress) with
    | none => exact h.initial contractAddress
    | some contract => exact h.get hget

/-! ## §2  One log -/

theorem pathsWithLineLengths_enterDepth (i : Nat) (log : StructLog) (s : MultiRecorderState) :
    (enterDepth structLogs i log s).pathsWithLineLengths = s.pathsWithLineLengths := by
  unfold enterDepth
  dsimp only
  split
  · rfl
  · split <;> rfl

theorem pathsWithLineLengths_handleJump (a : Artifacts) (i : Nat) (log : StructLog)
    (loc : SourceLocation) (s : MultiRecorderState) :
    (handleJump mainPath structLogs a i log loc s).1.pathsWithLineLengths =
      s.pathsWithLineLengths := by
  unfold handleJump
  split <;> rfl

theorem pathsWithLineLengths_handleStorage (a : Artifacts) (log : StructLog)
    (s : MultiRecorderState) :
    (handleStorage keccak256 a log s).1.pathsWithLineLengths = s.pathsWithLineLengths := by
  unfold handleStorage
  dsimp only
  split <;> rfl

theorem blockMapsBack_handleLocation {a : Artifacts} (hsources : SourcesAgree textOf a) (i : Nat)
    (log : StructLog) (s : MultiRecorderState) :
    BlockMapsBack textOf (a.entryForPc log.pc) s.pathsWithLineLengths
      (handleLocation mainPath structLogs a i log s).1.pathsWithLineLengths
      (handleLocation mainPath structLogs a i log s).2 := by
  unfold handleLocation
  cases hloc : a.resolvePc log.pc with
  | none => exact .of_issues Issues.nil List.not_mem_nil List.not_mem_nil
  | some loc =>
      dsimp only [atLocation]
      rw [pathsWithLineLengths_handleJump]
      exact blockMapsBack_located hsources hloc mainPath _ _ _ _ (issues_handleJump _ _ _ _ _ _ _)

theorem blockMapsBack_stepOf (hregistry : RegistryAgrees textOf registry) (k : Nat)
    (log : StructLog) (s : MultiRecorderState) :
    BlockMapsBack textOf
      ((artifactsFor registry contractAddress structLogs k log s).entryForPc log.pc)
      s.pathsWithLineLengths
      (stepOf keccak256 registry contractAddress structLogs k log s).1.pathsWithLineLengths
      (stepOf keccak256 registry contractAddress structLogs k log s).2 := by
  have hsources : SourcesAgree textOf (artifactsFor registry contractAddress structLogs k log s) :=
    hregistry.current contractAddress _
  have hlocated := @blockMapsBack_handleLocation textOf
    (Recorder.mainPathOf (initialArtifacts registry contractAddress).sourcePaths) structLogs _
    hsources k log (enterDepth structLogs k log s)
  rw [pathsWithLineLengths_enterDepth] at hlocated
  dsimp only [stepOf, step]
  rw [pathsWithLineLengths_handleStorage]
  exact ((BlockMapsBack.issues_append (issues_depthEvents _ _ _) (by decide) (by decide)
    hlocated).append_issues (issues_handleStorage _ _ _ _) (by decide) (by decide)).append_issues
      (issues_specialEvents log) (by decide) (by decide)

/-! ## §3  Recordings -/

/-- The recorder's set of paths agrees with the tables again for its next
recording. -/
theorem tablesRegistered_events (hregistry : RegistryAgrees textOf registry)
    {registered : List Path} {past : List TraceEvent}
    (hpast : TablesRegistered textOf registered past) (hlogs : structLogs ≠ []) :
    TablesRegistered textOf
      (stateBefore keccak256 registered registry contractAddress structLogs
        structLogs.length).pathsWithLineLengths
      (past ++ (recordFromStructlogMultiContract keccak256 registered registry contractAddress
        structLogs).1) := by
  rw [events_eq_eventsBefore keccak256 registered registry contractAddress hlogs]
  exact tablesRegistered_run MultiRecorderState.pathsWithLineLengths
    (fun k log s => (artifactsFor registry contractAddress structLogs k log s).entryForPc log.pc)
    hpast (blockMapsBack_preamble (hregistry.initial contractAddress) registered)
    (blockMapsBack_stepOf hregistry) structLogs.length (Nat.le_refl _)

theorem stepsMapBack_events (hregistry : RegistryAgrees textOf registry) {registered : List Path}
    {past : List TraceEvent} (hpast : TablesRegistered textOf registered past) :
    StepsMapBack textOf past
      (recordFromStructlogMultiContract keccak256 registered registry contractAddress structLogs).1
      (eventsBefore keccak256 registered registry contractAddress structLogs)
      (fun k => structLogs[k]?.bind fun log =>
        (artifactsFor registry contractAddress structLogs k log
          (stateBefore keccak256 registered registry contractAddress structLogs k)).entryForPc
            log.pc) := by
  have hrun : StepsMapBack textOf past
      (eventsBefore keccak256 registered registry contractAddress structLogs structLogs.length)
      (eventsBefore keccak256 registered registry contractAddress structLogs)
      (fun k => structLogs[k]?.bind fun log =>
        (artifactsFor registry contractAddress structLogs k log
          (stateBefore keccak256 registered registry contractAddress structLogs k)).entryForPc
            log.pc) :=
    stepsMapBack_run MultiRecorderState.pathsWithLineLengths
      (fun k log s => (artifactsFor registry contractAddress structLogs k log s).entryForPc log.pc)
      hpast (blockMapsBack_preamble (hregistry.initial contractAddress) registered)
      (blockMapsBack_stepOf hregistry)
  by_cases hempty : structLogs = []
  · subst hempty
    exact hrun.of_nil
  · rw [events_eq_eventsBefore keccak256 registered registry contractAddress hempty]
    exact hrun

end Blocks

end MultiRecorder

/-- **Steps map back.** In every recording of either recorder, one table of its
path's line lengths is registered before each step, and through it the line and
column give the byte offset of the source-map entry; so equal locations in one
file come from equal offsets. -/
theorem steps_map_back (keccak256 : List UInt8 → U256) {textOf : Path → String}
    {registered : List Path} {past : List TraceEvent}
    (hpast : TablesRegistered textOf registered past) (structLogs : List StructLog) :
    (∀ a, SourcesAgree textOf a →
      StepsMapBack textOf past (recordFromStructlog keccak256 registered a structLogs)
        (Recorder.eventsBefore keccak256 registered a structLogs)
        (fun k => structLogs[k]?.bind fun log => a.entryForPc log.pc)) ∧
    (∀ registry contractAddress, MultiRecorder.RegistryAgrees textOf registry →
      StepsMapBack textOf past
        (recordFromStructlogMultiContract keccak256 registered registry contractAddress
          structLogs).1
        (MultiRecorder.eventsBefore keccak256 registered registry contractAddress structLogs)
        (fun k => structLogs[k]?.bind fun log =>
          (MultiRecorder.artifactsFor registry contractAddress structLogs k log
            (MultiRecorder.stateBefore keccak256 registered registry contractAddress structLogs
              k)).entryForPc log.pc)) := by
  constructor
  · intro a hsources
    exact Recorder.stepsMapBack_recordFromStructlog hsources hpast
  · intro registry contractAddress hregistry
    exact MultiRecorder.stepsMapBack_events hregistry hpast

/-- A text with a two-byte character, a carriage return and no final newline. -/
def accentedText : String := "// \u00e9\r\n  x = 1; y = 2;"

/-- Two statements on the second line of one file. -/
def accentedMap : SourceMap := SourceMap.parse "9:5:0:-;16:5"

def accentedArtifacts : Artifacts :=
  Recorder.singleArtifacts accentedMap [0x5b, 0x5b] [⟨["A.sol"]⟩] [accentedText] none none

def accentedContract : ContractArtifacts :=
  { sourceMap := accentedMap
    runtimeBytecode := [0x5b, 0x5b]
    pcToIdx := [0, 1]
    sourcePaths := [⟨["A.sol"]⟩]
    sourceContents := [accentedText] }

def accentedLogs : List StructLog :=
  [{ pc := 0, op := "JUMPDEST", depth := 1 }, { pc := 1, op := "JUMPDEST", depth := 1 }]

theorem onCharBoundary_take (source : String) (k : Nat) :
    OnCharBoundary source (utf8Length (source.toList.take k)) :=
  ⟨_, _, (List.take_append_drop k source.toList).symm, rfl⟩

theorem sourcesAgree_accentedContract :
    SourcesAgree (fun _ => accentedText) accentedContract.artifacts where
  lengths := rfl
  texts := by
    intro i path source _ hsource
    exact List.mem_singleton.mp (List.mem_of_getElem? hsource)
  boundaries := by
    intro sourceMap hmap entry hentry source hsource _
    obtain rfl : accentedMap = sourceMap := Option.some.inj hmap
    obtain rfl : source = accentedText := List.mem_singleton.mp (List.mem_of_getElem? hsource)
    have hoffset : entry.offset = 9 ∨ entry.offset = 16 := by
      have hall : ∀ e ∈ accentedMap.entries, e.offset = 9 ∨ e.offset = 16 := by decide
      exact hall entry hentry
    rcases hoffset with hoffset | hoffset <;> rw [hoffset]
    · exact ⟨_, by decide, onCharBoundary_take accentedText 8⟩
    · exact ⟨_, by decide, onCharBoundary_take accentedText 15⟩

/-- Both recorders on the sample: a step at line 2, column 10 is at offset 16. -/
theorem steps_map_back_accented :
    (TraceEvent.registerStepWithColumn ⟨["A.sol"]⟩ 2 10 ∈
        recordFromStructlog (fun _ => 0) [] accentedArtifacts accentedLogs ∧
      byteOffsetOf (computeLineLengths accentedText) 2 10 = 16) ∧
    StepsMapBack (fun _ => accentedText) []
      (recordFromStructlog (fun _ => 0) [] accentedArtifacts accentedLogs)
      (Recorder.eventsBefore (fun _ => 0) [] accentedArtifacts accentedLogs)
      (fun k => accentedLogs[k]?.bind fun log => accentedArtifacts.entryForPc log.pc) ∧
    StepsMapBack (fun _ => accentedText) []
      (recordFromStructlogMultiContract (fun _ => 0) [] ⟨[(1, accentedContract)], none⟩ 1
        accentedLogs).1
      (MultiRecorder.eventsBefore (fun _ => 0) [] ⟨[(1, accentedContract)], none⟩ 1 accentedLogs)
      (fun k => accentedLogs[k]?.bind fun log =>
        (MultiRecorder.artifactsFor ⟨[(1, accentedContract)], none⟩ 1 accentedLogs k log
          (MultiRecorder.stateBefore (fun _ => 0) [] ⟨[(1, accentedContract)], none⟩ 1
            accentedLogs k)).entryForPc log.pc) := by
  have hsources : SourcesAgree (fun _ => accentedText) accentedArtifacts :=
    ⟨sourcesAgree_accentedContract.lengths, sourcesAgree_accentedContract.texts,
      sourcesAgree_accentedContract.boundaries⟩
  have hregistry : MultiRecorder.RegistryAgrees (fun _ => accentedText)
      ⟨[(1, accentedContract)], none⟩ := by
    intro address contract hlookup
    obtain rfl : contract = accentedContract := by
      by_cases haddress : address = 1
      · subst haddress
        exact (Option.some.inj hlookup).symm
      · dsimp only [List.lookup] at hlookup
        rw [beq_eq_false_iff_ne.mpr haddress] at hlookup
        cases hlookup
    exact sourcesAgree_accentedContract
  refine ⟨by decide, ?_, ?_⟩
  · exact (steps_map_back _ (tablesRegistered_nil _) accentedLogs).1 accentedArtifacts hsources
  · exact (steps_map_back _ (tablesRegistered_nil _) accentedLogs).2 _ 1 hregistry

end EvmRecorder
