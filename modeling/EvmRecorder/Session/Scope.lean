import EvmRecorder.Model.Session
import EvmRecorder.MultiRecorder.StepLocations
import EvmRecorder.Session.Resources

/-!
# The calls of a session are well scoped

A recorder can be used for any number of recordings, of one contract or of many,
with reverts in between. Its line tables outlive a recording, its caches do not.
Each step of either loop keeps the recorder backed by what has been declared, and
so does each request of a session.
-/

namespace EvmRecorder

open Scoping Levels Stack

section Located

variable {known : Set Resource}

theorem inScope_returns (h : .type uint256TypeId ∈ known) (n : Nat) :
    InScope known (List.replicate n (.registerReturn returnValue)) := by
  refine .of_uses fun e he r hr => ?_
  rw [List.eq_of_mem_replicate he] at hr
  obtain rfl := List.mem_singleton.mp hr
  exact h

theorem inScope_ensuredCall (fnId : FunctionId) :
    InScope known [.ensureFunctionId fnId, .registerCall fnId] := by
  refine .cons (fun r hr => by cases hr) (.cons (fun r hr => ?_) .nil)
  exact .inr hr

/-- The step, the local variables and the jump at a resolved location. -/
theorem keepsScope_located {a : Artifacts} {pc : Nat} {loc : SourceLocation}
    (hloc : a.resolvePc pc = some loc) {registered : List Path} {caches : List NamedValues}
    (h : Backed known registered caches) (mainPath : Path) (prevLine : Option SourceLocation)
    {storageState : NamedValues} (hcache : CacheBacked known storageState)
    (values : List (VarDecl × U256)) {jump : List TraceEvent}
    (hjump : ∀ known', .type uint256TypeId ∈ known' → InScope known' jump) :
    KeepsScope known
      ((emitStep a mainPath registered prevLine loc storageState).2 ++ localEvents values ++ jump)
      (emitStep a mainPath registered prevLine loc storageState).1 caches := by
  obtain ⟨_, entry, source, -, -, -, hsource, -, hfile⟩ := a.resolvePc_spec hloc
  replace hsource : a.sourceContents[asUsize loc.fileIndex]? = some source := by
    rw [hfile]
    exact hsource
  have hstep := keepsScope_emitStep hsource h mainPath prevLine hcache
  have hlocals := hstep.append (hstep.backed.keepsScope (inScope_localEvents values))
  exact hlocals.append (hlocals.backed.keepsScope (hjump _ hlocals.backed.uint256))

/-- The preamble declares the one type every return needs. -/
theorem keepsScope_preamble {registered : List Path}
    (h : ∀ path ∈ registered, .lineTable path ∈ known) (a : Artifacts) :
    KeepsScope known (Recorder.preamble registered a) (Recorder.registerMain registered a).1
      [∅] where
  inScope := InScope.of_issues (Recorder.issues_preamble registered a) (by simp)
  backed := by
    have htables : ∀ path ∈ (Recorder.registerMain registered a).1,
        .lineTable path ∈ known ∪ declared TraceEvent.declares (Recorder.preamble registered a) := by
      unfold Recorder.preamble
      rw [declared_append]
      intro path hpath
      unfold Recorder.registerMain at hpath ⊢
      split at hpath
      · unfold ensurePathWithLineLengths at hpath ⊢
        split at hpath
        · exact .inl (h path hpath)
        · next hnew =>
            rw [if_neg hnew]
            rcases List.mem_cons.mp hpath with rfl | hpath
            · exact .inr (.inl ⟨_, List.mem_singleton.mpr rfl, List.mem_singleton.mpr rfl⟩)
            · exact .inl (h path hpath)
      · exact .inl (h path hpath)
    have huint : Resource.type uint256TypeId ∈
        declared TraceEvent.declares (Recorder.preamble registered a) :=
      ⟨.ensureTypeId uint256TypeId, by simp [Recorder.preamble], List.mem_singleton.mpr rfl⟩
    refine ⟨.inr huint, htables, fun cache hcache => ?_⟩
    obtain rfl := List.mem_singleton.mp hcache
    exact cacheBacked_empty _

end Located

/-! ## §1  The single-contract recorder -/

namespace Recorder

variable (keccak256 : List UInt8 → U256) (a : Artifacts) (mainPath : Path)
  (structLogs : List StructLog) {known : Set Resource}

theorem inScope_depthEvents (h : .type uint256TypeId ∈ known) (i : Nat) (log : StructLog)
    (s : RecorderState) : InScope known (depthEvents a mainPath structLogs i log s) := by
  unfold depthEvents
  split
  · exact inScope_ensuredCall _
  · split
    · exact (InScope.of_issues (issues_revertCaught _ _ _) (by simp)).append_of (inScope_returns h _)
    · exact .nil

theorem inScope_handleJump (h : .type uint256TypeId ∈ known) (i : Nat) (log : StructLog)
    (loc : SourceLocation) (s : RecorderState) :
    InScope known (handleJump a mainPath structLogs i log loc s).2 := by
  unfold handleJump
  split
  · unfold jumpInto
    split
    · exact inScope_enterInternalCall _ _ _ _ _ _ _
    · dsimp only
      split
      · exact .cons (fun r hr => by cases hr) .nil
      · exact .nil
  · unfold jumpOutOf
    dsimp only
    split
    · exact .nil
    · exact inScope_returns h 1
  · exact .nil

theorem storageState_handleLocation (i : Nat) (log : StructLog) (s : RecorderState) :
    (handleLocation a mainPath structLogs i log s).1.storageState = s.storageState := by
  unfold handleLocation
  split
  · simp only [atLocation, handleJump, jumpInto, jumpOutOf]
    split
    · split <;> rfl
    · rfl
    · rfl
  · rfl

theorem keepsScope_handleLocation {s : RecorderState}
    (h : Backed known s.pathsWithLineLengths [s.storageState]) (i : Nat) (log : StructLog) :
    KeepsScope known (handleLocation a mainPath structLogs i log s).2
      (handleLocation a mainPath structLogs i log s).1.pathsWithLineLengths
      [(handleLocation a mainPath structLogs i log s).1.storageState] := by
  rw [storageState_handleLocation]
  unfold handleLocation
  cases hloc : a.resolvePc log.pc with
  | none => exact h.keepsScope .nil
  | some loc =>
      dsimp only [atLocation]
      rw [pathsWithLineLengths_handleJump]
      exact keepsScope_located hloc h mainPath s.prevLine (h.values _ (List.mem_singleton.mpr rfl)) _
        fun _ huint => inScope_handleJump a mainPath structLogs huint _ _ _ _

theorem keepsScope_handleStorage {s : RecorderState}
    (h : Backed known s.pathsWithLineLengths [s.storageState]) (log : StructLog) :
    KeepsScope known (handleStorage keccak256 a log s).2
      (handleStorage keccak256 a log s).1.pathsWithLineLengths
      [(handleStorage keccak256 a log s).1.storageState] := by
  unfold handleStorage
  dsimp only
  split
  · next slot value _ =>
      obtain ⟨hscope, hcache⟩ := inScope_recordStorageWrite a.storageLayout
        (recordMappingSlot keccak256 a.storageLayout log s.mappingSlotNames) slot value s.slotValues
        (h.values _ (List.mem_singleton.mpr rfl))
      refine ⟨hscope, { h.mono Set.subset_union_left with values := fun cache hmem => ?_ }⟩
      obtain rfl := List.mem_singleton.mp hmem
      exact hcache
  · exact h.keepsScope .nil

theorem keepsScope_step {s : RecorderState}
    (h : Backed known s.pathsWithLineLengths [s.storageState]) (i : Nat) (log : StructLog) :
    KeepsScope known (step keccak256 a mainPath structLogs i log s).2
      (step keccak256 a mainPath structLogs i log s).1.pathsWithLineLengths
      [(step keccak256 a mainPath structLogs i log s).1.storageState] := by
  have hdepth : KeepsScope known (depthEvents a mainPath structLogs i log s)
      (enterDepth log s).pathsWithLineLengths [(enterDepth log s).storageState] :=
    h.keepsScope (inScope_depthEvents a mainPath structLogs h.uint256 i log s)
  have hlocated := hdepth.append
    (keepsScope_handleLocation a mainPath structLogs hdepth.backed i log)
  have hstored := hlocated.append (keepsScope_handleStorage keccak256 a hlocated.backed log)
  exact hstored.append (hstored.backed.keepsScope
    (InScope.of_issues (issues_specialEvents log) (by simp)))

/-- A recording needs the tables of the paths registered before it, and leaves those
of all paths registered by then. -/
theorem keepsScope_recordFromStructlog {registered : List Path}
    (h : ∀ path ∈ registered, .lineTable path ∈ known) (hlogs : structLogs ≠ []) :
    KeepsScope known (recordFromStructlog keccak256 registered a structLogs)
      (stateBefore keccak256 registered a structLogs structLogs.length).pathsWithLineLengths
      [(stateBefore keccak256 registered a structLogs structLogs.length).storageState] := by
  have hpreamble : KeepsScope known (preamble registered a)
      (initialState registered a).pathsWithLineLengths [(initialState registered a).storageState] :=
    keepsScope_preamble h a
  have hrun := admitted_run
    (fun known s => Backed known s.pathsWithLineLengths [s.storageState]) (fun i log s known hs =>
    let hstep := keepsScope_step keccak256 a (mainPathOf a.sourcePaths) structLogs hs i log
    ⟨hstep.inScope, hstep.backed⟩) structLogs 0 (initialState registered a) _ hpreamble.backed
  rw [recordFromStructlog, if_neg (by simpa using hlogs), stateBefore, Machine.stateBefore,
    List.take_length]
  exact hpreamble.append ⟨hrun.1, hrun.2⟩

end Recorder

/-! ## §2  The multi-contract recorder -/

namespace MultiRecorder

variable (keccak256 : List UInt8 → U256) (a : Artifacts) (mainPath : Path)
  (structLogs : List StructLog) {known : Set Resource}

theorem inScope_depthEvents (h : .type uint256TypeId ∈ known) (log : StructLog)
    (s : MultiRecorderState) : InScope known (depthEvents mainPath log s) := by
  unfold depthEvents
  split
  · exact inScope_ensuredCall _
  · exact inScope_returns h _

theorem inScope_handleJump (h : .type uint256TypeId ∈ known) (i : Nat) (log : StructLog)
    (loc : SourceLocation) (s : MultiRecorderState) :
    InScope known (handleJump mainPath structLogs a i log loc s).2 := by
  unfold handleJump
  split
  · exact inScope_enterInternalCall _ _ _ _ _ _ _
  · exact inScope_returns h 1
  · exact .nil

theorem mem_growTo {α : Type} {n : Nat} {x y : α} {xs : List α} (h : y ∈ growTo n x xs) :
    y = x ∨ y ∈ xs := by
  rcases List.mem_append.mp h with h | h
  · exact .inr h
  · exact .inl (List.eq_of_mem_replicate h)

theorem mem_atLevel {α : Type} (d : Nat) (x : α) (xs : List α) :
    atLevel d x xs = x ∨ atLevel d x xs ∈ xs := by
  unfold atLevel
  cases h : xs[d - 1]? with
  | none => exact .inl rfl
  | some y => exact .inr (List.mem_of_getElem? h)

theorem backed_enterDepth {s : MultiRecorderState}
    (h : Backed known s.pathsWithLineLengths s.storageStates) (i : Nat) (log : StructLog) :
    Backed known (enterDepth structLogs i log s).pathsWithLineLengths
      (enterDepth structLogs i log s).storageStates := by
  rw [pathsWithLineLengths_enterDepth]
  unfold enterDepth
  dsimp only
  split
  · exact h.of_caches fun cache hcache => mem_growTo hcache
  · split
    · exact h.of_caches fun cache hcache => .inr (List.mem_of_mem_take hcache)
    · exact h

theorem cacheBacked_atLevel {registered : List Path} {caches : List NamedValues}
    (h : Backed known registered caches) (d : Nat) : CacheBacked known (atLevel d ∅ caches) := by
  rcases mem_atLevel d ∅ caches with hempty | hmem
  · rw [hempty]
    exact cacheBacked_empty known
  · exact h.values _ hmem

theorem keepsScope_handleLocation {s : MultiRecorderState}
    (h : Backed known s.pathsWithLineLengths s.storageStates) (i : Nat) (log : StructLog) :
    KeepsScope known (handleLocation mainPath structLogs a i log s).2
      (handleLocation mainPath structLogs a i log s).1.pathsWithLineLengths
      (handleLocation mainPath structLogs a i log s).1.storageStates := by
  rw [(sameStorage_handleLocation mainPath structLogs a i log s).storageStates]
  unfold handleLocation
  cases hloc : a.resolvePc log.pc with
  | none => exact h.keepsScope .nil
  | some loc =>
      dsimp only [atLocation]
      rw [pathsWithLineLengths_handleJump]
      exact keepsScope_located hloc h mainPath s.prevLine (cacheBacked_atLevel h log.depth) _
        fun _ huint => inScope_handleJump a mainPath structLogs huint _ _ _ _

theorem keepsScope_handleStorage {s : MultiRecorderState}
    (h : Backed known s.pathsWithLineLengths s.storageStates) (log : StructLog) :
    KeepsScope known (handleStorage keccak256 a log s).2
      (handleStorage keccak256 a log s).1.pathsWithLineLengths
      (handleStorage keccak256 a log s).1.storageStates := by
  unfold handleStorage
  dsimp only
  split
  · next slot value _ =>
      have hgrown : Backed known s.pathsWithLineLengths (growTo log.depth ∅ s.storageStates) :=
        h.of_caches fun cache hcache => mem_growTo hcache
      obtain ⟨hscope, hcache⟩ := inScope_recordStorageWrite a.storageLayout
        (Levels.atLevel log.depth ∅ (nameMappingSlots keccak256 a log s.mappingSlotNamesPerFrame))
        slot value (Levels.atLevel log.depth ∅ (growTo log.depth ∅ s.slotValuesPerFrame))
        (cacheBacked_atLevel hgrown log.depth)
      refine ⟨hscope, { h.mono Set.subset_union_left with values := fun cache hmem => ?_ }⟩
      rcases List.mem_or_eq_of_mem_set hmem with hmem | rfl
      · exact (hgrown.values cache hmem).mono Set.subset_union_left
      · exact hcache
  · exact h.keepsScope .nil

theorem keepsScope_step (registry : ContractRegistry) (initial : Artifacts)
    (contractAddress : Address) {s : MultiRecorderState}
    (h : Backed known s.pathsWithLineLengths s.storageStates) (i : Nat) (log : StructLog) :
    KeepsScope known
      (step keccak256 registry initial contractAddress mainPath structLogs i log s).2
      (step keccak256 registry initial contractAddress mainPath structLogs i log
        s).1.pathsWithLineLengths
      (step keccak256 registry initial contractAddress mainPath structLogs i log s).1.storageStates := by
  have hdepth : KeepsScope known (depthEvents mainPath log s)
      (enterDepth structLogs i log s).pathsWithLineLengths
      (enterDepth structLogs i log s).storageStates :=
    (backed_enterDepth structLogs h i log).keepsScope (inScope_depthEvents mainPath h.uint256 log s)
  have hlocated := hdepth.append (keepsScope_handleLocation
    (currentArtifacts registry initial contractAddress (enterDepth structLogs i log s).frameStack)
    mainPath structLogs hdepth.backed i log)
  have hstored := hlocated.append (keepsScope_handleStorage keccak256
    (currentArtifacts registry initial contractAddress (enterDepth structLogs i log s).frameStack)
    hlocated.backed log)
  exact hstored.append (hstored.backed.keepsScope
    (InScope.of_issues (issues_specialEvents log) (by simp)))

theorem keepsScope_events (registry : ContractRegistry) (contractAddress : Address)
    {registered : List Path} (h : ∀ path ∈ registered, .lineTable path ∈ known)
    (hlogs : structLogs ≠ []) :
    KeepsScope known
      (recordFromStructlogMultiContract keccak256 registered registry contractAddress structLogs).1
      (stateBefore keccak256 registered registry contractAddress structLogs
        structLogs.length).pathsWithLineLengths
      (stateBefore keccak256 registered registry contractAddress structLogs
        structLogs.length).storageStates := by
  have hpreamble : KeepsScope known
      (Recorder.preamble registered (initialArtifacts registry contractAddress))
      (initialState registered registry contractAddress).pathsWithLineLengths
      (initialState registered registry contractAddress).storageStates :=
    keepsScope_preamble h _
  have hrun := admitted_run
    (fun known s => Backed known s.pathsWithLineLengths s.storageStates) (fun i log s known hs =>
    let hstep := keepsScope_step keccak256
      (Recorder.mainPathOf (initialArtifacts registry contractAddress).sourcePaths) structLogs
      registry (initialArtifacts registry contractAddress) contractAddress hs i log
    ⟨hstep.inScope, hstep.backed⟩) structLogs 0
    (initialState registered registry contractAddress) _ hpreamble.backed
  rw [recordFromStructlogMultiContract, if_neg (by simpa using hlogs), stateBefore,
    Machine.stateBefore, List.take_length]
  exact hpreamble.append ⟨hrun.1, hrun.2⟩

end MultiRecorder

/-! ## §3  Sessions -/

namespace WriterCall

def declares : WriterCall → List Resource
  | .registerType typeId => [.type typeId]
  | .event e => e.declares
  | _ => []

def uses : WriterCall → List Resource
  | .event e => e.uses
  | _ => []

theorem uses_eq_nil (c : WriterCall) (h : ∀ e, c ≠ .event e) : c.uses = [] := by
  cases c <;> first | rfl | exact absurd rfl (h _)

end WriterCall

namespace Session

variable (keccak256 : List UInt8 → U256)

/-- Between two requests only the line tables of earlier recordings count. -/
def TablesKnown (known : Set Resource) (self : Session) : Prop :=
  ∀ path ∈ self.pathsWithLineLengths, Resource.lineTable path ∈ known

theorem perform_inScope (self : Session) (request : Request) (known : Set Resource)
    (h : TablesKnown known self) :
    InScope known (perform keccak256 self request).2 ∧
      TablesKnown (known ∪ declared TraceEvent.declares (perform keccak256 self request).2)
        (perform keccak256 self request).1 := by
  cases request with
  | recordFromStructlog structLogs sourceMap bytecode sourcePaths sourceContents layout ast =>
      dsimp only [perform]
      by_cases hlogs : structLogs = []
      · subst hlogs
        exact ⟨.nil, fun path hpath => .inl (h path hpath)⟩
      · rw [if_neg (by simpa using hlogs)]
        have hrecording := Recorder.keepsScope_recordFromStructlog keccak256
          (Recorder.singleArtifacts sourceMap bytecode sourcePaths sourceContents layout ast)
          structLogs h hlogs
        exact ⟨hrecording.inScope, hrecording.backed.tables⟩
  | recordFromStructlogMultiContract structLogs registry contractAddress =>
      dsimp only [perform]
      by_cases hlogs : structLogs = []
      · subst hlogs
        exact ⟨.nil, fun path hpath => .inl (h path hpath)⟩
      · rw [if_neg (by simpa using hlogs)]
        have hrecording := MultiRecorder.keepsScope_events keccak256 structLogs registry
          contractAddress h hlogs
        exact ⟨hrecording.inScope, hrecording.backed.tables⟩
  | registerRevert metadata reason =>
      exact ⟨.cons (fun r hr => by cases hr) .nil, fun path hpath => .inl (h path hpath)⟩

/-- The calls that open and close a session are no events. -/
theorem ne_event_initializeTrace (accepts : WriterCall → Bool) (self : Session) :
    ∀ c ∈ (self.initializeTrace accepts).2.1, ∀ e, c ≠ .event e := by
  intro c hc e
  have hmem := (WriterCall.attempt_prefix accepts _).subset hc
  simp only [List.cons_append, List.nil_append, List.mem_cons, registerEvmTypes] at hmem
  rcases hmem with rfl | rfl | rfl | rfl | hmem
  · exact WriterCall.noConfusion
  · exact WriterCall.noConfusion
  · exact WriterCall.noConfusion
  · exact WriterCall.noConfusion
  · obtain ⟨typeId, -, rfl⟩ := List.mem_map.mp hmem
    exact WriterCall.noConfusion

theorem ne_event_finalize (accepts : WriterCall → Bool) :
    ∀ c ∈ (finalize accepts).1, ∀ e, c ≠ .event e := by
  intro c hc e
  have hmem := (WriterCall.attempt_prefix accepts _).subset hc
  simp only [List.mem_cons, List.not_mem_nil, or_false] at hmem
  rcases hmem with rfl | rfl | rfl | rfl <;> exact WriterCall.noConfusion

theorem pathsWithLineLengths_initializeTrace (accepts : WriterCall → Bool) (self : Session) :
    (self.initializeTrace accepts).1.pathsWithLineLengths = self.pathsWithLineLengths := by
  unfold initializeTrace
  dsimp only
  split <;> rfl

/-- Every resource a call refers to was declared by an earlier call. -/
def WellScoped (cs : List WriterCall) : Prop :=
  ∀ pre c post, cs = pre ++ c :: post → ∀ r ∈ c.uses, ∃ c' ∈ pre, r ∈ c'.declares

/-- **Sessions are well scoped.** Whatever is recorded by one recorder, in whatever
order, every type and function id in a call to the writer was declared by an
earlier call, and every step is preceded by the line table of its path. -/
theorem calls_wellScoped (accepts : WriterCall → Bool) (outputDir : Path)
    (requests : List Request) : WellScoped (calls keccak256 accepts outputDir requests) := by
  have hother : ∀ known cs, (∀ c ∈ cs, ∀ e, c ≠ WriterCall.event e) →
      Scoped WriterCall.declares WriterCall.uses known cs := by
    refine fun known cs hcs => .of_uses fun c hc r hr => ?_
    rw [c.uses_eq_nil (hcs c hc)] at hr
    cases hr
  have hopened := fun known => hother known _ (ne_event_initializeTrace accepts (new outputDir))
  have hscoped : Scoped WriterCall.declares WriterCall.uses ∅
      (calls keccak256 accepts outputDir requests) := by
    unfold calls
    dsimp only
    split
    · have hknown : TablesKnown
          (∅ ∪ declared WriterCall.declares ((new outputDir).initializeTrace accepts).2.1)
          ((new outputDir).initializeTrace accepts).1 := by
        intro path hpath
        rw [pathsWithLineLengths_initializeTrace] at hpath
        cases hpath
      have hperformed := (admitted_run TablesKnown
        (fun _ request self known h => perform_inScope keccak256 self request known h)
        requests 0 ((new outputDir).initializeTrace accepts).1 _ hknown).1
      exact ((hopened _).append (Scoped.map hperformed .event (fun _ => rfl) fun _ => rfl)).append
        (hother _ _ (ne_event_finalize accepts))
    · exact hopened _
  intro pre c post hcalls r hr
  exact hscoped.exists_declares hcalls hr

end Session

end EvmRecorder
