import EvmRecorder.Session.Scope

/-!
# One line table a path

The writer keeps the first line table of a path and drops later ones, so a
recorder must not register a path twice. It keeps a set of the paths it has
registered; that set is the paths with a table, whatever is recorded.
-/

namespace EvmRecorder

open Scoping

/-- The paths whose line table an event registers. -/
def TraceEvent.tables : TraceEvent → List Path
  | .registerPathWithLineLengths path _ => [path]
  | _ => []

/-- The recorder's set is that of the paths with a table. -/
def Counts (known : Set Path) (registered : List Path) : Prop :=
  ∀ path, path ∈ registered ↔ path ∈ known

/-- A block that registers no path twice, and the recorder's set after it. -/
structure KeepsOnce (known : Set Path) (events : List TraceEvent) (registered : List Path) :
    Prop where
  once : DeclaredOnce TraceEvent.tables known events
  counts : Counts (known ∪ declared TraceEvent.tables events) registered

namespace KeepsOnce

variable {known : Set Path} {events events' : List TraceEvent} {registered registered' : List Path}

theorem append (h : KeepsOnce known events registered)
    (h' : KeepsOnce (known ∪ declared TraceEvent.tables events) events' registered') :
    KeepsOnce known (events ++ events') registered' where
  once := h.once.append h'.once
  counts := by
    rw [declared_append, ← Set.union_assoc]
    exact h'.counts

/-- A block without tables. -/
theorem of_issues {kinds : List EventKind} (h : Counts known registered)
    (hissues : Issues kinds events) (hkinds : .lineTable ∉ kinds) :
    KeepsOnce known events registered := by
  have hnone : ∀ e ∈ events, e.tables = [] := by
    intro e he
    have hkind : e.kind ≠ .lineTable := fun heq => hkinds (heq ▸ hissues e he)
    cases e <;> first | rfl | exact absurd rfl hkind
  refine ⟨.of_declares_nil hnone, ?_⟩
  rw [declared_eq_empty hnone, Set.union_empty]
  exact h

theorem append_issues {kinds : List EventKind} (h : KeepsOnce known events registered)
    (hissues : Issues kinds events') (hkinds : .lineTable ∉ kinds) :
    KeepsOnce known (events ++ events') registered :=
  h.append (of_issues h.counts hissues hkinds)

end KeepsOnce

section Blocks

variable {known : Set Path} {registered : List Path}

/-- A path is registered only when it is not in the set. -/
theorem keepsOnce_ensurePath (h : Counts known registered) (path : Path)
    (source : String) :
    KeepsOnce known (ensurePathWithLineLengths registered path source).2
      (ensurePathWithLineLengths registered path source).1 := by
  unfold ensurePathWithLineLengths
  split
  · exact .of_issues h Issues.nil List.not_mem_nil
  · next hnew =>
      constructor
      · refine admitted_cons.mpr ⟨fun path' hpath' hknown => ?_, admitted_nil⟩
        obtain rfl := List.mem_singleton.mp hpath'
        exact hnew ((h path').mpr hknown)
      · intro path'
        rw [List.mem_cons, h path', or_comm]
        apply or_congr_right
        constructor
        · rintro rfl
          exact ⟨_, List.mem_singleton.mpr rfl, List.mem_singleton.mpr rfl⟩
        · rintro ⟨e, he, hpath'⟩
          obtain rfl := List.mem_singleton.mp he
          exact List.mem_singleton.mp hpath'

theorem keepsOnce_emitStep (h : Counts known registered) (a : Artifacts)
    (mainPath : Path) (prevLine : Option SourceLocation) (loc : SourceLocation)
    (storageState : NamedValues) :
    KeepsOnce known (emitStep a mainPath registered prevLine loc storageState).2
      (emitStep a mainPath registered prevLine loc storageState).1 := by
  have hstep : ∀ (path : Path) (line column : Nat) (carried : List (String × ValueRecord)),
      Issues [.step, .variable] ([.registerStepWithColumn path line column] ++
        carried.map fun e => .registerVariableWithFullValue e.1 e.2) := by
    intro path line column carried e he
    rcases List.mem_cons.mp he with rfl | he
    · simp [TraceEvent.kind]
    · obtain ⟨x, -, rfl⟩ := List.mem_map.mp he
      simp [TraceEvent.kind]
  unfold emitStep
  split
  · exact .of_issues h Issues.nil List.not_mem_nil
  · dsimp only
    rw [List.append_assoc]
    split
    · exact (keepsOnce_ensurePath h _ _).append_issues (hstep _ _ _ _) (by decide)
    · exact .of_issues h (hstep _ _ _ _) (by decide)

theorem keepsOnce_preamble (h : Counts known registered) (a : Artifacts) :
    KeepsOnce known (Recorder.preamble registered a) (Recorder.registerMain registered a).1 := by
  have hsetup : Issues [.setup]
      [.start (Recorder.mainPathOf a.sourcePaths) 1, .ensureTypeId uint256TypeId] :=
    .cons (by simp [TraceEvent.kind]) (.cons (by simp [TraceEvent.kind]) .nil)
  unfold Recorder.preamble Recorder.registerMain
  split
  · exact (keepsOnce_ensurePath h _ _).append_issues hsetup (by decide)
  · exact .of_issues h hsetup (by decide)

theorem keepsOnce_recorderStep (keccak256 : List UInt8 → U256) (a : Artifacts) (mainPath : Path)
    (structLogs : List StructLog) (i : Nat) (log : StructLog) {s : RecorderState}
    (h : Counts known s.pathsWithLineLengths) :
    KeepsOnce known (Recorder.step keccak256 a mainPath structLogs i log s).2
      (Recorder.step keccak256 a mainPath structLogs i log s).1.pathsWithLineLengths := by
  have hdepth : KeepsOnce known (Recorder.depthEvents a mainPath structLogs i log s)
      (Recorder.enterDepth log s).pathsWithLineLengths :=
    .of_issues h (Recorder.issues_depthEvents a mainPath structLogs i log s) (by decide)
  have hlocated : KeepsOnce (known ∪ declared TraceEvent.tables
        (Recorder.depthEvents a mainPath structLogs i log s))
      (Recorder.handleLocation a mainPath structLogs i log (Recorder.enterDepth log s)).2
      (Recorder.handleLocation a mainPath structLogs i log
        (Recorder.enterDepth log s)).1.pathsWithLineLengths := by
    unfold Recorder.handleLocation
    cases a.resolvePc log.pc with
    | none => exact .of_issues hdepth.counts Issues.nil List.not_mem_nil
    | some loc =>
        dsimp only [Recorder.atLocation]
        rw [Recorder.pathsWithLineLengths_handleJump]
        exact ((keepsOnce_emitStep hdepth.counts a mainPath _ loc _).append_issues
          (issues_localEvents _) (by decide)).append_issues
            (Recorder.issues_handleJump a mainPath structLogs i log loc _) (by decide)
  dsimp only [Recorder.step]
  rw [Recorder.pathsWithLineLengths_handleStorage]
  exact ((hdepth.append hlocated).append_issues (Recorder.issues_handleStorage keccak256 a log _)
    (by decide)).append_issues (issues_specialEvents log) (by decide)

theorem keepsOnce_multiRecorderStep (keccak256 : List UInt8 → U256) (registry : ContractRegistry)
    (initial : Artifacts) (contractAddress : Address) (mainPath : Path)
    (structLogs : List StructLog) (i : Nat) (log : StructLog) {s : MultiRecorderState}
    (h : Counts known s.pathsWithLineLengths) :
    KeepsOnce known
      (MultiRecorder.step keccak256 registry initial contractAddress mainPath structLogs i log s).2
      (MultiRecorder.step keccak256 registry initial contractAddress mainPath structLogs i log
        s).1.pathsWithLineLengths := by
  have hdepth : KeepsOnce known (MultiRecorder.depthEvents mainPath log s)
      (MultiRecorder.enterDepth structLogs i log s).pathsWithLineLengths := by
    rw [MultiRecorder.pathsWithLineLengths_enterDepth]
    exact .of_issues h (MultiRecorder.issues_depthEvents mainPath log s) (by decide)
  have hlocated : ∀ a : Artifacts, KeepsOnce
      (known ∪ declared TraceEvent.tables (MultiRecorder.depthEvents mainPath log s))
      (MultiRecorder.handleLocation mainPath structLogs a i log
        (MultiRecorder.enterDepth structLogs i log s)).2
      (MultiRecorder.handleLocation mainPath structLogs a i log
        (MultiRecorder.enterDepth structLogs i log s)).1.pathsWithLineLengths := by
    intro a
    unfold MultiRecorder.handleLocation
    cases a.resolvePc log.pc with
    | none => exact .of_issues hdepth.counts Issues.nil List.not_mem_nil
    | some loc =>
        dsimp only [MultiRecorder.atLocation]
        rw [MultiRecorder.pathsWithLineLengths_handleJump]
        exact ((keepsOnce_emitStep hdepth.counts a mainPath _ loc _).append_issues
          (issues_localEvents _) (by decide)).append_issues
            (MultiRecorder.issues_handleJump mainPath structLogs a i log loc _) (by decide)
  dsimp only [MultiRecorder.step]
  rw [MultiRecorder.pathsWithLineLengths_handleStorage]
  exact ((hdepth.append (hlocated _)).append_issues
    (MultiRecorder.issues_handleStorage keccak256 _ log _) (by decide)).append_issues
      (issues_specialEvents log) (by decide)

end Blocks

/-! ## Sessions -/

def WriterCall.tables : WriterCall → List Path
  | .event e => e.tables
  | _ => []

theorem WriterCall.tables_eq_nil (c : WriterCall) (h : ∀ e, c ≠ .event e) : c.tables = [] := by
  cases c <;> first | rfl | exact absurd rfl (h _)

/-- A line table is registered by nothing else. -/
theorem WriterCall.exists_of_mem_tables {c : WriterCall} {path : Path} (h : path ∈ c.tables) :
    ∃ lineLengths, c = .event (.registerPathWithLineLengths path lineLengths) := by
  cases c with
  | event e =>
      cases e with
      | registerPathWithLineLengths registered lineLengths =>
          obtain rfl := List.mem_singleton.mp h
          exact ⟨lineLengths, rfl⟩
      | _ => cases h
  | _ => cases h

namespace Session

variable (keccak256 : List UInt8 → U256)

theorem keepsOnce_perform (self : Session) (request : Request) (known : Set Path)
    (h : Counts known self.pathsWithLineLengths) :
    KeepsOnce known (perform keccak256 self request).2
      (perform keccak256 self request).1.pathsWithLineLengths := by
  cases request with
  | recordFromStructlog structLogs sourceMap bytecode sourcePaths sourceContents layout ast =>
      dsimp only [perform]
      by_cases hlogs : structLogs = []
      · subst hlogs
        exact .of_issues h Issues.nil List.not_mem_nil
      · generalize Recorder.singleArtifacts sourceMap bytecode sourcePaths sourceContents layout
          ast = a
        have hpreamble := keepsOnce_preamble h a
        have hrun := admitted_run
          (fun known s => Counts known (RecorderState.pathsWithLineLengths s))
          (fun i log s known hs =>
            let hstep := keepsOnce_recorderStep keccak256 a
              (Recorder.mainPathOf a.sourcePaths) structLogs i log hs
            ⟨hstep.once, hstep.counts⟩)
          structLogs 0 (Recorder.initialState self.pathsWithLineLengths a) _ hpreamble.counts
        rw [if_neg (by simpa using hlogs), EvmRecorder.recordFromStructlog,
          if_neg (by simpa using hlogs), Recorder.stateBefore, Machine.stateBefore, List.take_length]
        exact hpreamble.append ⟨hrun.1, hrun.2⟩
  | recordFromStructlogMultiContract structLogs registry contractAddress =>
      dsimp only [perform]
      by_cases hlogs : structLogs = []
      · subst hlogs
        exact .of_issues h Issues.nil List.not_mem_nil
      · have hpreamble := keepsOnce_preamble h
          (MultiRecorder.initialArtifacts registry contractAddress)
        have hrun := admitted_run
          (fun known s => Counts known (MultiRecorderState.pathsWithLineLengths s))
          (fun i log s known hs =>
            let hstep := keepsOnce_multiRecorderStep keccak256 registry
              (MultiRecorder.initialArtifacts registry contractAddress) contractAddress
              (Recorder.mainPathOf
                (MultiRecorder.initialArtifacts registry contractAddress).sourcePaths)
              structLogs i log hs
            ⟨hstep.once, hstep.counts⟩)
          structLogs 0
          (MultiRecorder.initialState self.pathsWithLineLengths registry contractAddress) _
          hpreamble.counts
        rw [if_neg (by simpa using hlogs), EvmRecorder.recordFromStructlogMultiContract,
          if_neg (by simpa using hlogs), MultiRecorder.stateBefore, Machine.stateBefore,
          List.take_length]
        exact hpreamble.append ⟨hrun.1, hrun.2⟩
  | registerRevert metadata reason =>
      exact .of_issues h (.cons (by simp [TraceEvent.kind]) .nil) (by decide : _ ∉ [.special])

/-- No path gets a second line table. -/
def TablesOnce (cs : List WriterCall) : Prop :=
  ∀ pre path lineLengths post,
    cs = pre ++ .event (.registerPathWithLineLengths path lineLengths) :: post →
      ∀ lineLengths', .event (.registerPathWithLineLengths path lineLengths') ∉ pre

/-- The recorder behind the requests that `calls` answers: those of an opened session. -/
def served (accepts : WriterCall → Bool) (outputDir : Path) (requests : List Request) : Session :=
  let opened := (new outputDir).initializeTrace accepts
  if opened.2.2 then (performAll keccak256 opened.1 requests).1 else opened.1

/-- The line tables among the calls of a session, and the recorder's set of paths. -/
theorem keepsOnce_calls (accepts : WriterCall → Bool) (outputDir : Path)
    (requests : List Request) :
    DeclaredOnce WriterCall.tables ∅ (calls keccak256 accepts outputDir requests) ∧
      Counts (declared WriterCall.tables (calls keccak256 accepts outputDir requests))
        (served keccak256 accepts outputDir requests).pathsWithLineLengths := by
  have hopened : ∀ c ∈ ((new outputDir).initializeTrace accepts).2.1, c.tables = [] :=
    fun c hc => c.tables_eq_nil (ne_event_initializeTrace accepts _ c hc)
  have hclosed : ∀ c ∈ (finalize accepts).1, c.tables = [] :=
    fun c hc => c.tables_eq_nil (ne_event_finalize accepts c hc)
  have hnew : Counts ∅ ((new outputDir).initializeTrace accepts).1.pathsWithLineLengths := by
    intro path
    rw [pathsWithLineLengths_initializeTrace]
    exact iff_of_false List.not_mem_nil (Set.notMem_empty path)
  unfold calls served
  dsimp only
  split
  · obtain ⟨honce, hcounts⟩ := admitted_run
      (fun known self => Counts known (Session.pathsWithLineLengths self))
      (fun _ request self known h =>
        let hrequest := keepsOnce_perform keccak256 self request known h
        ⟨hrequest.once, hrequest.counts⟩)
      requests 0 ((new outputDir).initializeTrace accepts).1 ∅ hnew
    constructor
    · refine (DeclaredOnce.of_declares_nil hopened).append ?_ |>.append (.of_declares_nil hclosed)
      rw [declared_eq_empty hopened, Set.empty_union]
      exact honce.map WriterCall.event (fun _ => rfl) fun _ _ h => h
    · rw [declared_append, declared_append, declared_eq_empty hopened, declared_eq_empty hclosed,
        Set.union_empty, Set.empty_union, declared_map WriterCall.event fun _ => rfl]
      rw [Set.empty_union] at hcounts
      exact hcounts
  · rw [declared_eq_empty hopened]
    exact ⟨.of_declares_nil hopened, hnew⟩

/-- **One line table a path.** In all that one recorder tells the writer, whatever it
records, no path is registered with a line table twice, and the paths that the recorder
counts as registered are those that were. -/
theorem calls_tablesOnce (accepts : WriterCall → Bool) (outputDir : Path)
    (requests : List Request) :
    TablesOnce (calls keccak256 accepts outputDir requests) ∧
      ∀ path, path ∈ (served keccak256 accepts outputDir requests).pathsWithLineLengths ↔
        ∃ lineLengths, .event (.registerPathWithLineLengths path lineLengths) ∈
          calls keccak256 accepts outputDir requests := by
  obtain ⟨honce, hcounts⟩ := keepsOnce_calls keccak256 accepts outputDir requests
  constructor
  · intro pre path lineLengths post hcalls lineLengths' hmem
    exact honce.notMem_of_before hcalls (List.mem_singleton.mpr rfl) _ hmem
      (List.mem_singleton.mpr rfl)
  · intro path
    rw [hcounts path, mem_declared]
    constructor
    · rintro ⟨c, hc, hpath⟩
      obtain ⟨lineLengths, rfl⟩ := WriterCall.exists_of_mem_tables hpath
      exact ⟨lineLengths, hc⟩
    · rintro ⟨lineLengths, hc⟩
      exact ⟨_, hc, List.mem_singleton.mpr rfl⟩

end Session

end EvmRecorder
