import EvmRecorder.Library.Run
import EvmRecorder.Recorder.Events
import EvmRecorder.SourceMap.LineTable

/-!
# Steps and line tables

A step is recorded with a path, a line and a column, and is read back through
the line table of its path. A block of events is followed together with the set
of registered paths: it keeps one table per registered path, and its steps give
the byte offset of their source-map entry back.
-/

namespace EvmRecorder

/-! ## §1  Line tables of a recording -/

def TraceEvent.lineTable (path : Path) : TraceEvent → Option (List Nat)
  | .registerPathWithLineLengths path' lineLengths => if path' = path then some lineLengths else none
  | _ => none

/-- The line tables registered for a path. -/
def lineTables (path : Path) (events : List TraceEvent) : List (List Nat) :=
  events.filterMap (TraceEvent.lineTable path)

theorem lineTables_append (path : Path) (xs ys : List TraceEvent) :
    lineTables path (xs ++ ys) = lineTables path xs ++ lineTables path ys :=
  List.filterMap_append

/-- One table, the one of its text, for every registered path. -/
def TablesRegistered (textOf : Path → String) (registered : List Path)
    (events : List TraceEvent) : Prop :=
  ∀ path, lineTables path events =
    if path ∈ registered then [computeLineLengths (textOf path)] else []

theorem tablesRegistered_nil (textOf : Path → String) : TablesRegistered textOf [] [] :=
  fun _ => rfl

/-- Every file has its text, and source-map offsets that lie in their file lie on
character boundaries. -/
structure SourcesAgree (textOf : Path → String) (a : Artifacts) : Prop where
  lengths : a.sourcePaths.length = a.sourceContents.length
  texts : ∀ (i : Nat) path source, a.sourcePaths[i]? = some path →
    a.sourceContents[i]? = some source → source = textOf path
  boundaries : ∀ sourceMap, a.sourceMap = some sourceMap → ∀ entry ∈ sourceMap.entries,
    ∀ source, a.sourceContents[asUsize entry.fileIndex]? = some source →
      asUsize entry.offset ≤ byteLen source →
        ∃ n : Nat, entry.offset.toInt = n ∧ OnCharBoundary source n

/-- Read after the events `before`, a step at this line and column of `path` is at
the offset of the source-map entry. -/
structure MapsBack (textOf : Path → String) (before : List TraceEvent) (entry : SourceMapEntry)
    (path : Path) (line column : Nat) : Prop where
  table : lineTables path before = [computeLineLengths (textOf path)]
  line_pos : 1 ≤ line
  column_pos : 1 ≤ column
  line_le : line - 1 ≤ (computeLineLengths (textOf path)).length
  offset : entry.offset.toInt = byteOffsetOf (computeLineLengths (textOf path)) line column

/-! ## §2  Blocks of events -/

/-- A block issued at a log with this source-map entry takes the registered paths
from `registered` to `registered'`. -/
structure BlockMapsBack (textOf : Path → String) (entry : Option SourceMapEntry)
    (registered registered' : List Path) (block : List TraceEvent) : Prop where
  tables : ∀ events, TablesRegistered textOf registered events →
    TablesRegistered textOf registered' (events ++ block)
  steps : ∀ events, TablesRegistered textOf registered events →
    ∀ q path line column, q ++ [.registerStepWithColumn path line column] <+: block →
      ∃ e, entry = some e ∧ MapsBack textOf (events ++ q) e path line column

namespace BlockMapsBack

variable {textOf : Path → String} {entry : Option SourceMapEntry}
  {registered registered' registered'' : List Path} {block block' : List TraceEvent}

theorem append (h : BlockMapsBack textOf entry registered registered' block)
    (h' : BlockMapsBack textOf entry registered' registered'' block') :
    BlockMapsBack textOf entry registered registered'' (block ++ block') where
  tables := by
    intro events hevents
    rw [← List.append_assoc]
    exact h'.tables _ (h.tables events hevents)
  steps := by
    intro events hevents q path line column hq
    rcases Machine.snoc_prefix_append_cases hq with hq | ⟨q', rfl, hq'⟩
    · exact h.steps events hevents q path line column hq
    · rw [← List.append_assoc]
      exact h'.steps _ (h.tables events hevents) q' path line column hq'

/-- A block without tables and steps. -/
theorem of_issues {kinds : List EventKind} (h : Issues kinds block)
    (htable : .lineTable ∉ kinds) (hstep : .step ∉ kinds) :
    BlockMapsBack textOf entry registered registered block where
  tables := by
    intro events hevents path
    have hnone : lineTables path block = [] := by
      refine h.filterMap_eq_nil fun e he => ?_
      cases e <;> first | rfl | exact absurd he htable
    rw [lineTables_append, hnone, List.append_nil]
    exact hevents path
  steps := by
    intro events _ q path line column hq
    have hmem : TraceEvent.registerStepWithColumn path line column ∈ block :=
      hq.subset (List.mem_append_right q (List.mem_singleton.mpr rfl))
    exact absurd (h _ hmem) hstep

theorem append_issues {kinds : List EventKind}
    (h : BlockMapsBack textOf entry registered registered' block) (hissues : Issues kinds block')
    (htable : .lineTable ∉ kinds) (hstep : .step ∉ kinds) :
    BlockMapsBack textOf entry registered registered' (block ++ block') :=
  h.append (of_issues hissues htable hstep)

theorem issues_append {kinds : List EventKind} (hissues : Issues kinds block)
    (htable : .lineTable ∉ kinds) (hstep : .step ∉ kinds)
    (h : BlockMapsBack textOf entry registered registered' block') :
    BlockMapsBack textOf entry registered registered' (block ++ block') :=
  (of_issues hissues htable hstep).append h

theorem ensurePath {path : Path} {source : String} (htext : source = textOf path) :
    BlockMapsBack textOf entry registered (ensurePathWithLineLengths registered path source).1
      (ensurePathWithLineLengths registered path source).2 := by
  unfold ensurePathWithLineLengths
  by_cases hmem : path ∈ registered
  · rw [if_pos hmem]
    exact of_issues Issues.nil (List.not_mem_nil) (List.not_mem_nil)
  · rw [if_neg hmem]
    subst htext
    constructor
    · intro events hevents path'
      rw [lineTables_append, hevents path']
      by_cases hpath : path = path'
      · subst hpath
        rw [if_neg hmem, if_pos List.mem_cons_self]
        simp [lineTables, TraceEvent.lineTable]
      · have hmem' : path' ∈ path :: registered ↔ path' ∈ registered := by
          rw [List.mem_cons]
          exact or_iff_right (Ne.symm hpath)
        simp [lineTables, TraceEvent.lineTable, hpath, hmem']
    · intro events _ q path' line column hq
      have hstep := hq.subset (List.mem_append_right q (List.mem_singleton.mpr rfl))
      cases List.mem_singleton.mp hstep

end BlockMapsBack

/-! ## §3  The step of a log -/

theorem Artifacts.resolvePc_spec {a : Artifacts} {pc : Nat} {loc : SourceLocation}
    (h : a.resolvePc pc = some loc) :
    ∃ sourceMap entry source, a.sourceMap = some sourceMap ∧ entry ∈ sourceMap.entries ∧
      a.entryForPc pc = some entry ∧ a.sourceContents[asUsize entry.fileIndex]? = some source ∧
      asUsize entry.offset ≤ byteLen source ∧
      loc = ⟨entry.fileIndex, (offsetToLineCol source (asUsize entry.offset)).1,
        (offsetToLineCol source (asUsize entry.offset)).2⟩ := by
  unfold Artifacts.resolvePc at h
  obtain ⟨sourceMap, hmap, h⟩ := Option.bind_eq_some_iff.mp h
  obtain ⟨entry, source, hmem, hentry, hsource, hle, hloc⟩ := SourceMap.resolvePc_spec h
  refine ⟨sourceMap, entry, source, hmap, hmem, ?_, hsource, hle, hloc⟩
  rw [Artifacts.entryForPc, hmap, Option.bind_some]
  exact hentry

theorem asUsize_of_toInt {x : Int32} {n : Nat} (h : x.toInt = n) :
    asUsize x = n ∧ n < 2 ^ 32 := by
  have hlt : x.toInt < 2 ^ 31 := Int32.toInt_lt x
  rw [asUsize, h]
  omega

/-- The file of a resolved location, and its offset through the file's line
table. -/
theorem SourcesAgree.resolved {textOf : Path → String} {a : Artifacts} {pc : Nat}
    {loc : SourceLocation} (hsources : SourcesAgree textOf a) (h : a.resolvePc pc = some loc) :
    ∃ path entry, a.sourcePaths[asUsize loc.fileIndex]? = some path ∧
      a.sourceContents[asUsize loc.fileIndex]? = some (textOf path) ∧
      a.entryForPc pc = some entry ∧ 1 ≤ loc.line ∧
      loc.line - 1 ≤ (computeLineLengths (textOf path)).length ∧
      entry.offset.toInt =
        byteOffsetOf (computeLineLengths (textOf path)) loc.line (loc.column + 1) := by
  obtain ⟨sourceMap, entry, source, hmap, hmem, hentry, hsource, hle, rfl⟩ := a.resolvePc_spec h
  have hlt : asUsize entry.fileIndex < a.sourcePaths.length := by
    rw [hsources.lengths]
    exact (List.getElem?_eq_some_iff.mp hsource).1
  have hpath : a.sourcePaths[asUsize entry.fileIndex]? =
      some a.sourcePaths[asUsize entry.fileIndex] := List.getElem?_eq_getElem hlt
  obtain rfl := hsources.texts _ _ _ hpath hsource
  obtain ⟨n, hn, hboundary⟩ := hsources.boundaries sourceMap hmap entry hmem _ hsource hle
  obtain ⟨hoffset, hbound⟩ := asUsize_of_toInt hn
  obtain ⟨hpos, hlines, hsum⟩ := lineOffset_offsetToLineCol hbound hboundary
  refine ⟨_, entry, hpath, hsource, hentry, ?_, ?_, ?_⟩
  · rw [hoffset]
    exact hpos
  · rw [hoffset]
    exact hlines
  · rw [hoffset, hn, byteOffsetOf, Nat.add_sub_cancel]
    exact congrArg Nat.cast hsum

/-- The step event alone, once its path is registered. -/
theorem BlockMapsBack.step {textOf : Path → String} {entry : SourceMapEntry}
    {registered : List Path} {path : Path} {line column : Nat} (hmem : path ∈ registered)
    (hline : 1 ≤ line) (hlines : line - 1 ≤ (computeLineLengths (textOf path)).length)
    (hoffset : entry.offset.toInt =
      byteOffsetOf (computeLineLengths (textOf path)) line (column + 1)) :
    BlockMapsBack textOf (some entry) registered registered
      [.registerStepWithColumn path line (column + 1)] where
  tables := by
    intro events hevents path'
    rw [lineTables_append]
    exact (List.append_nil _).trans (hevents path')
  steps := by
    intro events hevents q path' line' column' hq
    have hlen : q.length + 1 ≤ 1 := by simpa using hq.length_le
    obtain rfl : q = [] := List.eq_nil_of_length_eq_zero (by omega)
    cases (List.cons_prefix_cons.mp hq).1
    refine ⟨entry, rfl, ?_, hline, Nat.le_add_left 1 column, hlines, hoffset⟩
    rw [List.append_nil, hevents path, if_pos hmem]

theorem mem_ensurePath (registered : List Path) (path : Path) (source : String) :
    path ∈ (ensurePathWithLineLengths registered path source).1 := by
  unfold ensurePathWithLineLengths
  split
  · assumption
  · exact List.mem_cons_self

/-- The step block of a resolved log: table, step, carried-forward variables. -/
theorem blockMapsBack_emitStep {textOf : Path → String} {a : Artifacts} {pc : Nat}
    {loc : SourceLocation} (hsources : SourcesAgree textOf a) (hloc : a.resolvePc pc = some loc)
    (mainPath : Path) (registered : List Path) (prevLine : Option SourceLocation)
    (storageState : NamedValues) :
    BlockMapsBack textOf (a.entryForPc pc) registered
      (emitStep a mainPath registered prevLine loc storageState).1
      (emitStep a mainPath registered prevLine loc storageState).2 := by
  obtain ⟨path, entry, hpath, hsource, hentry, hline, hlines, hoffset⟩ := hsources.resolved hloc
  have hstepPath : a.pathOf mainPath loc.fileIndex = path := by
    rw [Artifacts.pathOf, hpath]
    rfl
  have hvariables : Issues [.variable]
      ((carriedForward prevLine loc storageState).map fun e =>
        TraceEvent.registerVariableWithFullValue e.1 e.2) := by
    intro e he
    obtain ⟨x, -, rfl⟩ := List.mem_map.mp he
    exact List.mem_singleton.mpr rfl
  unfold emitStep
  by_cases hprev : prevLine = some loc
  · rw [if_pos hprev]
    exact .of_issues Issues.nil List.not_mem_nil List.not_mem_nil
  · rw [if_neg hprev]
    dsimp only
    rw [hstepPath, hsource, hentry]
    have htable : BlockMapsBack textOf (some entry) registered
        (ensurePathWithLineLengths registered path (textOf path)).1
        (ensurePathWithLineLengths registered path (textOf path)).2 := .ensurePath rfl
    exact (htable.append (.step (mem_ensurePath _ _ _) hline hlines hoffset)).append_issues
      hvariables (by decide) (by decide)

/-- The events at a location add no further table and no further step. -/
theorem blockMapsBack_located {textOf : Path → String} {a : Artifacts} {pc : Nat}
    {loc : SourceLocation} (hsources : SourcesAgree textOf a) (hloc : a.resolvePc pc = some loc)
    (mainPath : Path) (registered : List Path) (prevLine : Option SourceLocation)
    (storageState : NamedValues) (values : List (VarDecl × U256)) {jump : List TraceEvent}
    (hjump : Issues [.setup, .argument, .call, .ret] jump) :
    BlockMapsBack textOf (a.entryForPc pc) registered
      (emitStep a mainPath registered prevLine loc storageState).1
      ((emitStep a mainPath registered prevLine loc storageState).2 ++ localEvents values ++
        jump) :=
  ((blockMapsBack_emitStep hsources hloc mainPath registered prevLine storageState).append_issues
    (issues_localEvents values) (by decide) (by decide)).append_issues hjump (by decide) (by decide)

/-! ## §4  Runs -/

/-- Log `k` issues the step right after the events `q`. -/
def IssuesStep (eventsBefore : Nat → List TraceEvent) (k : Nat) (q : List TraceEvent)
    (path : Path) (line column : Nat) : Prop :=
  eventsBefore k <+: q ∧ q ++ [.registerStepWithColumn path line column] <+: eventsBefore (k + 1)

/-- Every step of a recording maps back to the offset of the source-map entry of
the log that issued it; `past` is what the recorder has issued before. -/
structure StepsMapBack (textOf : Path → String) (past recording : List TraceEvent)
    (eventsBefore : Nat → List TraceEvent) (entryAt : Nat → Option SourceMapEntry) : Prop where
  issued : ∀ q path line column,
    q ++ [.registerStepWithColumn path line column] <+: recording →
      ∃ k, IssuesStep eventsBefore k q path line column
  maps : ∀ k q path line column, IssuesStep eventsBefore k q path line column →
    ∃ entry, entryAt k = some entry ∧ MapsBack textOf (past ++ q) entry path line column
  offsets : ∀ k q k' q' path line column, IssuesStep eventsBefore k q path line column →
    IssuesStep eventsBefore k' q' path line column →
      (entryAt k).map (·.offset) = (entryAt k').map (·.offset)

/-- The empty recording of an empty trace. -/
theorem StepsMapBack.of_nil {textOf : Path → String} {past recording : List TraceEvent}
    {eventsBefore : Nat → List TraceEvent} {entryAt : Nat → Option SourceMapEntry}
    (h : StepsMapBack textOf past recording eventsBefore entryAt) :
    StepsMapBack textOf past [] eventsBefore entryAt := by
  refine ⟨?_, h.maps, h.offsets⟩
  intro q path line column hq
  exact absurd (List.prefix_nil.mp hq) (List.append_ne_nil_of_right_ne_nil q (List.cons_ne_nil _ []))

section Runs

variable {σ : Type} {textOf : Path → String} {past preamble : List TraceEvent}
  {registered : List Path} {structLogs : List StructLog} {s₀ : σ}
  {step : Nat → StructLog → σ → σ × List TraceEvent} (pathsOf : σ → List Path)
  (entryOf : Nat → StructLog → σ → Option SourceMapEntry)

/-- Blocks of single logs give runs: the tables before every log. -/
theorem tablesRegistered_run (hpast : TablesRegistered textOf registered past)
    (hpreamble : BlockMapsBack textOf none registered (pathsOf s₀) preamble)
    (hstep : ∀ k log s, BlockMapsBack textOf (entryOf k log s) (pathsOf s)
      (pathsOf (step k log s).1) (step k log s).2) :
    ∀ k, k ≤ structLogs.length →
      TablesRegistered textOf (pathsOf (Machine.stateBefore step structLogs s₀ k))
        (past ++ (preamble ++ Machine.outputBefore step structLogs s₀ k))
  | 0, _ => by
      rw [Machine.stateBefore_zero, Machine.outputBefore_zero, List.append_nil]
      exact hpreamble.tables past hpast
  | k + 1, hk => by
      have hlog : structLogs[k]? = some structLogs[k] := List.getElem?_eq_getElem hk
      have ih := tablesRegistered_run hpast hpreamble hstep k (Nat.le_of_lt hk)
      rw [Machine.stateBefore_succ hlog, Machine.outputBefore_succ hlog, ← List.append_assoc,
        ← List.append_assoc]
      rw [← List.append_assoc] at ih
      exact (hstep k _ _).tables _ ih

/-- The step of a log maps back to the entry of the log. -/
theorem mapsBack_of_issued (hpast : TablesRegistered textOf registered past)
    (hpreamble : BlockMapsBack textOf none registered (pathsOf s₀) preamble)
    (hstep : ∀ k log s, BlockMapsBack textOf (entryOf k log s) (pathsOf s)
      (pathsOf (step k log s).1) (step k log s).2)
    {k : Nat} {q : List TraceEvent} {path : Path} {line column : Nat}
    (hissues : IssuesStep (fun k => preamble ++ Machine.outputBefore step structLogs s₀ k) k q path
      line column) :
    ∃ entry, (structLogs[k]?.bind fun log =>
        entryOf k log (Machine.stateBefore step structLogs s₀ k)) = some entry ∧
      MapsBack textOf (past ++ q) entry path line column := by
  obtain ⟨⟨q', rfl⟩, hissued⟩ := hissues
  dsimp only at hissued
  rcases Nat.lt_or_ge k structLogs.length with hk | hk
  · have hlog : structLogs[k]? = some structLogs[k] := List.getElem?_eq_getElem hk
    have htables := tablesRegistered_run pathsOf entryOf hpast hpreamble hstep k (Nat.le_of_lt hk)
    rw [Machine.outputBefore_succ hlog, ← List.append_assoc, List.append_assoc,
      List.prefix_append_right_inj] at hissued
    obtain ⟨entry, hentry, hmaps⟩ := (hstep k _ _).steps _ htables q' path line column hissued
    refine ⟨entry, ?_, ?_⟩
    · rw [hlog, Option.bind_some]
      exact hentry
    · rw [← List.append_assoc]
      exact hmaps
  · -- past the end of the trace nothing is issued
    rw [Machine.outputBefore_succ_of_length_le hk] at hissued
    have hlen := hissued.length_le
    simp only [List.length_append, List.length_singleton] at hlen
    omega

/-- Blocks of single logs give runs: the steps. -/
theorem stepsMapBack_run (hpast : TablesRegistered textOf registered past)
    (hpreamble : BlockMapsBack textOf none registered (pathsOf s₀) preamble)
    (hstep : ∀ k log s, BlockMapsBack textOf (entryOf k log s) (pathsOf s)
      (pathsOf (step k log s).1) (step k log s).2) :
    StepsMapBack textOf past
      (preamble ++ Machine.outputBefore step structLogs s₀ structLogs.length)
      (fun k => preamble ++ Machine.outputBefore step structLogs s₀ k)
      (fun k => structLogs[k]?.bind fun log =>
        entryOf k log (Machine.stateBefore step structLogs s₀ k)) where
  issued := by
    intro q path line column hq
    rcases Machine.snoc_prefix_append_cases hq with hq | ⟨q', rfl, hq'⟩
    · obtain ⟨_, hnone, -⟩ := hpreamble.steps past hpast q path line column hq
      cases hnone
    · obtain ⟨k, hbefore, hafter⟩ :=
        Machine.exists_of_snoc_prefix_outputBefore structLogs.length (Nat.le_refl _) hq'
      refine ⟨k, (List.prefix_append_right_inj preamble).mpr hbefore, ?_⟩
      rw [List.append_assoc]
      exact (List.prefix_append_right_inj preamble).mpr hafter
  maps := fun _ _ _ _ _ hissues => mapsBack_of_issued pathsOf entryOf hpast hpreamble hstep hissues
  offsets := by
    intro k q k' q' path line column hk hk'
    obtain ⟨entry, hentry, hmaps⟩ := mapsBack_of_issued pathsOf entryOf hpast hpreamble hstep hk
    obtain ⟨entry', hentry', hmaps'⟩ := mapsBack_of_issued pathsOf entryOf hpast hpreamble hstep hk'
    have hoffset : entry.offset.toInt = entry'.offset.toInt :=
      hmaps.offset.trans hmaps'.offset.symm
    rw [hentry, hentry']
    exact congrArg some (Int32.toInt_inj.mp hoffset)

end Runs

/-! ## §5  The single-contract recorder -/

theorem blockMapsBack_registerMain {textOf : Path → String} {a : Artifacts}
    (hsources : SourcesAgree textOf a) (entry : Option SourceMapEntry) (registered : List Path) :
    BlockMapsBack textOf entry registered (Recorder.registerMain registered a).1
      (Recorder.registerMain registered a).2 := by
  unfold Recorder.registerMain
  split
  · next path source hpath hsource =>
      rw [List.head?_eq_getElem?] at hpath hsource
      exact .ensurePath (hsources.texts 0 path source hpath hsource)
  · exact .of_issues Issues.nil List.not_mem_nil List.not_mem_nil

theorem blockMapsBack_preamble {textOf : Path → String} {a : Artifacts}
    (hsources : SourcesAgree textOf a) (registered : List Path) :
    BlockMapsBack textOf none registered (Recorder.registerMain registered a).1
      (Recorder.preamble registered a) := by
  have hsetup : Issues [.setup] [TraceEvent.start (Recorder.mainPathOf a.sourcePaths) 1,
      .ensureTypeId uint256TypeId] :=
    .cons (by simp [TraceEvent.kind]) (.cons (by simp [TraceEvent.kind]) .nil)
  exact (blockMapsBack_registerMain hsources none registered).append_issues hsetup
    (by decide) (by decide)

namespace Recorder

section Steps

variable {textOf : Path → String} {keccak256 : List UInt8 → U256} {a : Artifacts}
  {mainPath : Path} {structLogs : List StructLog}

theorem pathsWithLineLengths_handleJump (i : Nat) (log : StructLog) (loc : SourceLocation)
    (s : RecorderState) :
    (handleJump a mainPath structLogs i log loc s).1.pathsWithLineLengths =
      s.pathsWithLineLengths := by
  unfold handleJump
  split
  · unfold jumpInto
    split <;> rfl
  · rfl
  · rfl

theorem pathsWithLineLengths_handleStorage (log : StructLog) (s : RecorderState) :
    (handleStorage keccak256 a log s).1.pathsWithLineLengths = s.pathsWithLineLengths := by
  unfold handleStorage
  dsimp only
  split <;> rfl

theorem blockMapsBack_handleLocation (hsources : SourcesAgree textOf a) (i : Nat)
    (log : StructLog) (s : RecorderState) :
    BlockMapsBack textOf (a.entryForPc log.pc) s.pathsWithLineLengths
      (handleLocation a mainPath structLogs i log s).1.pathsWithLineLengths
      (handleLocation a mainPath structLogs i log s).2 := by
  unfold handleLocation
  cases hloc : a.resolvePc log.pc with
  | none => exact .of_issues Issues.nil List.not_mem_nil List.not_mem_nil
  | some loc =>
      dsimp only [atLocation]
      rw [pathsWithLineLengths_handleJump]
      exact blockMapsBack_located hsources hloc mainPath _ _ _ _ (issues_handleJump _ _ _ _ _ _ _)

theorem blockMapsBack_step (hsources : SourcesAgree textOf a) (k : Nat) (log : StructLog)
    (s : RecorderState) :
    BlockMapsBack textOf (a.entryForPc log.pc) s.pathsWithLineLengths
      (step keccak256 a mainPath structLogs k log s).1.pathsWithLineLengths
      (step keccak256 a mainPath structLogs k log s).2 := by
  dsimp only [step]
  rw [pathsWithLineLengths_handleStorage]
  have hlocated : BlockMapsBack textOf (a.entryForPc log.pc) s.pathsWithLineLengths
      (handleLocation a mainPath structLogs k log (enterDepth log s)).1.pathsWithLineLengths
      (handleLocation a mainPath structLogs k log (enterDepth log s)).2 :=
    blockMapsBack_handleLocation hsources k log (enterDepth log s)
  exact ((BlockMapsBack.issues_append (issues_depthEvents _ _ _ _ _ _) (by decide) (by decide)
    hlocated).append_issues (issues_handleStorage _ _ _ _) (by decide) (by decide)).append_issues
      (issues_specialEvents log) (by decide) (by decide)

/-- The recorder's set of paths agrees with the tables again for its next
recording. -/
theorem tablesRegistered_recordFromStructlog (hsources : SourcesAgree textOf a)
    {registered : List Path} {past : List TraceEvent}
    (hpast : TablesRegistered textOf registered past) (hlogs : structLogs ≠ []) :
    TablesRegistered textOf
      (stateBefore keccak256 registered a structLogs structLogs.length).pathsWithLineLengths
      (past ++ recordFromStructlog keccak256 registered a structLogs) := by
  rw [recordFromStructlog_eq_eventsBefore keccak256 registered a hlogs]
  exact tablesRegistered_run RecorderState.pathsWithLineLengths
    (fun _ log _ => a.entryForPc log.pc) hpast (blockMapsBack_preamble hsources registered)
    (blockMapsBack_step hsources) structLogs.length (Nat.le_refl _)

theorem stepsMapBack_recordFromStructlog (hsources : SourcesAgree textOf a)
    {registered : List Path} {past : List TraceEvent}
    (hpast : TablesRegistered textOf registered past) :
    StepsMapBack textOf past (recordFromStructlog keccak256 registered a structLogs)
      (eventsBefore keccak256 registered a structLogs)
      (fun k => structLogs[k]?.bind fun log => a.entryForPc log.pc) := by
  have hrun : StepsMapBack textOf past
      (eventsBefore keccak256 registered a structLogs structLogs.length)
      (eventsBefore keccak256 registered a structLogs)
      (fun k => structLogs[k]?.bind fun log => a.entryForPc log.pc) :=
    stepsMapBack_run RecorderState.pathsWithLineLengths (fun _ log _ => a.entryForPc log.pc) hpast
      (blockMapsBack_preamble hsources registered) (blockMapsBack_step hsources)
  by_cases hempty : structLogs = []
  · subst hempty
    exact hrun.of_nil
  · rw [recordFromStructlog_eq_eventsBefore keccak256 registered a hempty]
    exact hrun

end Steps

end Recorder

end EvmRecorder
