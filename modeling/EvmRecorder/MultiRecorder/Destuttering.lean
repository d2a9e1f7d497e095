import EvmRecorder.Library.Changes
import EvmRecorder.MultiRecorder.CarryForward
import EvmRecorder.MultiRecorder.LocalParity

/-!
# Steps are de-stuttered locations

Both recorders make a step at a log whose location differs from the last resolved
one; the multi-contract recorder forgets that one whenever the depth changes. The
steps are therefore the resolved locations without adjacent repeats, of the whole
trace or of each maximal run of logs at one depth. The cached variables follow a
step that is on another line than the step before it, or that has none before it.
-/

namespace EvmRecorder

open Changes Levels

/-! ## §1  Visits -/

/-- What a log contributes to stepping: its depth, the artifacts it is recorded with,
the location it resolves to and the variables cached for its frame. -/
structure Visit where
  depth : Nat
  artifacts : Artifacts
  loc : Option SourceLocation
  cached : NamedValues

/-- A step with the cached variables re-emitted behind it. -/
abbrev Emission : Type := StepData × List (String × ValueRecord)

def Emission.events (e : Emission) : List TraceEvent :=
  .registerStepWithColumn e.1.1 e.1.2.1 e.1.2.2 :: e.2.map variableEvent

/-- The step at a location: its column is 1-based. -/
def stepAt (a : Artifacts) (mainPath : Path) (loc : SourceLocation) : StepData :=
  (a.pathOf mainPath loc.fileIndex, loc.line, loc.column + 1)

/-- The step of a visit behind a step at `prev`. -/
def Visit.emission (mainPath : Path) (prev : Option SourceLocation) (v : Visit) : List Emission :=
  v.loc.toList.map fun loc => (stepAt v.artifacts mainPath loc,
    if lineChanged prev loc then v.cached.entries.map fun e => (e.1, e.2) else [])

/-- The steps of a recording with the variables re-emitted behind them, de-stuttered
segment by segment. -/
structure Destuttered (mainPath : Path) (segments : List (List Visit)) (made : List StepData)
    (emitted : List Emission) : Prop where
  steps : made = segments.flatMap fun segment =>
    (changesOf Visit.loc segment).flatMap fun v => v.loc.toList.map (stepAt v.artifacts mainPath)
  emissions : emitted = segments.flatMap fun segment =>
    (withPrevious Visit.loc (changesOf Visit.loc segment)).flatMap fun c =>
      c.2.emission mainPath c.1
  once : ∀ e ∈ emitted, (e.2.map Prod.fst).Nodup

theorem emission_fst (mainPath : Path) (prev : Option SourceLocation) (v : Visit) :
    (v.emission mainPath prev).map Prod.fst = v.loc.toList.map (stepAt v.artifacts mainPath) := by
  rw [Visit.emission, List.map_map]
  rfl

/-- A cache holds each name once. -/
theorem nodup_of_mem_emission {mainPath : Path} {prev : Option SourceLocation} {v : Visit}
    {e : Emission} (he : e ∈ v.emission mainPath prev) : (e.2.map Prod.fst).Nodup := by
  obtain ⟨loc, -, rfl⟩ := List.mem_map.mp he
  dsimp only
  split
  · rw [List.map_map]
    exact v.cached.nodupKeys
  · exact List.nodup_nil

theorem map_snd_withPrevious {ι γ : Type} (value : ι → Option γ) (xs : List ι) :
    (withPrevious value xs).map Prod.snd = xs := by
  rw [withPrevious, List.map_snd_zip (by simp)]

theorem Destuttered.of_emissions {mainPath : Path} {segments : List (List Visit)}
    {emitted : List Emission}
    (h : emitted = segments.flatMap fun segment =>
      (withPrevious Visit.loc (changesOf Visit.loc segment)).flatMap fun c =>
        c.2.emission mainPath c.1) :
    Destuttered mainPath segments (emitted.map Prod.fst) emitted where
  steps := by
    rw [h, List.map_flatMap]
    refine List.flatMap_congr fun segment _ => ?_
    rw [List.map_flatMap]
    simp only [emission_fst]
    rw [← List.flatMap_map Prod.snd fun v : Visit => v.loc.toList.map (stepAt v.artifacts mainPath),
      map_snd_withPrevious]
  emissions := h
  once := by
    intro e he
    rw [h] at he
    obtain ⟨segment, -, he⟩ := List.mem_flatMap.mp he
    obtain ⟨c, -, he⟩ := List.mem_flatMap.mp he
    exact nodup_of_mem_emission he

/-- Without what is re-emitted, emissions are the steps. -/
theorem map_fst_emissions (steps : Nat → List StepData)
    (reemitted : Nat → List (String × ValueRecord)) (logs : List Nat) :
    (logs.flatMap fun k => (steps k).map fun step => (step, reemitted k)).map Prod.fst =
      logs.flatMap steps := by
  rw [List.map_flatMap]
  refine List.flatMap_congr fun k _ => ?_
  rw [List.map_map]
  exact List.map_id _

/-- The step block of a log, paired with what it carries forward. -/
theorem emissions_of_change (mainPath : Path) (prev : Option SourceLocation) (v : Visit) :
    ((v.loc.elim [] (stepTo v.artifacts mainPath prev)).map fun step =>
        (step, v.loc.elim [] fun loc => carriedForward prev loc v.cached)) =
      (v.loc.elim [] fun loc => if prev = some loc then [] else [(prev, v)]).flatMap fun c =>
        c.2.emission mainPath c.1 := by
  cases hloc : v.loc with
  | none => rfl
  | some loc =>
      simp only [Option.elim_some, stepTo]
      by_cases hsame : prev = some loc
      · rw [if_pos hsame, if_pos hsame]
        rfl
      · rw [if_neg hsame, if_neg hsame]
        simp [carriedForward, hsame, Visit.emission, hloc, stepAt]

/-- What a step block issues behind its line tables. -/
theorem emitStep_events (a : Artifacts) (mainPath : Path) (registered : List Path)
    (prev : Option SourceLocation) (loc : SourceLocation) (cached : NamedValues) :
    ∃ tables, Issues [.lineTable] tables ∧
      (emitStep a mainPath registered prev loc cached).2 = tables ++
        ((stepTo a mainPath prev loc).map fun step =>
          (step, carriedForward prev loc cached)).flatMap Emission.events := by
  unfold emitStep stepTo
  by_cases hsame : prev = some loc
  · rw [if_pos hsame, if_pos hsame]
    exact ⟨[], .nil, rfl⟩
  · rw [if_neg hsame, if_neg hsame, List.map_singleton, List.flatMap_singleton]
    refine ⟨_, ?_, List.append_assoc _ _ _⟩
    split
    · exact issues_ensurePath _ _ _
    · exact .nil

/-- The events of a log: no step or variable before its emissions, and behind them
its local values and what its own SSTORE writes. -/
def Recorded (log : StructLog) (emitted : List Emission) (locals : List (VarDecl × U256))
    (block : List TraceEvent) : Prop :=
  ∃ pre jump stored, Issues [.setup, .lineTable, .call, .ret, .special] pre ∧
    Issues [.setup, .argument, .call, .ret] jump ∧ (storageWrite log = none → stored = []) ∧
    block = pre ++ (emitted.flatMap Emission.events ++
      (localEvents locals ++ (jump ++ (stored ++ specialEvents log))))

/-- The blocks of a log put together. -/
theorem Recorded.of_located {log : StructLog} {emitted : List Emission}
    {locals : List (VarDecl × U256)} {entered located stored : List TraceEvent}
    (hentered : Issues [.setup, .call, .ret, .special] entered)
    (hlocated : ∃ tables jump, Issues [.lineTable] tables ∧
      Issues [.setup, .argument, .call, .ret] jump ∧
      located = tables ++ (emitted.flatMap Emission.events ++ (localEvents locals ++ jump)))
    (hstored : storageWrite log = none → stored = []) :
    Recorded log emitted locals (entered ++ located ++ stored ++ specialEvents log) := by
  obtain ⟨tables, jump, htables, hjump, rfl⟩ := hlocated
  refine ⟨entered ++ tables, jump, stored, ?_, hjump, hstored, by simp only [List.append_assoc]⟩
  exact (hentered.mono (by simp)).append (htables.mono (by simp))

/-! ## §2  The single-contract recorder -/

namespace Recorder

section

variable (keccak256 : List UInt8 → U256) (registered : List Path) (a : Artifacts)
  (structLogs : List StructLog)

/-- The variables cached before log `k`. -/
def cachedBefore (k : Nat) : NamedValues :=
  (stateBefore keccak256 registered a structLogs k).storageState

/-- The last resolved location before log `k`. -/
def prevLineBefore (k : Nat) : Option SourceLocation :=
  (stateBefore keccak256 registered a structLogs k).prevLine

def visitAt (k : Nat) : Visit :=
  structLogs[k]?.elim ⟨0, a, none, ∅⟩ fun log =>
    ⟨log.depth, a, a.resolvePc log.pc, cachedBefore keccak256 registered a structLogs k⟩

def visits : List Visit :=
  (List.range structLogs.length).map (visitAt keccak256 registered a structLogs)

/-- The steps issued at log `k`, with the variables re-emitted there. -/
def emissionsAt (k : Nat) : List Emission :=
  (stepsAt keccak256 registered a structLogs k).map fun step =>
    (step, reemittedAt keccak256 registered a structLogs k)

def emissions : List Emission :=
  (List.range structLogs.length).flatMap (emissionsAt keccak256 registered a structLogs)

variable {keccak256 registered a structLogs}

theorem prevLine_handleLocation {mainPath : Path} (i : Nat) (log : StructLog)
    (s : RecorderState) : (handleLocation a mainPath structLogs i log s).1.prevLine =
      (a.resolvePc log.pc).orElse fun _ => s.prevLine := by
  unfold handleLocation
  cases a.resolvePc log.pc with
  | none => rfl
  | some loc =>
      dsimp only [atLocation]
      unfold handleJump jumpInto jumpOutOf
      split
      · split <;> rfl
      · rfl
      · rfl

theorem prevLineBefore_succ {k : Nat} {log : StructLog} (hlog : structLogs[k]? = some log) :
    prevLineBefore keccak256 registered a structLogs (k + 1) =
      (a.resolvePc log.pc).orElse fun _ => prevLineBefore keccak256 registered a structLogs k := by
  rw [prevLineBefore, stateBefore, Machine.stateBefore_succ hlog]
  exact ((handleStorage_kept _ _).1).trans (prevLine_handleLocation _ _ _)

theorem visitAt_of_log {k : Nat} {log : StructLog} (hlog : structLogs[k]? = some log) :
    visitAt keccak256 registered a structLogs k = ⟨log.depth, a, a.resolvePc log.pc,
      cachedBefore keccak256 registered a structLogs k⟩ := by
  rw [visitAt, hlog]
  rfl

/-- The steps and re-emitted variables of one log. -/
theorem emissionsAt_of_log {k : Nat} {log : StructLog} (hlog : structLogs[k]? = some log) :
    emissionsAt keccak256 registered a structLogs k =
      ((visitAt keccak256 registered a structLogs k).loc.elim [] fun loc =>
        if prevLineBefore keccak256 registered a structLogs k = some loc then []
        else [(prevLineBefore keccak256 registered a structLogs k,
          visitAt keccak256 registered a structLogs k)]).flatMap fun c =>
            c.2.emission (mainPathOf a.sourcePaths) c.1 := by
  rw [← emissions_of_change, visitAt_of_log hlog, emissionsAt,
    stepsAt_of_log keccak256 registered a structLogs hlog, reemittedAt, hlog]
  rfl

/-- The local values read at log `k`. -/
def localsAtLog (keccak256 : List UInt8 → U256) (registered : List Path) (a : Artifacts)
    (structLogs : List StructLog) (k : Nat) (log : StructLog) : List (VarDecl × U256) :=
  (a.resolvePc log.pc).elim [] fun loc => localsRead a structLogs k log loc
    (enterDepth log (stateBefore keccak256 registered a structLogs k))

theorem handleLocation_events (mainPath : Path) (k : Nat) (log : StructLog) (s : RecorderState) :
    ∃ tables jump, Issues [.lineTable] tables ∧ Issues [.setup, .argument, .call, .ret] jump ∧
      (handleLocation a mainPath structLogs k log s).2 = tables ++
        ((((a.resolvePc log.pc).elim [] (stepTo a mainPath s.prevLine)).map fun step =>
            (step, (a.resolvePc log.pc).elim [] fun loc =>
              carriedForward s.prevLine loc s.storageState)).flatMap Emission.events ++
          (localEvents ((a.resolvePc log.pc).elim [] fun loc =>
            localsRead a structLogs k log loc s) ++ jump)) := by
  unfold handleLocation
  cases a.resolvePc log.pc with
  | none => exact ⟨[], [], .nil, .nil, rfl⟩
  | some loc =>
      obtain ⟨tables, htables, hevents⟩ :=
        emitStep_events a mainPath s.pathsWithLineLengths s.prevLine loc s.storageState
      simp only [atLocation, hevents, List.append_assoc, Option.elim_some]
      exact ⟨tables, _, htables, issues_handleJump _ _ _ _ _ _ _, rfl⟩

/-- Where the emissions of a log stand in the recording. -/
theorem emissionsAt_recorded {k : Nat} {log : StructLog} (hlog : structLogs[k]? = some log) :
    ∃ block, eventsBefore keccak256 registered a structLogs (k + 1) =
        eventsBefore keccak256 registered a structLogs k ++ block ∧
      Recorded log (emissionsAt keccak256 registered a structLogs k)
        (localsAtLog keccak256 registered a structLogs k log) block := by
  refine ⟨_, eventsBefore_succ _ _ _ _ hlog, ?_⟩
  rw [emissionsAt, stepsAt_of_log keccak256 registered a structLogs hlog, reemittedAt, hlog]
  refine .of_located (issues_depthEvents _ _ _ _ _ _)
    (handleLocation_events _ k log (enterDepth log _)) fun hnone => ?_
  rw [handleStorage, hnone]

theorem filterMap_stepData_eventsBefore {k : Nat} (hk : k ≤ structLogs.length) :
    (eventsBefore keccak256 registered a structLogs k).filterMap TraceEvent.stepData =
      (List.range k).flatMap (stepsAt keccak256 registered a structLogs) := by
  have hpreamble : (preamble registered a).filterMap TraceEvent.stepData = [] :=
    stepData_eq_nil (issues_preamble registered a) (by decide)
  rw [eventsBefore, List.filterMap_append, hpreamble, List.nil_append]
  refine Machine.filterMap_outputBefore (fun k log hlog => ?_) k hk
  rw [stepsAt, hlog]
  rfl

/-- The steps of the recording are those of its emissions. -/
theorem steps_eq_emissions :
    (recordFromStructlog keccak256 registered a structLogs).filterMap TraceEvent.stepData =
      (emissions keccak256 registered a structLogs).map Prod.fst := by
  have hsteps : (emissions keccak256 registered a structLogs).map Prod.fst =
      (List.range structLogs.length).flatMap (stepsAt keccak256 registered a structLogs) :=
    map_fst_emissions _ _ _
  cases hnil : structLogs with
  | nil => rfl
  | cons log rest =>
      rw [← hnil, recordFromStructlog_eq_eventsBefore _ _ _ (by simp [hnil]),
        filterMap_stepData_eventsBefore (Nat.le_refl _), hsteps]

/-- **De-stuttering**, of the whole trace. -/
theorem destuttered : Destuttered (mainPathOf a.sourcePaths)
    [visits keccak256 registered a structLogs]
    ((emissions keccak256 registered a structLogs).map Prod.fst)
    (emissions keccak256 registered a structLogs) := by
  refine .of_emissions ?_
  have hsucc : ∀ k, k + 1 < structLogs.length →
      prevLineBefore keccak256 registered a structLogs (k + 1) = if () = () then
        (visitAt keccak256 registered a structLogs k).loc.orElse fun _ =>
          prevLineBefore keccak256 registered a structLogs k else none := by
    intro k hk
    have hlog := List.getElem?_eq_getElem (Nat.lt_of_succ_lt hk)
    rw [if_pos rfl, prevLineBefore_succ hlog, visitAt_of_log hlog]
  have hchanges := changes_map_range (fun _ => ()) Visit.loc
    (visitAt keccak256 registered a structLogs) (prevLineBefore keccak256 registered a structLogs)
    rfl hsucc structLogs.length (Nat.le_refl _)
  have hrun : changes (fun _ => ()) Visit.loc {} (visits keccak256 registered a structLogs) = _ :=
    changes_of_run _ {} (fun _ _ => rfl) fun _ => rfl
  rw [List.flatMap_singleton, ← hrun, visits, hchanges, List.flatMap_assoc, emissions]
  refine List.flatMap_congr fun k hk => ?_
  exact emissionsAt_of_log (List.getElem?_eq_getElem (List.mem_range.mp hk))

/-- The visits of the only segment are the resolved locations of the trace. -/
theorem filterMap_loc_visits : (visits keccak256 registered a structLogs).filterMap Visit.loc =
    structLogs.filterMap fun log => a.resolvePc log.pc := by
  have hlocs : (visits keccak256 registered a structLogs).map Visit.loc =
      structLogs.map fun log => a.resolvePc log.pc := by
    refine List.ext_getElem (by simp [visits]) fun k hk hk' => ?_
    rw [List.length_map] at hk'
    simp [visits, visitAt_of_log (List.getElem?_eq_getElem hk')]
  calc (visits keccak256 registered a structLogs).filterMap Visit.loc
    _ = ((visits keccak256 registered a structLogs).map Visit.loc).filterMap id := by
        rw [List.filterMap_map]
        rfl
    _ = structLogs.filterMap fun log => a.resolvePc log.pc := by
        rw [hlocs, List.filterMap_map]
        rfl

theorem artifacts_of_mem_visits {v : Visit}
    (hv : v ∈ visits keccak256 registered a structLogs) : v.artifacts = a := by
  obtain ⟨k, hk, rfl⟩ := List.mem_map.mp hv
  rw [visitAt_of_log (List.getElem?_eq_getElem (List.mem_range.mp hk))]

/-- One contract is recorded with one set of artifacts. -/
theorem steps_changesOf_visits (mainPath : Path) :
    ((changesOf Visit.loc (visits keccak256 registered a structLogs)).flatMap fun v =>
        v.loc.toList.map (stepAt v.artifacts mainPath)) =
      ((structLogs.filterMap fun log => a.resolvePc log.pc).destutter (· ≠ ·)).map
        (stepAt a mainPath) := by
  rw [← @filterMap_loc_visits keccak256 registered, ← filterMap_changesOf,
    List.filterMap_eq_flatMap_toList, List.map_flatMap]
  refine List.flatMap_congr fun v hv => ?_
  rw [artifacts_of_mem_visits (List.mem_of_mem_filter ((List.destutter_sublist _ _).subset hv))]

end

end Recorder

/-! ## §3  The multi-contract recorder -/

namespace MultiRecorder

section

variable (keccak256 : List UInt8 → U256) (registered : List Path) (registry : ContractRegistry)
  (contractAddress : Address) (structLogs : List StructLog)

/-- The location a step at log `k` is compared with. -/
def prevLineBefore (k : Nat) : Option SourceLocation :=
  structLogs[k]?.elim none (prevLineAt keccak256 registered registry contractAddress structLogs k)

def visitAt (k : Nat) : Visit :=
  structLogs[k]?.elim ⟨0, {}, none, ∅⟩ fun log =>
    let a := artifactsAt keccak256 registered registry contractAddress structLogs k log
    ⟨log.depth, a, a.resolvePc log.pc,
      cachedAt keccak256 registered registry contractAddress structLogs k log⟩

def visits : List Visit :=
  (List.range structLogs.length).map
    (visitAt keccak256 registered registry contractAddress structLogs)

/-- The steps issued at log `k`, with the variables re-emitted there. -/
def emissionsAt (k : Nat) : List Emission :=
  (stepsAt keccak256 registered registry contractAddress structLogs k).map fun step =>
    (step, structLogs[k]?.elim []
      (reemittedAt keccak256 registered registry contractAddress structLogs k))

def emissions : List Emission :=
  (List.range structLogs.length).flatMap
    (emissionsAt keccak256 registered registry contractAddress structLogs)

/-- The local values read at log `k`. -/
def localsAtLog (k : Nat) (log : StructLog) : List (VarDecl × U256) :=
  let a := artifactsAt keccak256 registered registry contractAddress structLogs k log
  (a.resolvePc log.pc).elim [] fun loc => localsRead a log loc
    (enterDepth structLogs k log
      (stateBefore keccak256 registered registry contractAddress structLogs k))

variable {keccak256 registered registry contractAddress structLogs}

/-- The last location is forgotten when the depth changes. -/
theorem prevLine_enterDepth (i : Nat) (log : StructLog) (s : MultiRecorderState) :
    (enterDepth structLogs i log s).prevLine =
      if s.prevDepth = log.depth then s.prevLine else none := by
  unfold enterDepth
  rcases Nat.lt_trichotomy s.prevDepth log.depth with hrise | hsame | hfall
  · rw [if_pos hrise, if_neg hrise.ne]
    rfl
  · rw [if_neg hsame.not_lt, if_neg hsame.not_gt, if_pos hsame]
  · rw [if_neg hfall.asymm, if_pos hfall, if_neg hfall.ne']
    rfl

theorem prevLine_handleLocation {a : Artifacts} {mainPath : Path} (i : Nat) (log : StructLog)
    (s : MultiRecorderState) : (handleLocation mainPath structLogs a i log s).1.prevLine =
      (a.resolvePc log.pc).orElse fun _ => s.prevLine := by
  unfold handleLocation
  cases a.resolvePc log.pc with
  | none => rfl
  | some loc =>
      dsimp only [atLocation]
      unfold handleJump
      split <;> rfl

theorem visitAt_of_log {k : Nat} {log : StructLog} (hlog : structLogs[k]? = some log) :
    visitAt keccak256 registered registry contractAddress structLogs k =
      ⟨log.depth, artifactsAt keccak256 registered registry contractAddress structLogs k log,
        (artifactsAt keccak256 registered registry contractAddress structLogs k log).resolvePc
          log.pc,
        cachedAt keccak256 registered registry contractAddress structLogs k log⟩ := by
  rw [visitAt, hlog]
  rfl

theorem prevLineBefore_of_log {k : Nat} {log : StructLog} (hlog : structLogs[k]? = some log) :
    prevLineBefore keccak256 registered registry contractAddress structLogs k =
      prevLineAt keccak256 registered registry contractAddress structLogs k log := by
  rw [prevLineBefore, hlog]
  rfl

theorem prevLineBefore_zero :
    prevLineBefore keccak256 registered registry contractAddress structLogs 0 = none := by
  unfold prevLineBefore
  cases structLogs[0]? with
  | none => rfl
  | some log =>
      rw [Option.elim_some, prevLineAt, prevLine_enterDepth, stateBefore, Machine.stateBefore_zero]
      exact ite_self none

theorem prevLineBefore_succ {k : Nat} (hk : k + 1 < structLogs.length) :
    prevLineBefore keccak256 registered registry contractAddress structLogs (k + 1) =
      if (visitAt keccak256 registered registry contractAddress structLogs k).depth =
          (visitAt keccak256 registered registry contractAddress structLogs (k + 1)).depth then
        (visitAt keccak256 registered registry contractAddress structLogs k).loc.orElse fun _ =>
          prevLineBefore keccak256 registered registry contractAddress structLogs k
      else none := by
  have hlog := List.getElem?_eq_getElem (Nat.lt_of_succ_lt hk)
  have hnext := List.getElem?_eq_getElem hk
  rw [visitAt_of_log hlog, visitAt_of_log hnext, prevLineBefore_of_log hlog,
    prevLineBefore_of_log hnext, prevLineAt, prevLine_enterDepth, stateBefore,
    Machine.stateBefore_succ hlog]
  refine if_congr Iff.rfl ?_ rfl
  exact ((handleStorage_kept _ _ _).1).trans (prevLine_handleLocation _ _ _)

/-- The steps and re-emitted variables of one log. -/
theorem emissionsAt_of_log {k : Nat} {log : StructLog} (hlog : structLogs[k]? = some log) :
    emissionsAt keccak256 registered registry contractAddress structLogs k =
      ((visitAt keccak256 registered registry contractAddress structLogs k).loc.elim [] fun loc =>
        if prevLineBefore keccak256 registered registry contractAddress structLogs k = some loc
        then []
        else [(prevLineBefore keccak256 registered registry contractAddress structLogs k,
          visitAt keccak256 registered registry contractAddress structLogs k)]).flatMap fun c =>
            c.2.emission
              (Recorder.mainPathOf (initialArtifacts registry contractAddress).sourcePaths) c.1 := by
  rw [← emissions_of_change, visitAt_of_log hlog, prevLineBefore_of_log hlog, emissionsAt,
    stepsAt_of_log keccak256 registered registry contractAddress structLogs hlog rfl, hlog]
  rfl

theorem handleLocation_events (mainPath : Path) (a : Artifacts) (k : Nat) (log : StructLog)
    (s : MultiRecorderState) :
    ∃ tables jump, Issues [.lineTable] tables ∧ Issues [.setup, .argument, .call, .ret] jump ∧
      (handleLocation mainPath structLogs a k log s).2 = tables ++
        ((((a.resolvePc log.pc).elim [] (stepTo a mainPath s.prevLine)).map fun step =>
            (step, (a.resolvePc log.pc).elim [] fun loc => carriedForward s.prevLine loc
              (atLevel log.depth ∅ s.storageStates))).flatMap Emission.events ++
          (localEvents ((a.resolvePc log.pc).elim [] fun loc => localsRead a log loc s) ++
            jump)) := by
  unfold handleLocation
  cases a.resolvePc log.pc with
  | none => exact ⟨[], [], .nil, .nil, rfl⟩
  | some loc =>
      obtain ⟨tables, htables, hevents⟩ := emitStep_events a mainPath s.pathsWithLineLengths
        s.prevLine loc (atLevel log.depth ∅ s.storageStates)
      simp only [atLocation, hevents, List.append_assoc, Option.elim_some]
      exact ⟨tables, _, htables, issues_handleJump _ _ _ _ _ _ _, rfl⟩

/-- Where the emissions of a log stand in the recording. -/
theorem emissionsAt_recorded {k : Nat} {log : StructLog} (hlog : structLogs[k]? = some log) :
    ∃ block, eventsBefore keccak256 registered registry contractAddress structLogs (k + 1) =
        eventsBefore keccak256 registered registry contractAddress structLogs k ++ block ∧
      Recorded log (emissionsAt keccak256 registered registry contractAddress structLogs k)
        (localsAtLog keccak256 registered registry contractAddress structLogs k log) block := by
  refine ⟨_, eventsBefore_succ _ _ _ _ _ hlog, ?_⟩
  rw [emissionsAt,
    stepsAt_of_log keccak256 registered registry contractAddress structLogs hlog rfl, hlog]
  refine .of_located ((issues_depthEvents _ _ _).mono (by simp))
    (handleLocation_events _ _ k log (enterDepth structLogs k log _)) fun hnone => ?_
  rw [handleStorage, hnone]

theorem filterMap_stepData_eventsBefore {k : Nat} (hk : k ≤ structLogs.length) :
    (eventsBefore keccak256 registered registry contractAddress structLogs k).filterMap
        TraceEvent.stepData =
      (List.range k).flatMap
        (stepsAt keccak256 registered registry contractAddress structLogs) := by
  have hpreamble : (Recorder.preamble registered (initialArtifacts registry
      contractAddress)).filterMap TraceEvent.stepData = [] :=
    stepData_eq_nil (Recorder.issues_preamble registered _) (by decide)
  rw [eventsBefore, List.filterMap_append, hpreamble, List.nil_append]
  refine Machine.filterMap_outputBefore (fun k log hlog => ?_) k hk
  rw [stepsAt, hlog]
  rfl

/-- The steps of the recording are those of its emissions. -/
theorem steps_eq_emissions :
    (recordFromStructlogMultiContract keccak256 registered registry contractAddress
        structLogs).1.filterMap TraceEvent.stepData =
      (emissions keccak256 registered registry contractAddress structLogs).map Prod.fst := by
  have hsteps : (emissions keccak256 registered registry contractAddress structLogs).map Prod.fst =
      (List.range structLogs.length).flatMap
        (stepsAt keccak256 registered registry contractAddress structLogs) :=
    map_fst_emissions _ _ _
  cases hnil : structLogs with
  | nil => rfl
  | cons log rest =>
      rw [← hnil, events_eq_eventsBefore _ _ _ _ (by simp [hnil]),
        filterMap_stepData_eventsBefore (Nat.le_refl _), hsteps]

/-- **De-stuttering**, of each maximal run of logs at one depth. -/
theorem destuttered :
    Destuttered (Recorder.mainPathOf (initialArtifacts registry contractAddress).sourcePaths)
      (runs Visit.depth (visits keccak256 registered registry contractAddress structLogs))
      ((emissions keccak256 registered registry contractAddress structLogs).map Prod.fst)
      (emissions keccak256 registered registry contractAddress structLogs) := by
  refine .of_emissions ?_
  have hchanges := changes_map_range Visit.depth Visit.loc
    (visitAt keccak256 registered registry contractAddress structLogs)
    (prevLineBefore keccak256 registered registry contractAddress structLogs)
    prevLineBefore_zero (fun k hk => prevLineBefore_succ hk) structLogs.length (Nat.le_refl _)
  simp only [← List.flatMap_assoc]
  rw [← changes_eq, visits, hchanges, List.flatMap_assoc, emissions]
  refine List.flatMap_congr fun k hk => ?_
  exact emissionsAt_of_log (List.getElem?_eq_getElem (List.mem_range.mp hk))

end

/-! ## §4  Both recordings -/

/-- **Steps are de-stuttered locations.** The single-contract recording makes one
step at each resolved location that differs from the resolved location before it;
the multi-contract recording does so on each maximal run of logs at one depth. The
variables re-emitted behind a step are those cached for the frame, each once, when
the step before it in the run is on another line or there is none, and no others;
they follow the step, before the local values of the log. -/
theorem steps_destuttered (keccak256 : List UInt8 → U256) (registered : List Path) :
    (∀ (a : Artifacts) (structLogs : List StructLog),
      (recordFromStructlog keccak256 registered a structLogs).filterMap TraceEvent.stepData =
          ((structLogs.filterMap fun log => a.resolvePc log.pc).destutter (· ≠ ·)).map
            (stepAt a (Recorder.mainPathOf a.sourcePaths)) ∧
        Destuttered (Recorder.mainPathOf a.sourcePaths)
          [Recorder.visits keccak256 registered a structLogs]
          ((recordFromStructlog keccak256 registered a structLogs).filterMap TraceEvent.stepData)
          (Recorder.emissions keccak256 registered a structLogs) ∧
        ∀ k log, structLogs[k]? = some log →
          ∃ block, Recorder.eventsBefore keccak256 registered a structLogs (k + 1) =
              Recorder.eventsBefore keccak256 registered a structLogs k ++ block ∧
            Recorded log (Recorder.emissionsAt keccak256 registered a structLogs k)
              (Recorder.localsAtLog keccak256 registered a structLogs k log) block) ∧
      ∀ (registry : ContractRegistry) (contractAddress : Address) (structLogs : List StructLog),
        Destuttered (Recorder.mainPathOf (initialArtifacts registry contractAddress).sourcePaths)
          (runs Visit.depth (visits keccak256 registered registry contractAddress structLogs))
          ((recordFromStructlogMultiContract keccak256 registered registry contractAddress
            structLogs).1.filterMap TraceEvent.stepData)
          (emissions keccak256 registered registry contractAddress structLogs) ∧
        ∀ k log, structLogs[k]? = some log →
          ∃ block, eventsBefore keccak256 registered registry contractAddress structLogs (k + 1) =
              eventsBefore keccak256 registered registry contractAddress structLogs k ++ block ∧
            Recorded log
              (emissionsAt keccak256 registered registry contractAddress structLogs k)
              (localsAtLog keccak256 registered registry contractAddress structLogs k log)
              block := by
  constructor
  · intro a structLogs
    have hsteps := @Recorder.steps_eq_emissions keccak256 registered a structLogs
    have hdestuttered := @Recorder.destuttered keccak256 registered a structLogs
    refine ⟨?_, hsteps ▸ hdestuttered, fun k log hlog => Recorder.emissionsAt_recorded hlog⟩
    rw [hsteps, hdestuttered.steps, List.flatMap_singleton, Recorder.steps_changesOf_visits]
  · intro registry contractAddress structLogs
    have hsteps := @steps_eq_emissions keccak256 registered registry contractAddress structLogs
    exact ⟨hsteps ▸ destuttered, fun k log hlog => emissionsAt_recorded hlog⟩

end MultiRecorder

end EvmRecorder
