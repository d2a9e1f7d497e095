import EvmRecorder.Library.Replay
import EvmRecorder.MultiRecorder.CarryForward
import EvmRecorder.MultiRecorder.LocalParity

/-!
# What a reader of a recording shows

A debugger shows, of each variable name, the last value recorded for it. For names
that no local variable has, this is the value in the recorder's storage cache: at any
place of a recording of the single-contract recorder, and in one of the multi-contract
recorder, which has a cache for every frame, from a frame's first step on, as every
change of depth makes the next step carry the frame's cache forward.
-/

namespace EvmRecorder

open Levels Replay

/-! ## §1  Shown values -/

/-- What is shown after the events, if `shown` was before. -/
def shownAfter (shown : String → Option ValueRecord) (events : List TraceEvent) :
    String → Option ValueRecord :=
  replay shown (events.filterMap TraceEvent.variableData)

/-- No parameter and no local variable in the contract's AST has the name. -/
def NoLocal (a : Artifacts) (name : String) : Prop :=
  ∀ ast ∈ a.solidityAst, ∀ func ∈ ast.functions,
    ∀ var ∈ func.parameters ++ func.localVariables, var.name ≠ name

section Blocks

variable {name : String} {shown : String → Option ValueRecord} {a : Artifacts}

theorem shownAfter_append (shown : String → Option ValueRecord) (events events' : List TraceEvent) :
    shownAfter shown (events ++ events') = shownAfter (shownAfter shown events) events' := by
  rw [shownAfter, List.filterMap_append, replay_append]
  rfl

/-- Events of other kinds show nothing. -/
theorem shownAfter_issues {kinds : List EventKind} {events : List TraceEvent}
    (h : Issues kinds events) (hkinds : .variable ∉ kinds) (shown : String → Option ValueRecord) :
    shownAfter shown events = shown := by
  have hnone : events.filterMap TraceEvent.variableData = [] := by
    refine h.filterMap_eq_nil fun e he => ?_
    cases e with
    | registerVariableWithFullValue => exact absurd he hkinds
    | _ => rfl
  rw [shownAfter, hnone, replay_nil]

theorem mem_inScope_of_mem_localValues {tracker : StackTracker} {inScope : List VarDecl}
    {stack : Option (List U256)} {e : VarDecl × U256} (h : e ∈ localValues tracker inScope stack) :
    e.1 ∈ inScope := by
  unfold localValues at h
  split at h
  · obtain ⟨var, hvar, hvalue⟩ := List.mem_filterMap.mp h
    obtain ⟨value, -, rfl⟩ := Option.map_eq_some_iff.mp hvalue
    exact hvar
  · cases h

theorem shownAfter_localsAt (hlocal : NoLocal a name) (log : StructLog) (loc : SourceLocation)
    (tracker : StackTracker) (stack : Option (List U256)) :
    shownAfter shown (localEvents (localsAt a log loc tracker stack)) name = shown name := by
  rw [shownAfter, variableData_localEvents]
  apply replay_of_ne
  intro write hwrite
  obtain ⟨⟨var, value⟩, hvalue, rfl⟩ := List.mem_map.mp hwrite
  show var.name ≠ name
  unfold localsAt at hvalue
  split at hvalue
  · next opcode func srcOff hop hfunc =>
      simp only [enclosingFunction, Option.bind_eq_bind, Option.bind_eq_some_iff] at hfunc
      obtain ⟨ast, hast, off, -, found, hfound, heq⟩ := hfunc
      obtain ⟨rfl, rfl⟩ := Prod.mk.inj (Option.some.inj heq)
      have hmem : found ∈ ast.functions :=
        List.mem_of_mem_filter (List.minOn?_mem hfound)
      refine hlocal ast hast found hmem var ?_
      rcases List.mem_append.mp (mem_inScope_of_mem_localValues hvalue) with hvar | hvar
      · exact List.mem_append_left _ hvar
      · exact List.mem_append_right _ (List.mem_of_mem_filter hvar)
  · cases hvalue

theorem variableData_map_variableEvent (writes : List (String × ValueRecord)) :
    (writes.map variableEvent).filterMap TraceEvent.variableData = writes := by
  rw [List.filterMap_map]
  exact List.filterMap_some

/-- A step shows what it carries forward: the whole cache when the line changes. -/
theorem shownAfter_emitStep (mainPath : Path) (registered : List Path)
    (prevLine : Option SourceLocation) (loc : SourceLocation) (storageState : NamedValues) :
    shownAfter shown (emitStep a mainPath registered prevLine loc storageState).2 name =
      if lineChanged prevLine loc then (storageState.lookup name).or (shown name)
      else shown name := by
  have hsame : prevLine = some loc → lineChanged prevLine loc = false := by
    rintro rfl
    simp [lineChanged]
  unfold emitStep
  by_cases hprev : prevLine = some loc
  · rw [if_pos hprev, hsame hprev]
    rfl
  · rw [if_neg hprev]
    have hstep : Issues [.step]
        [.registerStepWithColumn (a.pathOf mainPath loc.fileIndex) loc.line (loc.column + 1)] :=
      .cons (by simp [TraceEvent.kind]) .nil
    have hcarried : replay shown (carriedForward prevLine loc storageState) name =
        if lineChanged prevLine loc then (storageState.lookup name).or (shown name)
        else shown name := by
      rw [carriedForward]
      by_cases hline : lineChanged prevLine loc = true
      · rw [if_pos hline, if_pos (by simp [hprev, hline])]
        exact replay_entries shown storageState.nodupKeys
      · rw [if_neg hline, if_neg (by simp [hline]), replay_nil]
    have hevents : ∀ table, Issues [.lineTable] table →
        shownAfter shown (table ++
          [.registerStepWithColumn (a.pathOf mainPath loc.fileIndex) loc.line (loc.column + 1)] ++
            (carriedForward prevLine loc storageState).map variableEvent) name =
          replay shown (carriedForward prevLine loc storageState) name := by
      intro table htable
      rw [shownAfter_append, shownAfter_append, shownAfter_issues htable (by decide),
        shownAfter_issues hstep (by decide), shownAfter, variableData_map_variableEvent]
    rw [← hcarried]
    dsimp only
    cases a.sourceContents[asUsize loc.fileIndex]? with
    | none => exact hevents [] Issues.nil
    | some src => exact hevents _ (issues_ensurePath _ _ _)

/-- What is shown under the name follows the cache: both are as before, or both are
the same new value. -/
def Follows (name : String) (cache : NamedValues) (shown : String → Option ValueRecord)
    (cache' : NamedValues) (shown' : String → Option ValueRecord) : Prop :=
  (cache'.lookup name = cache.lookup name ∧ shown' name = shown name) ∨
    ∃ v, cache'.lookup name = some v ∧ shown' name = some v

theorem Follows.trans {cache cache' cache'' : NamedValues}
    {shown shown' shown'' : String → Option ValueRecord}
    (h : Follows name cache shown cache' shown')
    (h' : Follows name cache' shown' cache'' shown'') :
    Follows name cache shown cache'' shown'' := by
  rcases h' with ⟨hcache', hshown'⟩ | hnew
  · rcases h with ⟨hcache, hshown⟩ | ⟨v, hcache, hshown⟩
    · exact .inl ⟨hcache'.trans hcache, hshown'.trans hshown⟩
    · exact .inr ⟨v, hcache'.trans hcache, hshown'.trans hshown⟩
  · exact .inr hnew

theorem follows_insert (cache : NamedValues) (key : String) (v : ValueRecord)
    (shown : String → Option ValueRecord) :
    Follows name cache shown (cache.insert key v)
      (shownAfter shown [.registerVariableWithFullValue key v]) := by
  by_cases hkey : name = key
  · refine .inr ⟨v, ?_, ?_⟩
    · rw [hkey, AList.lookup_insert]
    · show Function.update shown key (some v) name = some v
      rw [hkey, Function.update_self]
  · exact .inl ⟨AList.lookup_insert_ne hkey, Function.update_of_ne hkey _ _⟩

/-- A storage write shows what it caches. -/
theorem follows_recordStorageWrite (layout : Option StorageLayout) (names : MappingSlotNames)
    (slot value : U256) (storageState : NamedValues) (slotValues : SlotValues)
    (shown : String → Option ValueRecord) :
    Follows name storageState shown
      (recordStorageWrite layout names slot value storageState slotValues).1
      (shownAfter shown
        (recordStorageWrite layout names slot value storageState slotValues).2.2) := by
  let varName := storageVarName layout names slot
  let val := slotRecord layout slot value
  let snapshot := writeSnapshot layout slot (cacheSlotValue layout slot value slotValues)
  have htype : Issues [.setup] [.ensureTypeId ⟨.int, storageTypeName layout slot⟩] :=
    .cons (by simp [TraceEvent.kind]) .nil
  have hwritten : shownAfter shown ([.ensureTypeId ⟨.int, storageTypeName layout slot⟩,
      .registerVariableWithFullValue varName val] ++ snapshot.1) =
        shownAfter shown [.registerVariableWithFullValue varName val] := by
    rw [← List.singleton_append, shownAfter_append, shownAfter_append,
      shownAfter_issues htype (by decide),
      shownAfter_issues (issues_writeSnapshot _ _ _) (by decide)]
  have hfirst : Follows name storageState shown (storageState.insert varName val)
      (shownAfter shown ([.ensureTypeId ⟨.int, storageTypeName layout slot⟩,
        .registerVariableWithFullValue varName val] ++ snapshot.1)) := by
    rw [hwritten]
    exact follows_insert storageState varName val shown
  unfold recordStorageWrite
  dsimp only
  cases hsnapshot : snapshot.2 with
  | none => exact hfirst
  | some compound =>
      obtain ⟨label, record⟩ := compound
      dsimp only
      rw [shownAfter_append]
      exact hfirst.trans (follows_insert _ label record _)

end Blocks

/-! ## §2  The single-contract recorder -/

namespace Recorder

variable {name : String} {a : Artifacts}

theorem shownAfter_handleLocation (hlocal : NoLocal a name) (mainPath : Path)
    (structLogs : List StructLog) (i : Nat) (log : StructLog) (s : RecorderState)
    {shown : String → Option ValueRecord} (hshown : shown name = s.storageState.lookup name) :
    shownAfter shown (handleLocation a mainPath structLogs i log s).2 name =
      s.storageState.lookup name := by
  unfold handleLocation
  cases a.resolvePc log.pc with
  | none => exact hshown
  | some loc =>
      dsimp only [atLocation]
      rw [shownAfter_append, shownAfter_append,
        shownAfter_issues (issues_handleJump _ _ _ _ _ _ _) (by decide), localsRead,
        shownAfter_localsAt hlocal, shownAfter_emitStep, hshown, Option.or_self, ite_self]

theorem follows_handleStorage (keccak256 : List UInt8 → U256) (a : Artifacts) (log : StructLog)
    (s : RecorderState) (shown : String → Option ValueRecord) :
    Follows name s.storageState shown (handleStorage keccak256 a log s).1.storageState
      (shownAfter shown (handleStorage keccak256 a log s).2) := by
  unfold handleStorage
  dsimp only
  cases storageWrite log with
  | none => exact .inl ⟨rfl, rfl⟩
  | some write => exact follows_recordStorageWrite _ _ _ _ _ _ _

/-- A log: what is shown under the name stays what is cached. -/
theorem shownAfter_step (keccak256 : List UInt8 → U256) (hlocal : NoLocal a name)
    (mainPath : Path) (structLogs : List StructLog) (i : Nat) (log : StructLog)
    {s : RecorderState} {shown : String → Option ValueRecord}
    (hshown : shown name = s.storageState.lookup name) :
    shownAfter shown (step keccak256 a mainPath structLogs i log s).2 name =
      (step keccak256 a mainPath structLogs i log s).1.storageState.lookup name := by
  let located := handleLocation a mainPath structLogs i log (enterDepth log s)
  have hsame : located.1.storageState = s.storageState :=
    (@storage_handleLocation a structLogs mainPath i log (enterDepth log s)).1
  have hlocated := shownAfter_handleLocation hlocal mainPath structLogs i log (enterDepth log s)
    hshown
  dsimp only [step]
  rw [shownAfter_append, shownAfter_append, shownAfter_append,
    shownAfter_issues (issues_specialEvents _) (by decide),
    shownAfter_issues (issues_depthEvents _ _ _ _ _ _) (by decide)]
  rcases @follows_handleStorage name keccak256 a log located.1
    (shownAfter shown located.2) with ⟨hcache, hkept⟩ | ⟨v, hcache, hnew⟩
  · refine hkept.trans (hlocated.trans ?_)
    exact (hcache.trans (congrArg (AList.lookup name) hsame)).symm
  · exact hnew.trans hcache.symm

variable (keccak256 : List UInt8 → U256) (registered : List Path) {structLogs : List StructLog}

theorem shownAfter_eventsBefore (hlocal : NoLocal a name) : ∀ k, k ≤ structLogs.length →
    shownAfter (fun _ => none) (eventsBefore keccak256 registered a structLogs k) name =
      (stateBefore keccak256 registered a structLogs k).storageState.lookup name
  | 0, _ => by
      rw [eventsBefore, stateBefore, Machine.outputBefore_zero, Machine.stateBefore_zero,
        List.append_nil, shownAfter_issues (issues_preamble _ _) (by decide)]
      rfl
  | k + 1, hk => by
      have hlog : structLogs[k]? = some structLogs[k] := List.getElem?_eq_getElem hk
      have hstate : stateBefore keccak256 registered a structLogs (k + 1) = _ :=
        Machine.stateBefore_succ hlog
      rw [eventsBefore_succ keccak256 registered a structLogs hlog, hstate, shownAfter_append]
      exact shownAfter_step keccak256 hlocal _ structLogs k _
        (shownAfter_eventsBefore hlocal k (Nat.le_of_lt hk))

end Recorder

/-! ## §3  The multi-contract recorder -/

namespace MultiRecorder

variable {name : String} {a : Artifacts}

/-- Since the last change of depth a step was recorded, and of the frame's cache
everything under the name is shown. -/
def FrameShown (name : String) (shown : String → Option ValueRecord) (d : Nat)
    (s : MultiRecorderState) : Prop :=
  s.prevLine.isSome → ∀ v, (atLevel d ∅ s.storageStates).lookup name = some v →
    shown name = some v

/-- A change of depth asks for nothing until the next step. -/
theorem FrameShown.enterDepth {shown : String → Option ValueRecord} {s : MultiRecorderState}
    (h : FrameShown name shown s.prevDepth s) (structLogs : List StructLog) (i : Nat)
    (log : StructLog) : FrameShown name shown log.depth (enterDepth structLogs i log s) := by
  unfold MultiRecorder.enterDepth
  dsimp only
  rcases Nat.lt_trichotomy s.prevDepth log.depth with hlt | heq | hgt
  · rw [if_pos hlt]
    intro hsome
    cases hsome
  · rw [if_neg (Nat.not_lt.mpr heq.ge), if_neg (Nat.not_lt.mpr heq.le), ← heq]
    exact h
  · rw [if_neg (Nat.lt_asymm hgt), if_pos hgt]
    intro hsome
    cases hsome

theorem FrameShown.handleLocation (hlocal : NoLocal a name) {log : StructLog}
    {shown : String → Option ValueRecord} {s : MultiRecorderState}
    (h : FrameShown name shown log.depth s) (mainPath : Path) (structLogs : List StructLog)
    (i : Nat) :
    FrameShown name (shownAfter shown (handleLocation mainPath structLogs a i log s).2) log.depth
      (handleLocation mainPath structLogs a i log s).1 := by
  have hsame := (sameStorage_handleLocation mainPath structLogs a i log s).storageStates
  unfold FrameShown
  rw [hsame]
  unfold MultiRecorder.handleLocation
  cases a.resolvePc log.pc with
  | none => exact h
  | some loc =>
      intro _ v hcached
      dsimp only [atLocation]
      rw [shownAfter_append, shownAfter_append,
        shownAfter_issues (issues_handleJump _ _ _ _ _ _ _) (by decide), localsRead,
        shownAfter_localsAt hlocal, shownAfter_emitStep, hcached]
      cases hprev : s.prevLine with
      | none => rfl
      | some prev =>
          have hshown : shown name = some v := h (by rw [hprev]; rfl) v hcached
          rw [hshown, Option.or_self, ite_self]

theorem FrameShown.handleStorage (keccak256 : List UInt8 → U256) (a : Artifacts)
    {log : StructLog} (hpos : 1 ≤ log.depth) {shown : String → Option ValueRecord}
    {s : MultiRecorderState} (hlen : Lockstep log.depth s)
    (h : FrameShown name shown log.depth s) :
    FrameShown name (shownAfter shown (handleStorage keccak256 a log s).2) log.depth
      (handleStorage keccak256 a log s).1 := by
  unfold MultiRecorder.handleStorage
  dsimp only
  rw [growTo_of_le hlen.storageStates.ge]
  cases storageWrite log with
  | none => exact h
  | some write =>
      intro hsome v hcached
      dsimp only at hcached ⊢
      rw [atLevel_setLevel_self hpos hlen.storageStates.ge] at hcached
      rcases @follows_recordStorageWrite name _ _ write.1 write.2 _ _ shown with
        ⟨hcache, hkept⟩ | ⟨w, hcache, hnew⟩
      · exact hkept.trans (h hsome v (hcache.symm.trans hcached))
      · exact hnew.trans (hcache.symm.trans hcached)

/-- No contract of the registry has a local variable of this name. -/
def NoLocals (registry : ContractRegistry) (name : String) : Prop :=
  ∀ entry ∈ registry.contracts, NoLocal entry.2.artifacts name

theorem aboutSources_noLocal : AboutSources fun a => NoLocal a name where
  unknown _ hast := by cases hast
  layout _ _ h := h
  index _ _ h := h

section Runs

variable {keccak256 : List UInt8 → U256} {registered : List Path} {registry : ContractRegistry}
  {contractAddress : Address} {structLogs : List StructLog}

/-- A log of a frame. -/
theorem FrameShown.stepOf (hlocals : NoLocals registry name)
    (hdepths : LegalDepths (structLogs.map (·.depth))) {k : Nat} {log : StructLog}
    (hlog : structLogs[k]? = some log) {s : MultiRecorderState}
    (hframes : FramesBefore registry contractAddress structLogs k s)
    {shown : String → Option ValueRecord} (h : FrameShown name shown s.prevDepth s) :
    FrameShown name
      (shownAfter shown (stepOf keccak256 registry contractAddress structLogs k log s).2) log.depth
      (stepOf keccak256 registry contractAddress structLogs k log s).1 := by
  let initial := initialArtifacts registry contractAddress
  let mainPath := Recorder.mainPathOf initial.sourcePaths
  let entered := MultiRecorder.enterDepth structLogs k log s
  let current := currentArtifacts registry initial contractAddress entered.frameStack
  obtain ⟨hpos, hlen, -⟩ := hframes.enterDepth hdepths hlog
  have hlocated := (h.enterDepth structLogs k log).handleLocation
    (aboutSources_noLocal.artifactsOn contractAddress hlocals entered.frameStack) mainPath structLogs k
  have hstored := hlocated.handleStorage keccak256 current hpos
    ((sameStorage_handleLocation mainPath structLogs current k log entered).lockstep hlen)
  unfold MultiRecorder.stepOf
  dsimp only [step]
  rw [shownAfter_append, shownAfter_append, shownAfter_append,
    shownAfter_issues (issues_specialEvents _) (by decide),
    shownAfter_issues (issues_depthEvents _ _ _) (by decide)]
  exact hstored

theorem frameShown_eventsBefore (hlocals : NoLocals registry name)
    (hdepths : LegalDepths (structLogs.map (·.depth))) : ∀ k, k ≤ structLogs.length →
      FrameShown name
        (shownAfter (fun _ => none)
          (eventsBefore keccak256 registered registry contractAddress structLogs k))
        (stateBefore keccak256 registered registry contractAddress structLogs k).prevDepth
        (stateBefore keccak256 registered registry contractAddress structLogs k)
  | 0, _ => by
      rw [stateBefore, Machine.stateBefore_zero]
      intro hsome
      cases hsome
  | k + 1, hk => by
      have hlog : structLogs[k]? = some structLogs[k] := List.getElem?_eq_getElem hk
      have hstate : stateBefore keccak256 registered registry contractAddress structLogs (k + 1) =
          _ := Machine.stateBefore_succ hlog
      have hframes : FramesBefore registry contractAddress structLogs k
          (stateBefore keccak256 registered registry contractAddress structLogs k) :=
        framesBefore_stateBefore hdepths k (Nat.le_of_lt hk)
      rw [eventsBefore_succ keccak256 registered registry contractAddress structLogs hlog, hstate,
        shownAfter_append]
      exact (frameShown_eventsBefore hlocals hdepths k (Nat.le_of_lt hk)).stepOf hlocals hdepths
        hlog hframes

end Runs

end MultiRecorder

/-! ## §4  Recordings -/

/-- **What is shown is what is cached.** After the events before log `k`, the last value
recorded under a name that no local variable has is the value in the recorder's storage
cache; for the multi-contract recorder, everything that the executing frame's cache has
under the name, once a step of the frame was recorded since the last change of depth. -/
theorem shown_is_cached (keccak256 : List UInt8 → U256) (registered : List Path)
    {structLogs : List StructLog} {k : Nat} (hk : k ≤ structLogs.length) {name : String} :
    (∀ a, NoLocal a name →
      shownAfter (fun _ => none) (Recorder.eventsBefore keccak256 registered a structLogs k) name =
        (Recorder.stateBefore keccak256 registered a structLogs k).storageState.lookup name) ∧
    (∀ registry contractAddress, MultiRecorder.NoLocals registry name →
      LegalDepths (structLogs.map (·.depth)) →
        let s := MultiRecorder.stateBefore keccak256 registered registry contractAddress structLogs k
        s.prevLine.isSome → ∀ v, (atLevel s.prevDepth ∅ s.storageStates).lookup name = some v →
          shownAfter (fun _ => none)
            (MultiRecorder.eventsBefore keccak256 registered registry contractAddress
              structLogs k) name = some v) :=
  ⟨fun _ hlocal => Recorder.shownAfter_eventsBefore keccak256 registered hlocal k hk,
    fun _ _ hlocals hdepths => MultiRecorder.frameShown_eventsBefore hlocals hdepths k hk⟩

/-- Back in the caller, its own value is shown again. -/
theorem shown_is_cached_delegateWrite :
    shownAfter (fun _ => none) (MultiRecorder.eventsBefore (fun _ => 0) []
        MultiRecorder.counterRegistry 1 MultiRecorder.delegateWrite 4) "x" =
      some (slotRecord (some Recorder.counterLayout) 0 1) := by
  have hlocals : MultiRecorder.NoLocals MultiRecorder.counterRegistry "x" := by
    intro entry hentry ast hast
    rcases List.mem_pair.mp hentry with rfl | rfl
    · cases hast
    · cases hast
  exact (shown_is_cached (fun _ => 0) [] (by decide)).2 MultiRecorder.counterRegistry 1 hlocals
    (by decide) (by decide) _ (by decide)

end EvmRecorder
