import EvmRecorder.Model.Recorder

/-!
# Which events a block can issue

The results about a recording look at one kind of event at a time: calls and
returns, steps and line tables, variables. Here each block of the recorder is
given the kinds it can issue, so that the others can be dropped from it without
looking into the block again.
-/

namespace EvmRecorder

inductive EventKind where
  | setup
  | lineTable
  | step
  | variable
  | argument
  | call
  | ret
  | special
deriving DecidableEq, Repr

def TraceEvent.kind : TraceEvent → EventKind
  | .start _ _ => .setup
  | .ensureTypeId _ => .setup
  | .ensureFunctionId _ => .setup
  | .registerPathWithLineLengths _ _ => .lineTable
  | .registerStepWithColumn _ _ _ => .step
  | .registerVariableWithFullValue _ _ => .variable
  | .arg _ _ => .argument
  | .registerCall _ => .call
  | .registerReturn _ => .ret
  | .registerSpecialEvent _ _ _ => .special

/-- All events are of the given kinds. -/
def Issues (kinds : List EventKind) (events : List TraceEvent) : Prop :=
  ∀ e ∈ events, e.kind ∈ kinds

namespace Issues

variable {kinds kinds' : List EventKind} {events events' : List TraceEvent}

theorem nil : Issues kinds [] := by
  intro e he
  cases he

theorem cons {e : TraceEvent} (he : e.kind ∈ kinds) (h : Issues kinds events) :
    Issues kinds (e :: events) := by
  intro e' he'
  rcases List.mem_cons.mp he' with rfl | he'
  · exact he
  · exact h e' he'

theorem append (h : Issues kinds events) (h' : Issues kinds events') :
    Issues kinds (events ++ events') := by
  intro e he
  rcases List.mem_append.mp he with he | he
  · exact h e he
  · exact h' e he

theorem mono (h : Issues kinds events) (hsub : kinds ⊆ kinds') : Issues kinds' events :=
  fun e he => hsub (h e he)

theorem flatMap {α : Type} {f : α → List TraceEvent} (h : ∀ x, Issues kinds (f x)) (xs : List α) :
    Issues kinds (xs.flatMap f) := by
  intro e he
  obtain ⟨x, -, he⟩ := List.mem_flatMap.mp he
  exact h x e he

theorem replicate {e : TraceEvent} (he : e.kind ∈ kinds) (n : Nat) :
    Issues kinds (List.replicate n e) := by
  intro e' he'
  rw [List.eq_of_mem_replicate he']
  exact he

/-- A view that ignores the kinds issued sees nothing. -/
theorem filterMap_eq_nil {α : Type} {view : TraceEvent → Option α} (h : Issues kinds events)
    (hview : ∀ e : TraceEvent, e.kind ∈ kinds → view e = none) : events.filterMap view = [] :=
  List.filterMap_eq_nil_iff.mpr fun e he => hview e (h e he)

end Issues

/-! ## The shared blocks -/

theorem issues_ensurePath (registered : List Path) (path : Path) (source : String) :
    Issues [.lineTable] (ensurePathWithLineLengths registered path source).2 := by
  unfold ensurePathWithLineLengths
  split
  · exact Issues.nil
  · exact .cons (by simp [TraceEvent.kind]) .nil

theorem issues_emitStep (a : Artifacts) (mainPath : Path) (registered : List Path)
    (prevLine : Option SourceLocation) (loc : SourceLocation) (storageState : NamedValues) :
    Issues [.lineTable, .step, .variable]
      (emitStep a mainPath registered prevLine loc storageState).2 := by
  unfold emitStep
  split
  · exact Issues.nil
  · refine Issues.append (Issues.append ?_ ?_) ?_
    · split
      · exact (issues_ensurePath _ _ _).mono (by simp)
      · exact Issues.nil
    · exact .cons (by simp [TraceEvent.kind]) .nil
    · intro e he
      obtain ⟨x, -, rfl⟩ := List.mem_map.mp he
      simp [TraceEvent.kind]

theorem issues_localEvents (values : List (VarDecl × U256)) :
    Issues [.setup, .variable] (localEvents values) :=
  .flatMap (fun (_, _) => .cons (by simp [TraceEvent.kind]) (.cons (by simp [TraceEvent.kind]) .nil))
    values

theorem issues_stageInternalCallArgs (tracker : StackTracker) (target : Option FunctionDef)
    (concreteStack : Option (List U256)) (above : Nat) :
    Issues [.setup, .argument] (stageInternalCallArgs tracker target concreteStack above).2 := by
  unfold stageInternalCallArgs
  split
  · dsimp only
    split
    · exact .nil
    · exact .flatMap (fun (_, _) =>
        .cons (by simp [TraceEvent.kind]) (.cons (by simp [TraceEvent.kind]) .nil)) _
  · exact .nil

theorem issues_enterInternalCall (a : Artifacts) (mainPath : Path) (structLogs : List StructLog)
    (i : Nat) (log : StructLog) (loc : SourceLocation) (tracker : StackTracker) :
    Issues [.setup, .argument, .call]
      (enterInternalCall a mainPath structLogs i log loc tracker).2 := by
  unfold enterInternalCall
  refine Issues.append (Issues.append ?_ ?_) ?_
  · exact .cons (by simp [TraceEvent.kind]) .nil
  · exact (issues_stageInternalCallArgs _ _ _ _).mono (by simp)
  · exact .cons (by simp [TraceEvent.kind]) .nil

theorem issues_buildCompoundValue (parentTi : StorageTypeInfo) (baseSlot slotCount : Nat)
    (slotValues : SlotValues) :
    Issues [.setup] (buildCompoundValue parentTi baseSlot slotCount slotValues).1 := by
  have huint : EventKind.setup ∈ [EventKind.setup] := List.mem_singleton.mpr rfl
  unfold buildCompoundValue
  split
  · exact .cons huint (.cons huint .nil)
  · split
    · exact .cons huint (.cons huint .nil)
    · exact .cons huint .nil

theorem issues_writeSnapshot (layout : Option StorageLayout) (slot : U256)
    (slotValues : SlotValues) : Issues [.setup] (writeSnapshot layout slot slotValues).1 := by
  unfold writeSnapshot
  split
  · unfold compoundSnapshot
    split
    · exact issues_buildCompoundValue _ _ _ _
    · exact Issues.nil
  · exact Issues.nil

theorem issues_recordStorageWrite (layout : Option StorageLayout) (names : MappingSlotNames)
    (slot value : U256) (storageState : NamedValues) (slotValues : SlotValues) :
    Issues [.setup, .variable]
      (recordStorageWrite layout names slot value storageState slotValues).2.2 := by
  have hwrite : ∀ typeId name val, Issues [.setup, .variable]
      [.ensureTypeId typeId, .registerVariableWithFullValue name val] :=
    fun _ _ _ => .cons (by simp [TraceEvent.kind]) (.cons (by simp [TraceEvent.kind]) .nil)
  have hsnapshot : ∀ values, Issues [.setup, .variable] (writeSnapshot layout slot values).1 :=
    fun values => (issues_writeSnapshot layout slot values).mono (by simp)
  unfold recordStorageWrite
  dsimp only
  split
  · exact ((hwrite _ _ _).append (hsnapshot _)).append (.cons (by simp [TraceEvent.kind]) .nil)
  · exact (hwrite _ _ _).append (hsnapshot _)

theorem issues_specialEvents (log : StructLog) : Issues [.special] (specialEvents log) := by
  intro e he
  simp only [specialEvents, List.mem_append, List.mem_map] at he
  rcases he with (⟨x, -, rfl⟩ | ⟨x, -, rfl⟩) | ⟨x, -, rfl⟩ <;> simp [TraceEvent.kind]

/-- The block of a resolved location: the step, the local variables and the jump. -/
theorem issues_located (a : Artifacts) (mainPath : Path) (registered : List Path)
    (prevLine : Option SourceLocation) (loc : SourceLocation) (storageState : NamedValues)
    (values : List (VarDecl × U256)) {jump : List TraceEvent}
    (hjump : Issues [.setup, .argument, .call, .ret] jump) :
    Issues [.lineTable, .step, .variable, .setup, .argument, .call, .ret]
      ((emitStep a mainPath registered prevLine loc storageState).2 ++ localEvents values ++
        jump) :=
  (((issues_emitStep a mainPath registered prevLine loc storageState).mono (by simp)).append
    ((issues_localEvents values).mono (by simp))).append (hjump.mono (by simp))

/-! ## Blocks of the single-contract recorder -/

namespace Recorder

theorem issues_revertCaught (structLogs : List StructLog) (i prevDepth : Nat) :
    Issues [.special] (revertCaught structLogs i prevDepth) := by
  unfold revertCaught
  split
  · split
    · exact .cons (by simp [TraceEvent.kind]) .nil
    · exact Issues.nil
  · exact Issues.nil

theorem issues_depthEvents (a : Artifacts) (mainPath : Path) (structLogs : List StructLog)
    (i : Nat) (log : StructLog) (s : RecorderState) :
    Issues [.setup, .call, .ret, .special] (depthEvents a mainPath structLogs i log s) := by
  unfold depthEvents
  split
  · exact .cons (by simp [TraceEvent.kind]) (.cons (by simp [TraceEvent.kind]) .nil)
  · split
    · exact ((issues_revertCaught _ _ _).mono (by simp)).append
        (.replicate (by simp [TraceEvent.kind]) _)
    · exact Issues.nil

theorem issues_handleJump (a : Artifacts) (mainPath : Path) (structLogs : List StructLog) (i : Nat)
    (log : StructLog) (loc : SourceLocation) (s : RecorderState) :
    Issues [.setup, .argument, .call, .ret] (handleJump a mainPath structLogs i log loc s).2 := by
  unfold handleJump
  split
  · unfold jumpInto
    split
    · exact (issues_enterInternalCall _ _ _ _ _ _ _).mono (by simp)
    · dsimp only
      split
      · exact .cons (by simp [TraceEvent.kind]) .nil
      · exact Issues.nil
  · unfold jumpOutOf
    dsimp only
    split
    · exact Issues.nil
    · exact .cons (by simp [TraceEvent.kind]) .nil
  · exact Issues.nil

theorem issues_handleLocation (a : Artifacts) (mainPath : Path) (structLogs : List StructLog)
    (i : Nat) (log : StructLog) (s : RecorderState) :
    Issues [.lineTable, .step, .variable, .setup, .argument, .call, .ret]
      (handleLocation a mainPath structLogs i log s).2 := by
  unfold handleLocation
  split
  · exact issues_located _ _ _ _ _ _ _ (issues_handleJump _ _ _ _ _ _ _)
  · exact Issues.nil

theorem issues_handleStorage (keccak256 : List UInt8 → U256) (a : Artifacts) (log : StructLog)
    (s : RecorderState) : Issues [.setup, .variable] (handleStorage keccak256 a log s).2 := by
  unfold handleStorage
  dsimp only
  split
  · exact issues_recordStorageWrite _ _ _ _ _ _
  · exact Issues.nil

theorem issues_preamble (registered : List Path) (a : Artifacts) :
    Issues [.lineTable, .setup] (preamble registered a) := by
  unfold preamble
  refine Issues.append ?_ ?_
  · unfold registerMain
    split
    · exact (issues_ensurePath _ _ _).mono (by simp)
    · exact Issues.nil
  · exact .cons (by simp [TraceEvent.kind]) (.cons (by simp [TraceEvent.kind]) .nil)

end Recorder

end EvmRecorder
