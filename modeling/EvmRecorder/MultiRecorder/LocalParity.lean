import EvmRecorder.Library.Marked
import EvmRecorder.MultiRecorder.Frames
import EvmRecorder.MultiRecorder.Events
import EvmRecorder.Recorder.Alignment
import EvmRecorder.StackTracker.Labels

/-!
# Local variables in the two recorders

Both loops move a symbolic stack past the opcode of a log and then look up the
variables in scope. The single-contract recorder looks in the next log's stack,
which is the stack after the opcode; the multi-contract recorder looks in the
log's own stack. On a trace of one frame without jump markers everything else
coincides, so the recordings agree exactly when, on every visit of a source
location, both stacks hold the same words for the variables. The words of a variable
are followed in the trace alone; instructions that do not write their positions leave
both stacks alike.
-/

namespace EvmRecorder

open Evm Levels Marked Stack StackTracker

/-! ## §1  Steps and local variables of a recording -/

/-- Path, line and column of a step. -/
abbrev StepData : Type := Path × Nat × Nat

abbrev LocalEvent : Type := StepData ⊕ (String × ValueRecord)

def TraceEvent.stepData : TraceEvent → Option StepData
  | .registerStepWithColumn path line column => some (path, line, column)
  | _ => none

def TraceEvent.variableData : TraceEvent → Option (String × ValueRecord)
  | .registerVariableWithFullValue name value => some (name, value)
  | _ => none

/-- A step or a variable of any kind. -/
def TraceEvent.localEvent (e : TraceEvent) : Option LocalEvent :=
  (e.stepData.map .inl).orElse fun _ => e.variableData.map .inr

theorem stepData_eq_nil {kinds : List EventKind} {events : List TraceEvent}
    (h : Issues kinds events) (hstep : .step ∉ kinds) :
    events.filterMap TraceEvent.stepData = [] := by
  refine h.filterMap_eq_nil fun e he => ?_
  cases e <;> first | rfl | exact absurd he hstep

theorem stepData_sublist (events : List TraceEvent) :
    ((events.filterMap TraceEvent.stepData).map .inl).Sublist
      (events.filterMap TraceEvent.localEvent) := by
  induction events with
  | nil => exact .slnil
  | cons e events ih =>
      cases e with
      | registerStepWithColumn path line column => exact ih.cons_cons (.inl (path, line, column))
      | registerVariableWithFullValue name value => exact ih.cons (.inr (name, value))
      | _ => exact ih

theorem variableData_sublist (events : List TraceEvent) :
    ((events.filterMap TraceEvent.variableData).map .inr).Sublist
      (events.filterMap TraceEvent.localEvent) := by
  induction events with
  | nil => exact .slnil
  | cons e events ih =>
      cases e with
      | registerStepWithColumn path line column => exact ih.cons (.inl (path, line, column))
      | registerVariableWithFullValue name value => exact ih.cons_cons (.inr (name, value))
      | _ => exact ih

/-- Name and value that a local is emitted with. -/
def localPair (e : VarDecl × U256) : String × ValueRecord :=
  (e.1.name, valueRecordForLocal e.2 e.1.typeName
    ⟨typeKindForSolidityType e.1.typeName, e.1.typeName⟩)

theorem variableData_localEvents (values : List (VarDecl × U256)) :
    (localEvents values).filterMap TraceEvent.variableData = values.map localPair := by
  induction values with
  | nil => rfl
  | cons e values ih =>
      rw [localEvents, List.flatMap_cons, List.filterMap_append, ← localEvents, ih]
      rfl

/-- The step of a move to another location. -/
def stepTo (a : Artifacts) (mainPath : Path) (prevLine : Option SourceLocation)
    (loc : SourceLocation) : List StepData :=
  if prevLine = some loc then []
  else [(a.pathOf mainPath loc.fileIndex, loc.line, loc.column + 1)]

theorem stepData_emitStep (a : Artifacts) (mainPath : Path) (registered : List Path)
    (prevLine : Option SourceLocation) (loc : SourceLocation) (storageState : NamedValues) :
    (emitStep a mainPath registered prevLine loc storageState).2.filterMap TraceEvent.stepData =
      stepTo a mainPath prevLine loc := by
  have htables : ∀ path source, (ensurePathWithLineLengths registered path source).2.filterMap
      TraceEvent.stepData = [] :=
    fun path source => stepData_eq_nil (issues_ensurePath registered path source) (by decide)
  have hcarried : ((carriedForward prevLine loc storageState).map fun e =>
      TraceEvent.registerVariableWithFullValue e.1 e.2).filterMap TraceEvent.stepData = [] := by
    rw [List.filterMap_map]
    exact List.filterMap_eq_nil_iff.mpr fun _ _ => rfl
  unfold emitStep stepTo
  by_cases hsame : prevLine = some loc
  · rw [if_pos hsame, if_pos hsame]
    rfl
  rw [if_neg hsame, if_neg hsame]
  simp only [List.filterMap_append, hcarried, List.append_nil]
  cases a.sourceContents[asUsize loc.fileIndex]? with
  | none => rfl
  | some source =>
      dsimp only
      rw [htables]
      rfl

/-- The events at a location have no further step. -/
theorem stepData_located (a : Artifacts) (mainPath : Path) (registered : List Path)
    (prevLine : Option SourceLocation) (loc : SourceLocation) (storageState : NamedValues)
    (values : List (VarDecl × U256)) {jump : List TraceEvent}
    (hjump : Issues [.setup, .argument, .call, .ret] jump) :
    ((emitStep a mainPath registered prevLine loc storageState).2 ++ localEvents values ++
        jump).filterMap TraceEvent.stepData =
      stepTo a mainPath prevLine loc := by
  rw [List.filterMap_append, List.filterMap_append, stepData_emitStep,
    stepData_eq_nil (issues_localEvents values) (by decide), stepData_eq_nil hjump (by decide),
    List.append_nil, List.append_nil]

/-- The variables looked up at a log: those in scope, at a known opcode. -/
def lookedUpAt (a : Artifacts) (log : StructLog) : List VarDecl :=
  if (opcodeFromName log.op).isSome then (a.resolvePc log.pc).elim [] (inScopeAt a log.pc) else []

theorem localsAt_eq_localValues (a : Artifacts) (log : StructLog) (loc : Option SourceLocation)
    (tracker : StackTracker) (stack : Option (List U256)) :
    (loc.elim [] fun loc => localsAt a log loc tracker stack) =
      localValues tracker (if (opcodeFromName log.op).isSome then loc.elim [] (inScopeAt a log.pc)
        else []) stack := by
  have hnothing : localValues tracker [] stack = [] := by
    cases stack <;> rfl
  cases loc with
  | none => rw [Option.elim_none, Option.elim_none, ite_self, hnothing]
  | some loc =>
      simp only [Option.elim_some, localsAt, inScopeAt]
      cases opcodeFromName log.op with
      | none => exact hnothing.symm
      | some opcode =>
          cases enclosingFunction a log.pc loc with
          | none => exact hnothing.symm
          | some found => rfl

/-- Nothing is found when all labels are above the stack. -/
theorem localValues_eq_nil_iff {tracker : StackTracker} {inScope : List VarDecl}
    {stack : List U256} : localValues tracker inScope (some stack) = [] ↔
      ∀ var ∈ inScope, ∀ pos, LabelAt tracker var pos → stack.length ≤ pos := by
  simp only [localValues, List.filterMap_eq_nil_iff, Option.map_eq_none_iff,
    getVariableValue_eq_none_iff]

/-! ## §2  What they are computed from -/

section Inputs

variable (a : Artifacts) (mainPath : Path) (structLogs : List StructLog)

/-- The symbolic stack before log `k`, with no marker on the way. -/
def trackerBefore (k : Nat) : StackTracker :=
  (structLogs.take k).foldl (fun tracker log => trackOpcode tracker log.op (a.sourceOffset log.pc)
    ((a.resolvePc log.pc).elim [] (inScopeAt a log.pc))) .new

/-- The last resolved location before log `k`. -/
def locationBefore (k : Nat) : Option SourceLocation :=
  (structLogs.take k).foldl (fun last log => (a.resolvePc log.pc).orElse fun _ => last) none

/-- The stack of log `k`. -/
def stackAt (k : Nat) : Option (List U256) := structLogs[k]?.bind (·.stack)

/-- The step made at log `k`. -/
def stepsMade (k : Nat) : List StepData :=
  ((structLogs[k]?.bind fun log => a.resolvePc log.pc).map
    (stepTo a mainPath (locationBefore a structLogs k))).getD []

/-- The variables in scope at log `k` with the words that `stack` has for them. -/
def variablesIn (stack : Option (List U256)) (k : Nat) : List (String × ValueRecord) :=
  (structLogs[k]?.elim [] fun log => (a.resolvePc log.pc).elim [] fun loc =>
    localsAt a log loc (trackerBefore a structLogs (k + 1)) stack).map localPair

/-- On every visit of a location, the variables in the logs' own stacks are
those in the stacks after the logs. -/
def StacksAgree : Prop :=
  ∀ m, valuesAfter (stepsMade a mainPath structLogs)
      (fun k => variablesIn a structLogs (stackAt structLogs (k + 1)) k) structLogs.length m =
    valuesAfter (stepsMade a mainPath structLogs)
      (fun k => variablesIn a structLogs (stackAt structLogs k) k) structLogs.length m

/-- One frame, and no jump marker. -/
structure OneFrame : Prop where
  depth : ∀ log ∈ structLogs, log.depth = 1
  marker : ∀ log ∈ structLogs, sourceMarker a log = .regular

variable {a structLogs}

theorem trackerBefore_succ {k : Nat} {log : StructLog} (hlog : structLogs[k]? = some log) :
    trackerBefore a structLogs (k + 1) =
      trackOpcode (trackerBefore a structLogs k) log.op (a.sourceOffset log.pc)
        ((a.resolvePc log.pc).elim [] (inScopeAt a log.pc)) := by
  rw [trackerBefore, List.take_add_one, hlog, List.foldl_append]
  rfl

theorem locationBefore_succ {k : Nat} {log : StructLog} (hlog : structLogs[k]? = some log) :
    locationBefore a structLogs (k + 1) =
      (a.resolvePc log.pc).orElse fun _ => locationBefore a structLogs k := by
  rw [locationBefore, List.take_add_one, hlog, List.foldl_append]
  rfl

/-- Loop variables that follow the inputs: depth, location and the tracker of
the only frame. -/
structure FollowsInputs (a : Artifacts) (structLogs : List StructLog) (k : Nat) (prevDepth : Nat)
    (prevLine : Option SourceLocation) (stackTrackers : List StackTracker) : Prop where
  depth : prevDepth = 1
  line : prevLine = locationBefore a structLogs k
  tracker : growTo 1 .new stackTrackers = [trackerBefore a structLogs k]

theorem followsInputs_zero (prevLine : Option SourceLocation) (h : prevLine = none) :
    FollowsInputs a structLogs 0 1 prevLine [] :=
  ⟨rfl, h, rfl⟩

theorem variablesIn_eq {k : Nat} {log : StructLog} (hlog : structLogs[k]? = some log)
    (stack : Option (List U256)) :
    variablesIn a structLogs stack k =
      (localValues (trackerBefore a structLogs (k + 1)) (lookedUpAt a log) stack).map localPair := by
  rw [variablesIn, hlog, Option.elim_some, lookedUpAt, ← localsAt_eq_localValues]

/-- A label behind a log was there before it, or is the name of a matching variable. -/
theorem mem_slots_trackOpcode {tracker : StackTracker} {log : StructLog} {name : String}
    (h : some name ∈ (trackOpcode tracker log.op (a.sourceOffset log.pc)
      ((a.resolvePc log.pc).elim [] (inScopeAt a log.pc))).slots) :
    some name ∈ tracker.slots ∨
      ∃ v ∈ lookedUpAt a log, v.name = name ∧ Matches (a.sourceOffset log.pc) v := by
  unfold trackOpcode at h
  unfold lookedUpAt
  cases hop : opcodeFromName log.op with
  | none =>
      rw [hop] at h
      exact .inl h
  | some opcode =>
      rw [hop] at h
      exact mem_slots_processStep h

/-- Before log `k`, `pos` is a position of a word with the name: it was on top of the stack
behind an earlier log whose source offset is in the declaration or the statement of an
in-scope variable of that name, and the instructions since have moved or copied it there. -/
inductive NamedWord (a : Artifacts) (structLogs : List StructLog) (name : String) :
    Nat → Nat → Prop where
  | named {k pos : Nat} {log next : StructLog} {stack : List U256} {v : VarDecl} :
      structLogs[k]? = some log → v ∈ lookedUpAt a log → v.name = name →
      Matches (a.sourceOffset log.pc) v → structLogs[k + 1]? = some next →
      next.stack = some stack → pos + 1 = stack.length → NamedWord a structLogs name (k + 1) pos
  | moved {k old pos : Nat} {log : StructLog} {stack : List U256} {i : Instruction} :
      NamedWord a structLogs name k old → structLogs[k]? = some log → log.stack = some stack →
      i ∈ cancun → i.mnemonic = log.op → i.rule.Moves stack.length old pos →
      NamedWord a structLogs name (k + 1) pos

/-- The logs leave the words of variables alone: from an empty stack each is an instruction
that leads to the next log's stack, it does not write the position of a word that has the
name of a variable looked up at it, and where the last one looks up a variable on a stack, no
word has its name. -/
structure LeavesVariables (a : Artifacts) (structLogs : List StructLog) : Prop where
  starts : ∀ log stack, structLogs[0]? = some log → log.stack = some stack → stack = []
  executes : ∀ k log next, structLogs[k]? = some log → structLogs[k + 1]? = some next →
    ∃ i ∈ cancun, i.mnemonic = log.op ∧ ∃ before after, log.stack = some before ∧
      next.stack = some after ∧ StackStep i.rule before after ∧
      ∀ var ∈ lookedUpAt a log, ∀ pos, NamedWord a structLogs var.name (k + 1) pos →
        ¬ i.rule.Writes before.length pos
  last : ∀ k log stack, structLogs[k]? = some log → structLogs[k + 1]? = none →
    log.stack = some stack → stack ≠ [] → ∀ var ∈ lookedUpAt a log,
      ¬ Matches (a.sourceOffset log.pc) var ∧ ∀ pos, ¬ NamedWord a structLogs var.name k pos

/-- By induction on the logs: the symbolic stack is as high as the stack, and its labels are
names that words at their positions have. -/
theorem LeavesVariables.slots_trackerBefore (h : LeavesVariables a structLogs) : ∀ k log,
    structLogs[k]? = some log →
      (∀ stack, log.stack = some stack → (trackerBefore a structLogs k).depth = stack.length) ∧
      ∀ pos name, (trackerBefore a structLogs k).slots[pos]? = some (some name) →
        NamedWord a structLogs name k pos
  | 0, log, hlog => by
      constructor
      · intro stack hstack
        rw [h.starts log stack hlog hstack]
        rfl
      · intro pos name hslot
        cases hslot
  | k + 1, next, hnext => by
      have hk : k < structLogs.length :=
        Nat.lt_of_succ_lt (List.getElem?_eq_some_iff.mp hnext).1
      have hlog : structLogs[k]? = some structLogs[k] := List.getElem?_eq_getElem hk
      generalize structLogs[k] = log at hlog
      obtain ⟨i, hi, hop, before, after, hbefore, hafter, hstep, -⟩ :=
        h.executes k log next hlog hnext
      obtain ⟨hdepth, hnamed⟩ := h.slots_trackerBefore k log hlog
      have hheight := hdepth before hbefore
      have hopcode : opcodeFromName log.op = some i.opcode := by
        rw [← hop, opcodeFromName_mnemonic i hi]
      have hvars : (a.resolvePc log.pc).elim [] (inScopeAt a log.pc) = lookedUpAt a log := by
        rw [lookedUpAt, hopcode]
        rfl
      rw [trackerBefore_succ hlog, trackOpcode, hopcode, hvars]
      constructor
      · intro stack hstack
        obtain rfl := Option.some.inj (hafter.symm.trans hstack)
        exact depth_processStep_of_stackStep hi hstep hheight _ _
      · intro pos name hslot
        rcases getElem?_processStep hi hstep hheight hslot with
          ⟨old, hold, hmoved⟩ | ⟨htop, v, hv, hname, hmatches⟩
        · exact .moved (hnamed old name hold) hlog hbefore hi hop hmoved
        · exact .named hlog hv hname hmatches hnext hafter htop

theorem LeavesVariables.namedWord_of_labelAt (h : LeavesVariables a structLogs) {k : Nat}
    {log : StructLog} (hlog : structLogs[k]? = some log) {var : VarDecl} {pos : Nat}
    (hlabel : LabelAt (trackerBefore a structLogs k) var pos) :
    NamedWord a structLogs var.name k pos := by
  obtain ⟨slot, hslot, heq⟩ := rposition_eq_some hlabel
  obtain rfl : slot = some var.name := of_decide_eq_true heq
  exact (h.slots_trackerBefore k log hlog).2 pos var.name hslot

/-- Nothing is found in the stack of the last log. -/
theorem LeavesVariables.length_le_of_last (h : LeavesVariables a structLogs) {k : Nat}
    {log : StructLog} {stack : List U256} (hlog : structLogs[k]? = some log)
    (hnext : structLogs[k + 1]? = none) (hstack : log.stack = some stack) {var : VarDecl}
    (hvar : var ∈ lookedUpAt a log) {pos : Nat}
    (hlabel : LabelAt (trackerBefore a structLogs (k + 1)) var pos) : stack.length ≤ pos := by
  by_cases hempty : stack = []
  · rw [hempty]
    exact Nat.zero_le pos
  have hlast := h.last k log stack hlog hnext hstack hempty
  have hmem := hlabel.mem
  rw [trackerBefore_succ hlog] at hmem
  -- the label was there before the log, or is given at it
  rcases mem_slots_trackOpcode hmem with hkept | ⟨v, hv, -, hmatches⟩
  · obtain ⟨old, hold⟩ := List.mem_iff_getElem?.mp hkept
    exact absurd ((h.slots_trackerBefore k log hlog).2 old var.name hold) ((hlast var hvar).2 old)
  · exact absurd hmatches (hlast v hv).1

/-- A variable whose position is not written has the same word before and after. -/
theorem getVariableValue_of_stackStep {tracker : StackTracker} {var : VarDecl} {rule : StackRule}
    {before after : List U256} (hstep : StackStep rule before after)
    (h : ∀ pos, LabelAt tracker var pos → ¬ rule.Writes before.length pos) :
    tracker.getVariableValue var.name after = tracker.getVariableValue var.name before := by
  unfold StackTracker.getVariableValue
  cases hpos : rposition (fun slot => decide (slot = some var.name)) tracker.slots with
  | none => rfl
  | some pos => exact getElem?_of_stackStep hstep (h pos hpos)

theorem LeavesVariables.variablesIn_eq (h : LeavesVariables a structLogs) {k : Nat}
    (hk : k < structLogs.length) :
    variablesIn a structLogs (stackAt structLogs (k + 1)) k =
      variablesIn a structLogs (stackAt structLogs k) k := by
  have hlog : structLogs[k]? = some structLogs[k] := List.getElem?_eq_getElem hk
  rw [EvmRecorder.variablesIn_eq hlog, EvmRecorder.variablesIn_eq hlog, stackAt, stackAt, hlog,
    Option.bind_some]
  congr 1
  cases hnext : structLogs[k + 1]? with
  | some next =>
      obtain ⟨i, -, -, before, after, hbefore, hafter, hstep, hkept⟩ :=
        h.executes k _ next hlog hnext
      -- each label names a word, and the positions of these are not written
      rw [Option.bind_some, hbefore, hafter]
      refine List.filterMap_congr fun var hvar => ?_
      rw [getVariableValue_of_stackStep hstep fun pos hlabel =>
        hkept var hvar pos (h.namedWord_of_labelAt hnext hlabel)]
  | none =>
      rw [Option.bind_none]
      cases hstack : structLogs[k].stack with
      | none => rfl
      | some stack =>
          -- no next stack: nothing may be found in the log's own
          rw [localValues_eq_nil_iff.mpr fun var hvar pos =>
            h.length_le_of_last hlog hnext hstack hvar]
          rfl

/-- It is enough that the logs leave the words of variables alone. -/
theorem LeavesVariables.stacksAgree (h : LeavesVariables a structLogs) (mainPath : Path) :
    StacksAgree a mainPath structLogs := by
  intro m
  refine List.flatMap_congr fun k hk => h.variablesIn_eq ?_
  exact List.mem_range.mp (List.mem_filter.mp hk).1

end Inputs

/-! ## §3  The single-contract recording -/

/-- A step, then locals, among the events of a log. -/
theorem block_sublist {stepped locals : List TraceEvent} {steps : List StepData}
    {vars : List (String × ValueRecord)}
    (hsteps : stepped.filterMap TraceEvent.stepData = steps)
    (hvars : locals.filterMap TraceEvent.variableData = vars)
    (pre post : List TraceEvent) :
    (block steps vars).Sublist
      ((pre ++ (stepped ++ (locals ++ post))).filterMap TraceEvent.localEvent) := by
  have hblock : (block steps vars).Sublist
      ((stepped ++ locals).filterMap TraceEvent.localEvent) := by
    rw [← hsteps, ← hvars, List.filterMap_append]
    exact (stepData_sublist stepped).append (variableData_sublist locals)
  rw [← List.append_assoc, ← List.append_assoc, List.append_assoc pre, List.filterMap_append,
    List.filterMap_append]
  exact (hblock.trans (List.sublist_append_right _ _)).trans (List.sublist_append_left _ _)

namespace Recorder

section

variable (keccak256 : List UInt8 → U256) (registered : List Path) (a : Artifacts)
  (structLogs : List StructLog)

/-- The steps issued at log `k`. -/
def stepsAt (k : Nat) : List StepData :=
  structLogs[k]?.elim [] fun log =>
    (step keccak256 a (mainPathOf a.sourcePaths) structLogs k log
      (stateBefore keccak256 registered a structLogs k)).2.filterMap TraceEvent.stepData

/-- The local variables issued at log `k`. -/
def localsIssuedAt (k : Nat) : List (String × ValueRecord) :=
  structLogs[k]?.elim [] fun log => (a.resolvePc log.pc).elim [] fun loc =>
    (localEvents (localsRead a structLogs k log loc
      (enterDepth log (stateBefore keccak256 registered a structLogs k)))).filterMap
        TraceEvent.variableData

/-- The steps and local variables of the recording, in order. -/
def stepsAndLocals : List LocalEvent :=
  blocks (stepsAt keccak256 registered a structLogs)
    (localsIssuedAt keccak256 registered a structLogs) structLogs.length

theorem stepsAt_of_log {k : Nat} {log : StructLog} (hlog : structLogs[k]? = some log) :
    stepsAt keccak256 registered a structLogs k =
      (a.resolvePc log.pc).elim [] (stepTo a (mainPathOf a.sourcePaths)
        (stateBefore keccak256 registered a structLogs k).prevLine) := by
  rw [stepsAt, hlog, Option.elim_some]
  simp only [step, List.filterMap_append]
  rw [stepData_eq_nil (issues_depthEvents _ _ _ _ _ _) (by decide),
    stepData_eq_nil (issues_handleStorage _ _ _ _) (by decide),
    stepData_eq_nil (issues_specialEvents _) (by decide), List.append_nil, List.append_nil,
    List.nil_append]
  unfold handleLocation
  cases a.resolvePc log.pc with
  | none => rfl
  | some loc => exact stepData_located _ _ _ _ _ _ _ (issues_handleJump _ _ _ _ _ _ _)

/-- The steps and local variables stand in the recording in this order. -/
theorem stepsAndLocals_sublist : (stepsAndLocals keccak256 registered a structLogs).Sublist
    ((eventsBefore keccak256 registered a structLogs structLogs.length).filterMap
      TraceEvent.localEvent) := by
  refine blocks_sublist (fun k => (eventsBefore keccak256 registered a structLogs k).filterMap
    TraceEvent.localEvent) structLogs.length fun k hk => ?_
  have hlog : structLogs[k]? = some structLogs[k] := List.getElem?_eq_getElem hk
  refine ⟨_, by rw [eventsBefore_succ _ _ _ _ hlog, List.filterMap_append], ?_⟩
  rw [stepsAt_of_log keccak256 registered a structLogs hlog, localsIssuedAt, hlog,
    Option.elim_some]
  simp only [step, handleLocation]
  cases a.resolvePc structLogs[k].pc with
  | none => exact List.nil_sublist _
  | some loc =>
      simp only [atLocation, List.append_assoc]
      exact block_sublist (stepData_emitStep _ _ _ _ _ _) rfl _ _

end

section

variable {keccak256 : List UInt8 → U256} {registered : List Path} {a : Artifacts}
  {structLogs : List StructLog}

/-- A regular entry changes nothing. -/
theorem handleJump_regular {mainPath : Path} {i : Nat} {log : StructLog} {loc : SourceLocation}
    {s : RecorderState} (h : sourceMarker a log = .regular) :
    handleJump a mainPath structLogs i log loc s = (s, []) := by
  unfold sourceMarker at h
  unfold handleJump
  cases hentry : (a.entryForPc log.pc).map (·.jumpType) with
  | none => rfl
  | some marker =>
      rw [hentry, Option.getD_some] at h
      rw [h]

/-- Without a marker a log moves to its location and tracks its opcode. -/
theorem handleLocation_regular {mainPath : Path} {i : Nat} {log : StructLog} {s : RecorderState}
    (h : sourceMarker a log = .regular) :
    (handleLocation a mainPath structLogs i log s).1.prevLine =
        ((a.resolvePc log.pc).orElse fun _ => s.prevLine) ∧
      (handleLocation a mainPath structLogs i log s).1.stackTrackers =
        setLevel log.depth (trackedStack a log (a.resolvePc log.pc) s) s.stackTrackers := by
  unfold handleLocation
  cases a.resolvePc log.pc with
  | none => exact ⟨rfl, rfl⟩
  | some loc =>
      dsimp only [atLocation]
      rw [handleJump_regular h]
      exact ⟨rfl, rfl⟩

theorem handleStorage_kept (log : StructLog) (s : RecorderState) :
    (handleStorage keccak256 a log s).1.prevLine = s.prevLine ∧
      (handleStorage keccak256 a log s).1.stackTrackers = s.stackTrackers := by
  unfold handleStorage
  dsimp only
  split <;> exact ⟨rfl, rfl⟩

theorem enterDepth_one {log : StructLog} {s : RecorderState} (hlog : log.depth = 1)
    (hprev : s.prevDepth = 1) {tracker : StackTracker}
    (htracker : growTo 1 .new s.stackTrackers = [tracker]) :
    (enterDepth log s).stackTrackers = [tracker] := by
  simp only [enterDepth, hlog, hprev, Nat.sub_self]
  rw [popN, Nat.sub_zero, List.take_length, htracker]

/-- Over a run of one frame the loop follows the inputs. -/
theorem followsInputs_stateBefore (hframe : OneFrame a structLogs) : ∀ k, k ≤ structLogs.length →
    FollowsInputs a structLogs k (stateBefore keccak256 registered a structLogs k).prevDepth
      (stateBefore keccak256 registered a structLogs k).prevLine
      (stateBefore keccak256 registered a structLogs k).stackTrackers
  | 0, _ => by
      rw [stateBefore, Machine.stateBefore_zero]
      exact followsInputs_zero none rfl
  | k + 1, hk => by
      have hlog : structLogs[k]? = some structLogs[k] := List.getElem?_eq_getElem hk
      have hmem : structLogs[k] ∈ structLogs := List.getElem_mem hk
      have hone := hframe.depth _ hmem
      obtain ⟨hdepth, hline, htracker⟩ := followsInputs_stateBefore hframe k (Nat.le_of_lt hk)
      rw [stateBefore, Machine.stateBefore_succ hlog, ← stateBefore]
      generalize stateBefore keccak256 registered a structLogs k = s at *
      obtain ⟨hlineKept, htrackersKept⟩ := @handleStorage_kept keccak256 a structLogs[k]
        (handleLocation a (mainPathOf a.sourcePaths) structLogs k structLogs[k]
          (enterDepth structLogs[k] s)).1
      obtain ⟨hmoved, htracked⟩ := @handleLocation_regular a structLogs
        (mainPathOf a.sourcePaths) k structLogs[k] (enterDepth structLogs[k] s)
        (hframe.marker _ hmem)
      refine ⟨hone, (hlineKept.trans hmoved).trans ?_, ?_⟩
      · rw [locationBefore_succ hlog, ← hline]
        rfl
      · show growTo 1 .new (handleStorage keccak256 a structLogs[k] _).1.stackTrackers = _
        rw [htrackersKept, htracked, trackedStack, enterDepth_one hone hdepth htracker,
          trackerBefore_succ hlog, hone]
        rfl

/-- The steps are the moves to another location, the locals are read in the next
log's stack. -/
theorem stepsAndLocals_eq (hframe : OneFrame a structLogs) :
    stepsAndLocals keccak256 registered a structLogs =
      blocks (stepsMade a (mainPathOf a.sourcePaths) structLogs)
        (fun k => variablesIn a structLogs (stackAt structLogs (k + 1)) k) structLogs.length := by
  refine List.flatMap_congr fun k hk => ?_
  have hlt : k < structLogs.length := List.mem_range.mp hk
  have hlog : structLogs[k]? = some structLogs[k] := List.getElem?_eq_getElem hlt
  have hmem : structLogs[k] ∈ structLogs := List.getElem_mem hlt
  obtain ⟨hdepth, hline, htracker⟩ :=
    @followsInputs_stateBefore keccak256 registered a structLogs hframe k hlt.le
  have hone := hframe.depth _ hmem
  have htrackers := enterDepth_one hone hdepth htracker
  beta_reduce
  rw [stepsAt_of_log keccak256 registered a structLogs hlog, hline, localsIssuedAt, stepsMade,
    variablesIn, hlog, trackerBefore_succ hlog]
  simp only [Option.elim_some, Option.bind_some]
  cases hloc : a.resolvePc structLogs[k].pc with
  | none => rfl
  | some loc =>
      simp only [Option.elim_some, Option.map_some, Option.getD_some, localsRead, trackedStack,
        htrackers, hone, variableData_localEvents]
      rfl

end

end Recorder

/-! ## §4  The multi-contract recording -/

/-- The registry holds the traced contract only, with the index of its bytecode. -/
structure OnlyContract (registry : ContractRegistry) (contractAddress : Address)
    (contract : ContractArtifacts) : Prop where
  contracts : registry.contracts = [(contractAddress, contract)]
  pcToIdx : contract.pcToIdx = (buildPcToInstructionIndex contract.runtimeBytecode).getD []

theorem OnlyContract.get {registry : ContractRegistry} {contractAddress : Address}
    {contract : ContractArtifacts} (h : OnlyContract registry contractAddress contract) :
    registry.get contractAddress = some contract := by
  simp [ContractRegistry.get, h.contracts]

/-- What the single-contract recorder is given for a contract. -/
def ContractArtifacts.traced (self : ContractArtifacts) (layout : Option StorageLayout) :
    Artifacts :=
  Recorder.singleArtifacts self.sourceMap self.runtimeBytecode self.sourcePaths
    self.sourceContents layout self.solidityAst

namespace MultiRecorder

section

variable (keccak256 : List UInt8 → U256) (registered : List Path) (registry : ContractRegistry)
  (contractAddress : Address) (structLogs : List StructLog)

/-- The steps issued at log `k`. -/
def stepsAt (k : Nat) : List StepData :=
  structLogs[k]?.elim [] fun log =>
    (stepOf keccak256 registry contractAddress structLogs k log
      (stateBefore keccak256 registered registry contractAddress structLogs k)).2.filterMap
        TraceEvent.stepData

/-- The local variables issued at log `k`. -/
def localsIssuedAt (k : Nat) : List (String × ValueRecord) :=
  structLogs[k]?.elim [] fun log =>
    let s := stateBefore keccak256 registered registry contractAddress structLogs k
    let a := artifactsFor registry contractAddress structLogs k log s
    (a.resolvePc log.pc).elim [] fun loc =>
      (localEvents (localsRead a log loc (enterDepth structLogs k log s))).filterMap
        TraceEvent.variableData

/-- The steps and local variables of the recording, in order. -/
def stepsAndLocals : List LocalEvent :=
  blocks (stepsAt keccak256 registered registry contractAddress structLogs)
    (localsIssuedAt keccak256 registered registry contractAddress structLogs) structLogs.length

/-- The blocks of a log with the artifacts it is recorded with. -/
theorem stepOf_events (k : Nat) (log : StructLog) (s : MultiRecorderState) :
    ∃ located post, located = handleLocation
        (Recorder.mainPathOf (initialArtifacts registry contractAddress).sourcePaths) structLogs
        (artifactsFor registry contractAddress structLogs k log s) k log
        (enterDepth structLogs k log s) ∧
      Issues [.setup, .variable, .special] post ∧
      (stepOf keccak256 registry contractAddress structLogs k log s).2 =
        depthEvents (Recorder.mainPathOf (initialArtifacts registry contractAddress).sourcePaths)
          log s ++ (located.2 ++ post) := by
  refine ⟨_, _, rfl, ?_, List.append_assoc _ _ _ |>.trans (List.append_assoc _ _ _)⟩
  exact ((issues_handleStorage _ _ _ _).mono (by simp)).append
    ((issues_specialEvents log).mono (by simp))

theorem stepsAt_of_log {k : Nat} {log : StructLog} (hlog : structLogs[k]? = some log)
    {s : MultiRecorderState}
    (hs : stateBefore keccak256 registered registry contractAddress structLogs k = s) :
    stepsAt keccak256 registered registry contractAddress structLogs k =
      ((artifactsFor registry contractAddress structLogs k log s).resolvePc log.pc).elim []
        (stepTo (artifactsFor registry contractAddress structLogs k log s)
          (Recorder.mainPathOf (initialArtifacts registry contractAddress).sourcePaths)
          (enterDepth structLogs k log s).prevLine) := by
  obtain ⟨located, post, rfl, hpost, hevents⟩ :=
    stepOf_events keccak256 registry contractAddress structLogs k log s
  rw [stepsAt, hlog, Option.elim_some, hs, hevents, List.filterMap_append, List.filterMap_append,
    stepData_eq_nil (issues_depthEvents _ _ _) (by decide), stepData_eq_nil hpost (by decide),
    List.append_nil, List.nil_append]
  unfold handleLocation
  cases (artifactsFor registry contractAddress structLogs k log s).resolvePc log.pc with
  | none => rfl
  | some loc => exact stepData_located _ _ _ _ _ _ _ (issues_handleJump _ _ _ _ _ _ _)

/-- The steps and local variables stand in the recording in this order. -/
theorem stepsAndLocals_sublist :
    (stepsAndLocals keccak256 registered registry contractAddress structLogs).Sublist
      ((eventsBefore keccak256 registered registry contractAddress structLogs
        structLogs.length).filterMap TraceEvent.localEvent) := by
  refine blocks_sublist (fun k => (eventsBefore keccak256 registered registry contractAddress
    structLogs k).filterMap TraceEvent.localEvent) structLogs.length fun k hk => ?_
  have hlog : structLogs[k]? = some structLogs[k] := List.getElem?_eq_getElem hk
  refine ⟨_, by rw [eventsBefore_succ _ _ _ _ _ hlog, List.filterMap_append], ?_⟩
  obtain ⟨located, post, rfl, -, hevents⟩ := stepOf_events keccak256 registry contractAddress
    structLogs k structLogs[k]
    (stateBefore keccak256 registered registry contractAddress structLogs k)
  rw [stepsAt_of_log keccak256 registered registry contractAddress structLogs hlog rfl,
    localsIssuedAt, hlog, Option.elim_some, hevents]
  simp only [handleLocation]
  cases (artifactsFor registry contractAddress structLogs k structLogs[k] (stateBefore keccak256
    registered registry contractAddress structLogs k)).resolvePc structLogs[k].pc with
  | none => exact List.nil_sublist _
  | some loc =>
      simp only [atLocation, List.append_assoc]
      exact block_sublist (stepData_emitStep _ _ _ _ _ _) rfl _ _

end

section

variable {keccak256 : List UInt8 → U256} {registered : List Path} {registry : ContractRegistry}
  {contractAddress : Address} {contract : ContractArtifacts} {structLogs : List StructLog}

/-- A regular entry changes nothing. -/
theorem handleJump_regular {a : Artifacts} {mainPath : Path} {i : Nat} {log : StructLog}
    {loc : SourceLocation} {s : MultiRecorderState} (h : sourceMarker a log = .regular) :
    handleJump mainPath structLogs a i log loc s = (s, []) := by
  unfold sourceMarker at h
  unfold handleJump
  cases hentry : (a.entryForPc log.pc).map (·.jumpType) with
  | none => rfl
  | some marker =>
      rw [hentry, Option.getD_some] at h
      rw [h]

/-- Without a marker a log moves to its location and tracks its opcode. -/
theorem handleLocation_regular {a : Artifacts} {mainPath : Path} {i : Nat} {log : StructLog}
    {s : MultiRecorderState} (h : sourceMarker a log = .regular) :
    (handleLocation mainPath structLogs a i log s).1.prevLine =
        ((a.resolvePc log.pc).orElse fun _ => s.prevLine) ∧
      (handleLocation mainPath structLogs a i log s).1.stackTrackers =
        setLevel log.depth (trackedStack a log (a.resolvePc log.pc) s) s.stackTrackers ∧
      (handleLocation mainPath structLogs a i log s).1.frameStack = s.frameStack := by
  unfold handleLocation
  cases a.resolvePc log.pc with
  | none => exact ⟨rfl, rfl, rfl⟩
  | some loc =>
      dsimp only [atLocation]
      rw [handleJump_regular h]
      exact ⟨rfl, rfl, rfl⟩

theorem handleStorage_kept (a : Artifacts) (log : StructLog) (s : MultiRecorderState) :
    (handleStorage keccak256 a log s).1.prevLine = s.prevLine ∧
      (handleStorage keccak256 a log s).1.stackTrackers = s.stackTrackers ∧
      (handleStorage keccak256 a log s).1.frameStack = s.frameStack := by
  unfold handleStorage
  dsimp only
  split <;> exact ⟨rfl, rfl, rfl⟩

theorem enterDepth_one {i : Nat} {log : StructLog} {s : MultiRecorderState}
    (hlog : log.depth = 1) (hprev : s.prevDepth = 1) :
    enterDepth structLogs i log s =
      { s with
        stackTrackers := growTo 1 .new s.stackTrackers
        memoryTrackers := growTo 1 .new s.memoryTrackers } := by
  simp only [enterDepth, hlog, hprev, Nat.lt_irrefl, if_false]

/-- In the only frame the artifacts are those of the traced contract. -/
theorem artifactsFor_one (h : OnlyContract registry contractAddress contract) {i : Nat}
    {log : StructLog} {s : MultiRecorderState} (hlog : log.depth = 1) (hprev : s.prevDepth = 1)
    (hframes : s.frameStack = [{ address := contractAddress }]) :
    artifactsFor registry contractAddress structLogs i log s = contract.artifacts := by
  rw [artifactsFor, artifactsOn, enterDepth_one hlog hprev]
  simp only [currentArtifacts, hframes, List.getLast?_singleton, Option.map_some, Option.getD_some,
    h.get]
  rfl

/-- Over a run of one frame the loop follows the inputs, in the first frame. -/
theorem followsInputs_stateBefore (h : OnlyContract registry contractAddress contract)
    (hframe : OneFrame contract.artifacts structLogs) : ∀ k, k ≤ structLogs.length →
    FollowsInputs contract.artifacts structLogs k
        (stateBefore keccak256 registered registry contractAddress structLogs k).prevDepth
        (stateBefore keccak256 registered registry contractAddress structLogs k).prevLine
        (stateBefore keccak256 registered registry contractAddress structLogs k).stackTrackers ∧
      (stateBefore keccak256 registered registry contractAddress structLogs k).frameStack =
        [{ address := contractAddress }]
  | 0, _ => by
      rw [stateBefore, Machine.stateBefore_zero]
      exact ⟨followsInputs_zero none rfl, rfl⟩
  | k + 1, hk => by
      have hlog : structLogs[k]? = some structLogs[k] := List.getElem?_eq_getElem hk
      have hmem : structLogs[k] ∈ structLogs := List.getElem_mem hk
      have hone := hframe.depth _ hmem
      obtain ⟨⟨hdepth, hline, htracker⟩, hframes⟩ :=
        followsInputs_stateBefore h hframe k (Nat.le_of_lt hk)
      rw [stateBefore, Machine.stateBefore_succ hlog, ← stateBefore]
      generalize stateBefore keccak256 registered registry contractAddress structLogs k = s at *
      have hartifacts : artifactsFor registry contractAddress structLogs k structLogs[k] s =
          contract.artifacts := artifactsFor_one h hone hdepth hframes
      rw [artifactsFor, artifactsOn] at hartifacts
      simp only [stepOf, step, hartifacts]
      rw [enterDepth_one hone hdepth]
      generalize hs' : ({ s with
        stackTrackers := growTo 1 .new s.stackTrackers
        memoryTrackers := growTo 1 .new s.memoryTrackers } : MultiRecorderState) = s'
      obtain ⟨hlineKept, htrackersKept, hframesKept⟩ := @handleStorage_kept keccak256
        contract.artifacts structLogs[k] (handleLocation
          (Recorder.mainPathOf (initialArtifacts registry contractAddress).sourcePaths) structLogs
          contract.artifacts k structLogs[k] s').1
      obtain ⟨hmoved, htracked, hstacked⟩ := @handleLocation_regular structLogs contract.artifacts
        (Recorder.mainPathOf (initialArtifacts registry contractAddress).sourcePaths) k
        structLogs[k] s' (hframe.marker _ hmem)
      refine ⟨⟨hone, (hlineKept.trans hmoved).trans ?_, ?_⟩, (hframesKept.trans hstacked).trans ?_⟩
      · rw [locationBefore_succ hlog, ← hline, ← hs']
      · rw [htrackersKept, htracked, trackedStack, trackerBefore_succ hlog, hone, ← hs', htracker]
        rfl
      · rw [← hs']
        exact hframes

/-- The steps are the moves to another location, the locals are read in the log's
own stack. -/
theorem stepsAndLocals_eq (h : OnlyContract registry contractAddress contract)
    (hframe : OneFrame contract.artifacts structLogs) :
    stepsAndLocals keccak256 registered registry contractAddress structLogs =
      blocks (stepsMade contract.artifacts (Recorder.mainPathOf contract.sourcePaths) structLogs)
        (fun k => variablesIn contract.artifacts structLogs (stackAt structLogs k) k)
        structLogs.length := by
  refine List.flatMap_congr fun k hk => ?_
  have hlt : k < structLogs.length := List.mem_range.mp hk
  have hlog : structLogs[k]? = some structLogs[k] := List.getElem?_eq_getElem hlt
  obtain ⟨⟨hdepth, hline, htracker⟩, hframes⟩ := @followsInputs_stateBefore keccak256 registered
    registry contractAddress contract structLogs h hframe k hlt.le
  have hone := hframe.depth _ (List.getElem_mem hlt)
  have hpaths : (initialArtifacts registry contractAddress).sourcePaths = contract.sourcePaths := by
    rw [initialArtifacts, h.get]
    rfl
  beta_reduce
  rw [stepsAt_of_log keccak256 registered registry contractAddress structLogs hlog rfl, hpaths,
    localsIssuedAt, stepsMade, variablesIn, hlog, trackerBefore_succ hlog]
  simp only [Option.elim_some, Option.bind_some]
  rw [artifactsFor_one h hone hdepth hframes, enterDepth_one hone hdepth, stackAt, hlog,
    Option.bind_some]
  cases hloc : contract.artifacts.resolvePc structLogs[k].pc with
  | none => rfl
  | some loc =>
      simp only [Option.elim_some, Option.map_some, Option.getD_some, localsRead, trackedStack,
        htracker, hone, variableData_localEvents, hline]
      rfl

end

/-! ## §5  Parity -/

/-- For a trace of one frame without jump markers and a registry with the traced contract
only, both recordings have the same steps and local variables exactly when the stacks before
and after the logs agree on the variables, visit by visit. -/
theorem stepsAndLocals_agree_iff (keccak256 : List UInt8 → U256) (registered : List Path)
    {registry : ContractRegistry} {contractAddress : Address} {contract : ContractArtifacts}
    (honly : OnlyContract registry contractAddress contract) {structLogs : List StructLog}
    (hframe : OneFrame contract.artifacts structLogs) (layout : Option StorageLayout) :
    Recorder.stepsAndLocals keccak256 registered (contract.traced layout) structLogs =
        stepsAndLocals keccak256 registered registry contractAddress structLogs ↔
      StacksAgree contract.artifacts (Recorder.mainPathOf contract.sourcePaths) structLogs := by
  have htraced : contract.traced layout = { contract.artifacts with storageLayout := layout } := by
    rw [ContractArtifacts.traced, Recorder.singleArtifacts, ← honly.pcToIdx]
    rfl
  -- steps and locals do not look at the layout
  have hsingle : OneFrame (contract.traced layout) structLogs := by
    rw [htraced]
    exact ⟨hframe.depth, hframe.marker⟩
  rw [Recorder.stepsAndLocals_eq hsingle, stepsAndLocals_eq honly hframe, htraced]
  exact blocks_eq_iff _ _ _ _

/-- **Parity of local variables.** On every run of one frame without jump markers that leaves
the words of variables alone, both recordings have the same steps and local variables. -/
theorem stepsAndLocals_agree (keccak256 : List UInt8 → U256) (registered : List Path)
    {registry : ContractRegistry} {contractAddress : Address} {contract : ContractArtifacts}
    (honly : OnlyContract registry contractAddress contract) {structLogs : List StructLog}
    (hframe : OneFrame contract.artifacts structLogs)
    (hleaves : LeavesVariables contract.artifacts structLogs) (layout : Option StorageLayout) :
    Recorder.stepsAndLocals keccak256 registered (contract.traced layout) structLogs =
      stepsAndLocals keccak256 registered registry contractAddress structLogs :=
  (stepsAndLocals_agree_iff keccak256 registered honly hframe layout).mpr
    (hleaves.stacksAgree _)

def localsContract : ContractArtifacts where
  sourceMap := SourceMap.parse "0:53:0:-;;:::i;13:38::-;35:9;13:38"
  runtimeBytecode := [0x60, 0x09, 0x60, 0x05, 0x56, 0x5b, 0x60, 0x05, 0x00]
  pcToIdx := (buildPcToInstructionIndex
    [0x60, 0x09, 0x60, 0x05, 0x56, 0x5b, 0x60, 0x05, 0x00]).getD []
  sourcePaths := [⟨["C.sol"]⟩]
  sourceContents := [Recorder.localsSource]
  solidityAst := Recorder.localsArtifacts.solidityAst

def localsRegistry : ContractRegistry := { contracts := [(1, localsContract)] }

theorem onlyContract_localsRegistry : OnlyContract localsRegistry 1 localsContract := ⟨rfl, rfl⟩

theorem oneFrame_declarationRun :
    OneFrame localsContract.artifacts Recorder.declarationRun := by
  constructor
  · decide
  · decide

theorem stepsAndLocals_declarationRun :
    (∀ log ∈ Recorder.declarationRun, log.stack.isSome) ∧
      OnlyContract localsRegistry 1 localsContract ∧
      OneFrame localsContract.artifacts Recorder.declarationRun ∧
      Recorder.stepsAndLocals (fun _ => 0) [] (localsContract.traced none)
          Recorder.declarationRun ≠
        stepsAndLocals (fun _ => 0) [] localsRegistry 1 Recorder.declarationRun :=
  ⟨by decide, onlyContract_localsRegistry, oneFrame_declarationRun, by decide⟩

/-- The local of `f`, with the statement that declares it. -/
def heldVariable : VarDecl :=
  { name := "x", typeName := "uint256", src := ⟨35, 9, 0⟩, declarationOffset := 35,
    statementRange := some ⟨35, 13, 0⟩ }

def heldContract : ContractArtifacts where
  sourceMap := SourceMap.parse "0:53:0:-;35:9;;0:53"
  runtimeBytecode := [0x60, 0x05, 0x5b, 0x5b, 0x00]
  pcToIdx := (buildPcToInstructionIndex [0x60, 0x05, 0x5b, 0x5b, 0x00]).getD []
  sourcePaths := [⟨["C.sol"]⟩]
  sourceContents := [Recorder.localsSource]
  solidityAst := some ⟨[{ name := "f", src := ⟨13, 38, 0⟩, localVariables := [heldVariable] }]⟩

def heldRegistry : ContractRegistry := { contracts := [(1, heldContract)] }

/-- The word of the local is on the stack before its statement, and nothing is written
while it is looked up. -/
def heldRun : List StructLog :=
  [Recorder.localsLog 0 "PUSH1" [], Recorder.localsLog 2 "JUMPDEST" [5],
    Recorder.localsLog 3 "JUMPDEST" [5], Recorder.localsLog 4 "STOP" [5]]

theorem leavesVariables_heldRun : LeavesVariables heldContract.artifacts heldRun := by
  have hjumpdest : ∀ pos, ¬ (StackRule.generic 0 0).Writes 1 pos := by
    intro pos hwrites
    exact absurd hwrites.2 (Nat.not_lt.mpr hwrites.1)
  constructor
  · intro log stack hlog hstack
    obtain rfl := Option.some.inj hlog
    exact (Option.some.inj hstack).symm
  · rintro (_ | _ | _ | _ | k) log next hlog hnext
    · obtain rfl := Option.some.inj hlog
      obtain rfl := Option.some.inj hnext
      refine ⟨⟨"PUSH1", 0x60, .generic 0 1⟩, by decide +kernel, rfl, [], [5], rfl, rfl,
        @StackStep.generic _ [] [] [5], fun var hvar => ?_⟩
      rw [show lookedUpAt heldContract.artifacts (Recorder.localsLog 0 "PUSH1" []) = [] by decide]
        at hvar
      cases hvar
    · obtain rfl := Option.some.inj hlog
      obtain rfl := Option.some.inj hnext
      exact ⟨⟨"JUMPDEST", 0x5b, .generic 0 0⟩, by decide +kernel, rfl, [5], [5], rfl, rfl,
        @StackStep.generic _ [5] [] [], fun _ _ pos _ => hjumpdest pos⟩
    · obtain rfl := Option.some.inj hlog
      obtain rfl := Option.some.inj hnext
      exact ⟨⟨"JUMPDEST", 0x5b, .generic 0 0⟩, by decide +kernel, rfl, [5], [5], rfl, rfl,
        @StackStep.generic _ [5] [] [], fun _ _ pos _ => hjumpdest pos⟩
    · cases hnext
    · cases hlog
  · rintro (_ | _ | _ | _ | k) log stack hlog hnext - - var hvar
    · cases hnext
    · cases hnext
    · cases hnext
    · obtain rfl := Option.some.inj hlog
      rw [show lookedUpAt heldContract.artifacts (Recorder.localsLog 4 "STOP" [5]) = [] by decide]
        at hvar
      cases hvar
    · cases hlog

/-- Both recordings show the local. -/
theorem stepsAndLocals_agree_heldRun :
    (Recorder.stepsAndLocals (fun _ => 0) [] (heldContract.traced none) heldRun).filterMap
        Sum.getRight? = [localPair (heldVariable, 5), localPair (heldVariable, 5)] ∧
      Recorder.stepsAndLocals (fun _ => 0) [] (heldContract.traced none) heldRun =
        stepsAndLocals (fun _ => 0) [] heldRegistry 1 heldRun :=
  ⟨by decide, stepsAndLocals_agree (fun _ => 0) [] ⟨rfl, rfl⟩ ⟨by decide, by decide⟩
    leavesVariables_heldRun none⟩

end MultiRecorder

end EvmRecorder
