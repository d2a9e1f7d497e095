import EvmRecorder.Library.NestedRuns
import EvmRecorder.Model.Inspector
import EvmRecorder.Model.StructLog

/-!
# What the inspector collects of an execution

An execution is a run of nested frames: revm calls `call` or `create` when it
enters a frame and the matching `_end` hook when it leaves it, whatever happened
in between. The inspector only counts entries and exits; the data it collects are
the steps at their frame depth, and the frames, logs and selfdestructs in the
order in which they happen.
-/

namespace EvmRecorder.Inspector

/-- How a frame is entered. -/
inductive Entry where
  | call (inputs : CallInputs)
  | create (inputs : CreateInputs)

def Entry.data : Entry → CallData
  | .call inputs => inputs.data
  | .create inputs => inputs.data

inductive Note where
  | log (log : LogData)
  | selfdestruct (contract target : Address) (value : U256)

def Note.log? : Note → Option LogData
  | .log event => some event
  | .selfdestruct _ _ _ => none

def Note.selfdestruct? : Note → Option (Address × Address × U256)
  | .log _ => none
  | .selfdestruct contract target value => some (contract, target, value)

abbrev Execution : Type := NestedRun Entry Interpreter Note

/-- The hook that revm calls. -/
def hookOf : Signal Entry Interpreter Note → Hook
  | .enter (.call inputs) => .call inputs
  | .enter (.create inputs) => .create inputs
  | .leave (.call _) => .callEnd
  | .leave (.create _) => .createEnd
  | .step interp => .step interp
  | .note (.log event) => .log event
  | .note (.selfdestruct contract target value) => .selfdestruct contract target value

def Execution.hooks (execution : Execution) : List Hook := execution.signals.map hookOf

namespace ExecutionData

def append (data data' : ExecutionData) : ExecutionData where
  steps := data.steps ++ data'.steps
  calls := data.calls ++ data'.calls
  logs := data.logs ++ data'.logs
  selfdestructs := data.selfdestructs ++ data'.selfdestructs

theorem append_assoc (data data' data'' : ExecutionData) :
    (data.append data').append data'' = data.append (data'.append data'') := by
  simp only [append, List.append_assoc]

@[simp] theorem append_empty (data : ExecutionData) : data.append {} = data := by
  simp [append]

end ExecutionData

section

variable (opCodeName : UInt8 → Option String)

def stepDataAt (depth : Nat) (interp : Interpreter) : StepData where
  pc := interp.pc
  opcode := interp.opcode
  opcodeName := opcodeName opCodeName interp.opcode
  depth := depth
  stack := interp.stack
  memorySize := interp.memorySize

def noteData (note : Note) : ExecutionData where
  logs := [note].filterMap Note.log?
  selfdestructs := [note].filterMap Note.selfdestruct?

/-- What there is to collect of an execution in a frame of this depth. -/
def Execution.dataAt (execution : Execution) (depth : Nat) : ExecutionData where
  steps := (execution.stepsAt depth).map fun x => stepDataAt opCodeName x.1 x.2
  calls := execution.frames.map Entry.data
  logs := execution.notes.filterMap Note.log?
  selfdestructs := execution.notes.filterMap Note.selfdestruct?

namespace Execution

theorem dataAt_done (depth : Nat) : dataAt opCodeName .done depth = {} := rfl

theorem dataAt_step (interp : Interpreter) (rest : Execution) (depth : Nat) :
    dataAt opCodeName (.step interp rest) depth =
      ExecutionData.append { steps := [stepDataAt opCodeName depth interp] }
        (rest.dataAt opCodeName depth) := rfl

theorem dataAt_note (note : Note) (rest : Execution) (depth : Nat) :
    dataAt opCodeName (.note note rest) depth =
      (noteData note).append (rest.dataAt opCodeName depth) := by
  simp only [dataAt, noteData, ExecutionData.append, NestedRun.stepsAt, NestedRun.frames,
    NestedRun.notes, List.nil_append, ← List.filterMap_append, List.singleton_append]

theorem dataAt_frame (entry : Entry) (body rest : Execution) (depth : Nat) :
    dataAt opCodeName (.frame entry body rest) depth =
      ExecutionData.append { calls := [entry.data] }
        ((dataAt opCodeName body (depth + 1)).append (rest.dataAt opCodeName depth)) := by
  simp [dataAt, ExecutionData.append, NestedRun.stepsAt, NestedRun.frames, NestedRun.notes]

end Execution

namespace CodeTracerInspector

theorem onHook_step (s : CodeTracerInspector) (interp : Interpreter) :
    s.onHook opCodeName (hookOf (.step interp)) =
      ⟨s.data.append { steps := [stepDataAt opCodeName s.currentDepth interp] },
        s.currentDepth⟩ := by
  simp [hookOf, onHook, step, stepDataAt, ExecutionData.append]

theorem onHook_note (s : CodeTracerInspector) (note : Note) :
    s.onHook opCodeName (hookOf (.note note)) =
      ⟨s.data.append (noteData note), s.currentDepth⟩ := by
  cases note <;>
    simp [hookOf, onHook, noteData, ExecutionData.append, Note.log?, Note.selfdestruct?]

theorem onHook_enter (s : CodeTracerInspector) (entry : Entry) :
    s.onHook opCodeName (hookOf (.enter entry)) =
      ⟨s.data.append { calls := [entry.data] }, s.currentDepth + 1⟩ := by
  cases entry <;> simp [hookOf, onHook, enter, Entry.data, ExecutionData.append]

theorem onHook_leave (data : ExecutionData) (depth : Nat) (entry : Entry) :
    onHook opCodeName ⟨data, depth + 1⟩ (hookOf (.leave entry)) = ⟨data, depth⟩ := by
  cases entry <;> rfl

theorem foldl_onHook (execution : Execution) (s : CodeTracerInspector) :
    execution.hooks.foldl (onHook opCodeName) s =
      ⟨s.data.append (execution.dataAt opCodeName s.currentDepth), s.currentDepth⟩ := by
  unfold Execution.hooks
  induction execution generalizing s with
  | done =>
      rw [Execution.dataAt_done, ExecutionData.append_empty]
      rfl
  | step interp rest ih =>
      rw [NestedRun.signals, List.map_cons, List.foldl_cons, onHook_step, ih,
        Execution.dataAt_step, ExecutionData.append_assoc]
  | note note rest ih =>
      rw [NestedRun.signals, List.map_cons, List.foldl_cons, onHook_note, ih,
        Execution.dataAt_note, ExecutionData.append_assoc]
  | frame entry body rest ihbody ihrest =>
      rw [NestedRun.signals, List.map_cons, List.map_append, List.map_cons, List.foldl_cons,
        List.foldl_append, List.foldl_cons, onHook_enter, ihbody, onHook_leave, ihrest,
        Execution.dataAt_frame, ExecutionData.append_assoc, ExecutionData.append_assoc]

/-- **The inspector's data.** Of any execution in a frame, met at any time, the inspector
collects every step at its frame depth, and frames, logs and selfdestructs in order;
afterwards it is at the depth where it was. -/
theorem inspect_hooks (execution : Execution) (s : CodeTracerInspector) :
    s.inspect opCodeName execution.hooks =
      ⟨s.data.append (execution.dataAt opCodeName s.currentDepth), s.currentDepth⟩ :=
  foldl_onHook opCodeName execution s

end CodeTracerInspector

/-- A transaction: one outermost frame. -/
def transaction (entry : Entry) (body : Execution) : Execution := .frame entry body .done

/-- **The inspector's depths.** When frames are entered by opcodes, the depths of the
steps collected of a transaction are those of a legal trace: 1 in the outermost
frame, and at most one deeper from step to step. -/
theorem inspected_depths_legal (entry : Entry) {body : Execution}
    (h : body.EnteredBySteps false) :
    LegalDepths ((({} : CodeTracerInspector).inspect opCodeName
      (transaction entry body).hooks).data.steps.map (·.depth)) := by
  have hdepths : (({} : CodeTracerInspector).inspect opCodeName
      (transaction entry body).hooks).data.steps.map (·.depth) =
        (body.stepsAt 1).map Prod.fst := by
    rw [CodeTracerInspector.inspect, CodeTracerInspector.foldl_onHook]
    simp [transaction, Execution.dataAt, ExecutionData.append, NestedRun.stepsAt, stepDataAt,
      Function.comp_def]
  have hpositive : ∀ d ∈ (body.stepsAt 1).map Prod.fst, 1 ≤ d := by
    intro d hd
    obtain ⟨x, hx, rfl⟩ := List.mem_map.mp hd
    exact NestedRun.le_depth_of_mem_stepsAt hx
  have hchain := NestedRun.isChain_depths h 0
  rw [hdepths]
  refine ⟨fun d hd => ?_, hchain.tail, hpositive⟩
  obtain ⟨depths, hsplit⟩ := List.head?_eq_some_iff.mp hd
  have hle : d ≤ 0 + 1 := by
    rw [hsplit] at hchain
    exact (List.isChain_cons_cons.mp hchain).1
  exact Nat.le_antisymm hle (hpositive d (by rw [hsplit]; exact List.mem_cons_self))

end

/-- A contract that creates another one and then stops. -/
def creating : Execution :=
  .step ⟨0, 0xf0, [0, 0, 0], 0⟩
    (.frame (.create ⟨.create, 1, 0, 100⟩) (.step ⟨0, 0x00, [], 0⟩ .done)
      (.step ⟨1, 0x00, [2], 0⟩ .done))

theorem inspected_depths_legal_creating :
    creating.EnteredBySteps false ∧
      LegalDepths ((({} : CodeTracerInspector).inspect (fun _ => none)
        (transaction (.call ⟨.call, 0, 1, none, 1000⟩) creating).hooks).data.steps.map
          (·.depth)) :=
  ⟨⟨rfl, trivial, trivial⟩, inspected_depths_legal _ _ ⟨rfl, trivial, trivial⟩⟩

end EvmRecorder.Inspector
