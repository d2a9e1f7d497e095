import EvmRecorder.Library.Brackets
import EvmRecorder.Recorder.Events

/-!
# Calls and returns of a recording

The calls and returns the recorder registers depend on the depths and the jump
markers of the trace only. Section 1 states that dependency as a machine of its
own and section 2 proves that the recorder projects onto it; the rest is about
that machine.
-/

namespace EvmRecorder

open Brackets

/-! ## §1  The call machine -/

inductive CallEvent where
  | call
  | ret
deriving DecidableEq, Repr

def CallEvent.weight : CallEvent → ℤ
  | .call => 1
  | .ret => -1

def TraceEvent.callEvent : TraceEvent → Option CallEvent
  | .registerCall _ => some .call
  | .registerReturn _ => some .ret
  | _ => none

def balance (events : List CallEvent) : ℤ := (events.map CallEvent.weight).sum

@[simp] theorem balance_nil : balance [] = 0 := rfl

@[simp] theorem balance_append (xs ys : List CallEvent) :
    balance (xs ++ ys) = balance xs + balance ys := by
  simp [balance]

/-- Calls registered and not yet returned. -/
def openCalls (events : List TraceEvent) : ℤ := balance (events.filterMap TraceEvent.callEvent)

theorem openCalls_append (xs ys : List TraceEvent) :
    openCalls (xs ++ ys) = openCalls xs + openCalls ys := by
  rw [openCalls, List.filterMap_append, balance_append]
  rfl

/-- Frames of external calls, opened and closed by depth changes, and of internal
calls, opened and closed by jump markers. -/
inductive FrameKind where
  | external
  | internal
deriving DecidableEq, Repr

/-- The call event of a bracket that is not absorbed. -/
def CallEvent.ofParen : Paren FrameKind → CallEvent
  | .opening _ => .call
  | .closing _ => .ret

structure Absorption where
  firstInternalCallAbsorbed : Bool := false
  absorbedCallNesting : Nat := 0
deriving DecidableEq, Repr

/-- One bracket: everything is registered but the first internal call and the
return that brings the nesting back to zero. -/
def Absorption.step : Paren FrameKind → Absorption → Absorption × List CallEvent
  | .opening .internal, s =>
      if s.firstInternalCallAbsorbed then
        ({ s with
            absorbedCallNesting :=
              if 0 < s.absorbedCallNesting then s.absorbedCallNesting + 1
              else s.absorbedCallNesting }, [.call])
      else (⟨true, 1⟩, [])
  | .closing .internal, s =>
      ({ s with absorbedCallNesting := s.absorbedCallNesting - 1 },
        if s.absorbedCallNesting = 1 then [] else [.ret])
  | .opening .external, s => (s, [.call])
  | .closing .external, s => (s, [.ret])

structure CallState where
  prevDepth : Nat := 1
  absorption : Absorption := {}
deriving DecidableEq, Repr

def depthCalls (prevDepth depth : Nat) : List CallEvent :=
  if prevDepth < depth then [.call] else List.replicate (prevDepth - depth) .ret

def markerStep (marker : JumpType) (s : Absorption) : Absorption × List CallEvent :=
  match marker with
  | .into => s.step (.opening .internal)
  | .outOf => s.step (.closing .internal)
  | .regular => (s, [])

/-- A log is its depth and its jump marker. -/
def callStep (_ : Nat) (log : Nat × JumpType) (s : CallState) : CallState × List CallEvent :=
  let marked := markerStep log.2 s.absorption
  (⟨log.1, marked.1⟩, depthCalls s.prevDepth log.1 ++ marked.2)

/-! ## §2  The recorder projects onto it -/

/-- The jump marker of the log's source-map entry. -/
def sourceMarker (a : Artifacts) (log : StructLog) : JumpType :=
  ((a.entryForPc log.pc).map (·.jumpType)).getD .regular

/-- The jump marker a log is handled with: none at unresolved locations. -/
def processedMarker (a : Artifacts) (log : StructLog) : JumpType :=
  if (a.resolvePc log.pc).isSome then sourceMarker a log else .regular

/-- What the call machine sees of a trace. -/
def callTrace (a : Artifacts) (structLogs : List StructLog) : List (Nat × JumpType) :=
  structLogs.map fun log => (log.depth, processedMarker a log)

theorem getElem?_callTrace {a : Artifacts} {structLogs : List StructLog} {k : Nat}
    {log : StructLog} (hlog : structLogs[k]? = some log) :
    (callTrace a structLogs)[k]? = some (log.depth, processedMarker a log) := by
  rw [callTrace, List.getElem?_map, hlog]
  rfl

theorem depths_callTrace (a : Artifacts) (structLogs : List StructLog) :
    (callTrace a structLogs).map (·.1) = structLogs.map (·.depth) := by
  rw [callTrace, List.map_map]
  rfl

namespace Recorder

def absorptionOf (s : RecorderState) : Absorption :=
  ⟨s.firstInternalCallAbsorbed, s.absorbedCallNesting⟩

def callState (s : RecorderState) : CallState := ⟨s.prevDepth, absorptionOf s⟩

/-- Blocks that issue neither call nor return are invisible here. -/
theorem callEvents_eq_nil {kinds : List EventKind} {events : List TraceEvent}
    (h : Issues kinds events) (hcall : .call ∉ kinds) (hret : .ret ∉ kinds) :
    events.filterMap TraceEvent.callEvent = [] := by
  refine h.filterMap_eq_nil fun e he => ?_
  cases e <;> first | rfl | exact absurd he hcall | exact absurd he hret

theorem callEvents_depthEvents (a : Artifacts) (mainPath : Path) (structLogs : List StructLog)
    (i : Nat) (log : StructLog) (s : RecorderState) :
    (depthEvents a mainPath structLogs i log s).filterMap TraceEvent.callEvent =
      depthCalls s.prevDepth log.depth := by
  unfold depthEvents depthCalls
  split
  · rfl
  · split
    · rw [List.filterMap_append,
        callEvents_eq_nil (issues_revertCaught structLogs i s.prevDepth) (by decide) (by decide),
        List.nil_append]
      exact List.filterMap_replicate_of_some rfl
    · next hle => simp [Nat.sub_eq_zero_of_le (Nat.le_of_not_lt hle)]

theorem callEvents_handleJump (a : Artifacts) (mainPath : Path) (structLogs : List StructLog)
    (i : Nat) (log : StructLog) (loc : SourceLocation) (s : RecorderState) :
    markerStep (sourceMarker a log) (absorptionOf s) =
      (absorptionOf (handleJump a mainPath structLogs i log loc s).1,
        (handleJump a mainPath structLogs i log loc s).2.filterMap TraceEvent.callEvent) := by
  have hargs : ∀ tracker : StackTracker,
      (enterInternalCall a mainPath structLogs i log loc tracker).2.filterMap
        TraceEvent.callEvent = [.call] := by
    intro tracker
    rw [enterInternalCall, List.filterMap_append, List.filterMap_append,
      callEvents_eq_nil (issues_stageInternalCallArgs _ _ _ _) (by decide) (by decide)]
    rfl
  unfold handleJump sourceMarker
  cases hentry : (a.entryForPc log.pc).map (·.jumpType) with
  | none => rfl
  | some marker =>
      cases marker with
      | into =>
          simp only [Option.getD_some, markerStep, Absorption.step, jumpInto, absorptionOf]
          by_cases habsorbed : s.firstInternalCallAbsorbed
          · simp only [habsorbed, if_true, hargs, Prod.mk.injEq, and_true, Absorption.mk.injEq]
            trivial
          · -- the absorbed call registers a function id at most
            simp only [habsorbed, Bool.false_eq_true, if_false, Prod.mk.injEq, true_and]
            split <;> rfl
      | outOf =>
          simp only [Option.getD_some, markerStep, Absorption.step, jumpOutOf, absorptionOf]
          by_cases hlast : s.absorbedCallNesting = 1
          · simp only [hlast, if_true, List.filterMap_nil]
          · simp only [hlast, if_false]
            rfl
      | regular => rfl

theorem callEvents_handleLocation (a : Artifacts) (mainPath : Path) (structLogs : List StructLog)
    (i : Nat) (log : StructLog) (s : RecorderState) :
    markerStep (processedMarker a log) (absorptionOf s) =
      (absorptionOf (handleLocation a mainPath structLogs i log s).1,
        (handleLocation a mainPath structLogs i log s).2.filterMap TraceEvent.callEvent) := by
  unfold handleLocation processedMarker
  cases hloc : a.resolvePc log.pc with
  | none => rfl
  | some loc =>
      simp only [Option.isSome_some, if_true, atLocation, List.filterMap_append]
      rw [callEvents_eq_nil (issues_emitStep _ _ _ _ _ _) (by decide) (by decide),
        callEvents_eq_nil (issues_localEvents _) (by decide) (by decide), List.nil_append,
        List.nil_append, ← callEvents_handleJump]
      rfl

theorem absorptionOf_handleStorage (keccak256 : List UInt8 → U256) (a : Artifacts)
    (log : StructLog) (s : RecorderState) :
    absorptionOf (handleStorage keccak256 a log s).1 = absorptionOf s := by
  unfold handleStorage
  dsimp only
  split <;> rfl

theorem callStep_project (keccak256 : List UInt8 → U256) (a : Artifacts) (mainPath : Path)
    (structLogs : List StructLog) (i : Nat) (log : StructLog) (s : RecorderState) :
    callStep i (log.depth, processedMarker a log) (callState s) =
      (callState (step keccak256 a mainPath structLogs i log s).1,
        (step keccak256 a mainPath structLogs i log s).2.filterMap TraceEvent.callEvent) := by
  have hlocated := callEvents_handleLocation a mainPath structLogs i log (enterDepth log s)
  have hstored := absorptionOf_handleStorage keccak256 a log
    (handleLocation a mainPath structLogs i log (enterDepth log s)).1
  have hentered : absorptionOf (enterDepth log s) = absorptionOf s := rfl
  rw [hentered] at hlocated
  simp only [callStep, callState, step, hlocated, List.filterMap_append, callEvents_depthEvents,
    callEvents_eq_nil (issues_handleStorage keccak256 a log _) (by decide) (by decide),
    callEvents_eq_nil (issues_specialEvents log) (by decide) (by decide), List.append_nil]
  rw [← hstored]
  rfl

section Runs

variable (keccak256 : List UInt8 → U256) (registered : List Path) (a : Artifacts)
  (structLogs : List StructLog)

/-- The calls and returns registered before log `k`. -/
theorem callEvents_eventsBefore (k : Nat) :
    (eventsBefore keccak256 registered a structLogs k).filterMap TraceEvent.callEvent =
      Machine.outputBefore callStep (callTrace a structLogs) {} k := by
  rw [eventsBefore, List.filterMap_append,
    callEvents_eq_nil (issues_preamble registered a) (by decide) (by decide), List.nil_append,
    Machine.outputBefore_project callState _ TraceEvent.callEvent
      (callStep_project keccak256 a (mainPathOf a.sourcePaths) structLogs)]
  rfl

theorem callState_stateBefore (k : Nat) :
    callState (stateBefore keccak256 registered a structLogs k) =
      Machine.stateBefore callStep (callTrace a structLogs) {} k := by
  rw [stateBefore, Machine.stateBefore_project callState _ TraceEvent.callEvent
    (callStep_project keccak256 a (mainPathOf a.sourcePaths) structLogs)]
  rfl

theorem callEvents_recordFromStructlog :
    (recordFromStructlog keccak256 registered a structLogs).filterMap TraceEvent.callEvent =
      (Machine.run callStep 0 (callTrace a structLogs) {}).2 := by
  by_cases hempty : structLogs = []
  · subst hempty
    rfl
  · rw [recordFromStructlog_eq_eventsBefore _ _ _ hempty, callEvents_eventsBefore,
      Machine.run_eq_outputBefore, callTrace, List.length_map]

end Runs

end Recorder

/-! ## §3  A small program -/

/-- `JUMPDEST`, a jump into a function, a jump out of one, `CALL` and `REVERT`,
all compiled from the first line. -/
def sampleArtifacts : Artifacts :=
  Recorder.singleArtifacts (SourceMap.parse "0:8:0:-;:::i;:::o;:::-;") [0x5b, 0x56, 0x56, 0xf1, 0xfd]
    [⟨["C.sol"]⟩] ["contract C {}"] none none

/-- The log of a sample instruction, without stack and memory. -/
def sampleLog (depth pc : Nat) : StructLog :=
  { pc, depth, op := ["JUMPDEST", "JUMP", "JUMP", "CALL", "REVERT"].getD pc "STOP",
    stack := none, memory := none }

end EvmRecorder
