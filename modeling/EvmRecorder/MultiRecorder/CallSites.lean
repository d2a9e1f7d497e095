import EvmRecorder.MultiRecorder.Destuttering
import EvmRecorder.SourceMap.LineTable

/-!
# Call sites of external calls

At a depth rise both recorders register a function for the frame entered and mean
to place it where the caller stood. The multi-contract recorder forgets the
caller's location just before it looks it up, so that the function always stands at
line 0 of the main path, while every location of a source has a positive line.
-/

namespace EvmRecorder.MultiRecorder

open Stack Levels

/-! ## §1  Frames of a trace -/

section Frames

variable (contractAddress : Address) (structLogs : List StructLog)

/-- Depth, and the contexts of the open frames. -/
def frameStep (i : Nat) (log : StructLog) (s : Nat × List FrameContext) :
    (Nat × List FrameContext) × List Unit :=
  ((log.depth,
    if s.1 < log.depth then s.2 ++ [(enteredFrame s.2 (prevLogOf structLogs i)).1]
    else popKeepRoot s.2 (s.1 - log.depth)), [])

/-- Before log `k`, that is, at log `k - 1`. -/
def frameContextsBefore (k : Nat) : Nat × List FrameContext :=
  Machine.stateBefore (frameStep structLogs) structLogs (1, [{ address := contractAddress }]) k

/-- The artifacts registered for the frame that executes log `k`. -/
def codeAt (registry : ContractRegistry) (k : Nat) : Artifacts :=
  artifactsOn registry contractAddress (frameContextsBefore contractAddress structLogs (k + 1)).2

variable {contractAddress structLogs} {keccak256 : List UInt8 → U256} {registered : List Path}
  {registry : ContractRegistry}

theorem popKeepRoot_zero {α : Type} (xs : List α) : popKeepRoot xs 0 = xs := by
  simp [popKeepRoot, popN]

theorem enterDepth_frameStack (i : Nat) (log : StructLog) (s : MultiRecorderState) :
    (enterDepth structLogs i log s).frameStack =
      (frameStep structLogs i log (s.prevDepth, s.frameStack)).1.2 := by
  unfold enterDepth frameStep
  rcases Nat.lt_trichotomy s.prevDepth log.depth with hrise | hsame | hfall
  · rw [if_pos hrise, if_pos hrise]
    rfl
  · rw [if_neg hsame.not_lt, if_neg hsame.not_gt, if_neg hsame.not_lt, hsame, Nat.sub_self,
      popKeepRoot_zero]
  · rw [if_neg hfall.asymm, if_pos hfall, if_neg hfall.asymm]
    rfl

theorem stepOf_frameStack (i : Nat) (log : StructLog) (s : MultiRecorderState) :
    (stepOf keccak256 registry contractAddress structLogs i log s).1.frameStack =
      (enterDepth structLogs i log s).frameStack := by
  rw [stepOf, step]
  exact ((handleStorage_kept _ _ _).2.2).trans (sameStorage_handleLocation _ _ _ _ _ _).frameStack

/-- The recorder's frame stack is that of the trace. -/
theorem frameContexts_stateBefore (k : Nat) :
    ((stateBefore keccak256 registered registry contractAddress structLogs k).prevDepth,
        (stateBefore keccak256 registered registry contractAddress structLogs k).frameStack) =
      frameContextsBefore contractAddress structLogs k := by
  have hstep : ∀ i log (s : MultiRecorderState),
      frameStep structLogs i log (s.prevDepth, s.frameStack) =
        (((stepOf keccak256 registry contractAddress structLogs i log s).1.prevDepth,
            (stepOf keccak256 registry contractAddress structLogs i log s).1.frameStack),
          (stepOf keccak256 registry contractAddress structLogs i log s).2.filterMap
            fun _ => none) := by
    intro i log s
    rw [stepOf_frameStack, enterDepth_frameStack, List.filterMap_eq_nil_iff.mpr fun _ _ => rfl]
    rfl
  refine (Machine.stateBefore_project (fun s : MultiRecorderState => (s.prevDepth, s.frameStack))
    id (fun _ => none) hstep k).trans ?_
  rw [List.map_id]
  rfl

/-- A log is recorded with the artifacts of its frame. -/
theorem artifactsAt_eq_codeAt {k : Nat} {log : StructLog} (hlog : structLogs[k]? = some log) :
    artifactsAt keccak256 registered registry contractAddress structLogs k log =
      codeAt contractAddress structLogs registry k := by
  rw [artifactsAt, artifactsFor, enterDepth_frameStack, frameContexts_stateBefore, codeAt,
    frameContextsBefore, frameContextsBefore, Machine.stateBefore_succ hlog]

end Frames

/-! ## §2  Rises and the caller's last step -/

section Rises

variable (registry : ContractRegistry) (contractAddress : Address) (structLogs : List StructLog)

/-- The depth rises from log `k`, in the calling frame, to the next log. -/
structure RisesAt (k : Nat) (caller entered : StructLog) : Prop where
  atCaller : structLogs[k]? = some caller
  atEntered : structLogs[k + 1]? = some entered
  rises : caller.depth < entered.depth

/-- Log `j` executes in the frame of depth `d` that is open before log `k`, at a
location with this step. -/
structure StepOfFrame (d j k : Nat) (step : StepData) : Prop where
  before : j < k
  openSince : OpenSince structLogs d j k
  resolved : ∃ log loc, structLogs[j]? = some log ∧ log.depth = d ∧
    (codeAt contractAddress structLogs registry j).resolvePc log.pc = some loc ∧
    step = stepAt (codeAt contractAddress structLogs registry j)
      (Recorder.mainPathOf (initialArtifacts registry contractAddress).sourcePaths) loc

/-- And it is the last such log. -/
structure IsLastStepOfFrame (d j k : Nat) (step : StepData) : Prop
    extends StepOfFrame registry contractAddress structLogs d j k step where
  last : ∀ t other, j < t → ¬ StepOfFrame registry contractAddress structLogs d t k other

/-- `f` is the function registered and called at the depth rise to log `k`. -/
def RegisteredOnEntry (keccak256 : List UInt8 → U256) (registered : List Path) (k : Nat)
    (f : FunctionId) : Prop :=
  eventsBefore keccak256 registered registry contractAddress structLogs k ++
      [.ensureFunctionId f, .registerCall f] <+:
    (recordFromStructlogMultiContract keccak256 registered registry contractAddress structLogs).1

def externalCallName (depth : Nat) : String := "external_call_depth_" ++ toString depth

/-- Every external call is registered at the caller's last step, if it has one. -/
def CallSitesAttributed (keccak256 : List UInt8 → U256) (registered : List Path) : Prop :=
  ∀ k caller entered j step, RisesAt structLogs k caller entered →
    IsLastStepOfFrame registry contractAddress structLogs caller.depth j (k + 1) step →
      RegisteredOnEntry registry contractAddress structLogs keccak256 registered (k + 1)
        ⟨externalCallName entered.depth, step.1, step.2.1⟩

variable {registry contractAddress structLogs} {keccak256 : List UInt8 → U256}
  {registered : List Path}

/-- A frame that has made a step has made a last one. -/
theorem StepOfFrame.exists_last {d k : Nat} : ∀ {j : Nat} {step : StepData},
    StepOfFrame registry contractAddress structLogs d j k step →
      ∃ j' step', IsLastStepOfFrame registry contractAddress structLogs d j' k step' := by
  intro j
  induction hn : k - j using Nat.strong_induction_on generalizing j with
  | _ n ih =>
      intro step h
      by_cases hlast : ∀ t other, j < t →
          ¬ StepOfFrame registry contractAddress structLogs d t k other
      · exact ⟨j, step, h, hlast⟩
      · push Not at hlast
        obtain ⟨t, other, hjt, hother⟩ := hlast
        have := hother.before
        exact ih (k - t) (by omega) rfl hother

/-- No location is on line 0. -/
theorem StepOfFrame.one_le_line {d j k : Nat} {step : StepData}
    (h : StepOfFrame registry contractAddress structLogs d j k step) : 1 ≤ step.2.1 := by
  obtain ⟨log, loc, -, -, hloc, rfl⟩ := h.resolved
  rw [Artifacts.resolvePc, Option.bind_eq_some_iff] at hloc
  obtain ⟨sourceMap, -, hloc⟩ := hloc
  exact SourceMap.one_le_line_of_resolvePc hloc

theorem prefix_eventsBefore (hne : structLogs ≠ []) (k : Nat) :
    eventsBefore keccak256 registered registry contractAddress structLogs k <+:
      (recordFromStructlogMultiContract keccak256 registered registry contractAddress
        structLogs).1 := by
  rw [recordFromStructlogMultiContract, if_neg (by simpa using hne), eventsBefore,
    List.prefix_append_right_inj]
  exact Machine.outputBefore_prefix_run k

/-- What the log of a rise starts with, behind the reset of the last location. -/
theorem registeredOnEntry_iff {k : Nat} {caller entered : StructLog}
    (hrise : RisesAt structLogs k caller entered) (f : FunctionId) :
    RegisteredOnEntry registry contractAddress structLogs keccak256 registered (k + 1) f ↔
      f = ⟨externalCallName entered.depth,
        Recorder.mainPathOf (initialArtifacts registry contractAddress).sourcePaths, 0⟩ := by
  have hne : structLogs ≠ [] := by
    rintro rfl
    cases hrise.atEntered
  -- the function the recorder registers
  obtain ⟨located, post, -, -, hevents⟩ := stepOf_events keccak256 registry contractAddress
    structLogs (k + 1) entered
    (stateBefore keccak256 registered registry contractAddress structLogs (k + 1))
  have hentry : RegisteredOnEntry registry contractAddress structLogs keccak256 registered (k + 1)
      ⟨externalCallName entered.depth,
        Recorder.mainPathOf (initialArtifacts registry contractAddress).sourcePaths, 0⟩ := by
    refine List.IsPrefix.trans ?_ (prefix_eventsBefore hne (k + 2))
    rw [eventsBefore_succ _ _ _ _ _ hrise.atEntered, hevents, depthEvents,
      prevDepth_stateBefore_succ keccak256 registered registry contractAddress hrise.atCaller,
      if_pos hrise.rises, List.prefix_append_right_inj]
    exact List.prefix_append _ _
  refine ⟨fun h => ?_, fun h => h ▸ hentry⟩
  -- and there is no other at its place
  have hsame := (List.prefix_of_prefix_length_le h hentry (by simp)).eq_of_length (by simp)
  rw [List.append_cancel_left_eq] at hsame
  simpa using hsame

end Rises

/-! ## §3  Attribution -/

/-- **Call sites.** A recording places the external calls at their call sites
exactly when no depth rise comes after a step of the calling frame: at every rise
the function stands at line 0 of the main path, where no step is. -/
theorem callSitesAttributed_iff (keccak256 : List UInt8 → U256) (registered : List Path)
    (registry : ContractRegistry) (contractAddress : Address) (structLogs : List StructLog) :
    CallSitesAttributed registry contractAddress structLogs keccak256 registered ↔
      ∀ k caller entered, RisesAt structLogs k caller entered → ∀ j step,
        ¬ StepOfFrame registry contractAddress structLogs caller.depth j (k + 1) step := by
  constructor
  · intro hattributed k caller entered hrise j step hstep
    obtain ⟨j', step', hlast⟩ := hstep.exists_last
    have hregistered := hattributed k caller entered j' step' hrise hlast
    rw [registeredOnEntry_iff hrise, FunctionId.mk.injEq] at hregistered
    obtain ⟨-, -, hline⟩ := hregistered
    have hpos := hlast.one_le_line
    omega
  · intro hnone k caller entered j step hrise hlast
    exact absurd hlast.toStepOfFrame (hnone k caller entered hrise j step)

/-- `JUMPDEST` and `CALL` on the first line of a contract. -/
def firstLineCall : List StructLog :=
  [Recorder.counterLog 1 0 "JUMPDEST" [], Recorder.counterLog 1 1 "CALL" [0, 0, 0, 0, 0, 2, 0],
    Recorder.counterLog 2 0 "JUMPDEST" []]

/-- The call is registered at line 0. -/
theorem callSite_firstLineCall :
    ¬ CallSitesAttributed counterRegistry 1 firstLineCall (fun _ => 0) [] := by
  intro hattributed
  have hrise : RisesAt firstLineCall 1 (Recorder.counterLog 1 1 "CALL" [0, 0, 0, 0, 0, 2, 0])
      (Recorder.counterLog 2 0 "JUMPDEST" []) := ⟨rfl, rfl, by decide⟩
  have hlast : IsLastStepOfFrame counterRegistry 1 firstLineCall 1 1 2 (⟨["C.sol"]⟩, 1, 1) := by
    refine ⟨⟨by decide, ?_, _, _, rfl, rfl, rfl, rfl⟩, ?_⟩
    · intro t log hjt htk hlog
      obtain rfl : t = 1 := Nat.le_antisymm (Nat.lt_succ_iff.mp htk) hjt
      obtain rfl := Option.some.inj hlog
      decide
    · intro t other hjt hother
      exact absurd (Nat.lt_succ_iff.mp hother.before) (Nat.not_le_of_lt hjt)
  have hregistered := hattributed 1 _ _ 1 _ hrise hlast
  rw [registeredOnEntry_iff hrise] at hregistered
  cases hregistered

end EvmRecorder.MultiRecorder
