import EvmRecorder.Recorder.OpenCalls
import EvmRecorder.StackTracker.Simulation

/-!
# Alignment of the stack trackers

On a legal run the tracker of a frame has the height of the frame's stack, until
a jump marker resets it. By design the tracker is reset at every return, at the
absorbed first call and at calls whose callee is unknown; from then on it counts
what was pushed since and stays at most as high as the stack. A call whose callee
is known aligns it again.
-/

namespace EvmRecorder

open Brackets Evm Levels StackTracker

/-! ## §1  Frames of a run -/

/-- What a tracker knows of its frame's height. -/
inductive Alignment where
  | aligned
  | restarted
  | unknown
deriving DecidableEq, Repr

/-- An open frame: its last instruction with the stack before it, none in a new
frame, and the alignment of its tracker. -/
structure Frame where
  last : Option (String × List U256) := none
  alignment : Alignment := .aligned

/-- The stacks the frame may show at its next log. -/
def Frame.Shows (frame : Frame) (stack : List U256) : Prop :=
  match frame.last with
  | none => stack = []
  | some (op, before) => ∃ i ∈ cancun, i.mnemonic = op ∧ StackStep i.rule before stack

section Frames

variable (a : Artifacts) (structLogs : List StructLog)

/-- The alignment after a marker: a call to a known callee seeds the tracker with
the height after a `JUMP`. -/
def alignmentAfter (i : Nat) (log : StructLog) (before : Alignment) : Alignment :=
  match processedMarker a log with
  | .into =>
      if IsFirstInto (markerAt (callTrace a structLogs)) i ∨
        internalCallTarget a structLogs i = none then .restarted
      else if log.op = "JUMP" then .aligned
      else .unknown
  | .outOf => .restarted
  | .regular => before

/-- The open frames after a log. -/
def frameStep (i : Nat) (log : StructLog) (frames : List Frame) : List Frame × List Unit :=
  (setLevel log.depth
    ⟨some (log.op, log.stack.getD []),
      alignmentAfter a structLogs i log (atLevel log.depth {} frames).alignment⟩
    (resize log.depth {} frames), [])

/-- The open frames before log `k`. -/
def framesBefore (k : Nat) : List Frame :=
  Machine.stateBefore (frameStep a structLogs) structLogs [] k

/-- The frame that executes log `k`, as its previous log left it. -/
def frameAt (k : Nat) (log : StructLog) : Frame :=
  atLevel log.depth {} (framesBefore a structLogs k)

/-- Every log has a stack, and it follows from the previous log of its frame. -/
def LegalRun : Prop :=
  ∀ k log, structLogs[k]? = some log →
    1 ≤ log.depth ∧ ∃ stack, log.stack = some stack ∧ (frameAt a structLogs k log).Shows stack

end Frames

/-! ## §2  Heights over one instruction -/

/-- The tracker's height relates to that of the frame's next stack as the
alignment says. -/
def HeightAgrees (tracker : StackTracker) (alignment : Alignment) (stack : List U256) : Prop :=
  match alignment with
  | .aligned => tracker.depth = stack.length
  | .restarted => tracker.depth ≤ stack.length
  | .unknown => True

theorem opcodeFromName_mnemonic : ∀ i ∈ cancun, opcodeFromName i.mnemonic = some i.opcode := by
  decide +kernel

theorem jump_rule : ∀ i ∈ cancun, i.mnemonic = "JUMP" → i.rule = .generic 1 0 := by
  decide +kernel

/-- Lower trackers stay lower. -/
theorem length_execOpcode_mono {slots slots' : List (Option String)} (opcode : UInt8)
    (h : slots.length ≤ slots'.length) :
    (execOpcode slots opcode none []).1.length ≤ (execOpcode slots' opcode none []).1.length := by
  unfold execOpcode
  cases slotEffect opcode with
  | anon pops pushes => simp only [List.length_append, Stack.length_popN, List.length_replicate]; omega
  | push => simpa using h
  | dup n => simpa using h
  | swap n => simpa [Stack.length_swapTop] using h

/-- Over an instruction the tracker keeps agreeing with the stack. -/
theorem heightAgrees_trackOpcode {tracker : StackTracker} {alignment : Alignment} {op : String}
    {before after : List U256} (h : HeightAgrees tracker alignment before) {i : Instruction}
    (hi : i ∈ cancun) (hop : i.mnemonic = op) (hstep : StackStep i.rule before after)
    (offset : Option Int32) (vars : List VarDecl) :
    HeightAgrees (trackOpcode tracker op offset vars) alignment after := by
  have hopcode : opcodeFromName op = some i.opcode := by rw [← hop, opcodeFromName_mnemonic i hi]
  unfold trackOpcode
  rw [hopcode]
  cases alignment with
  | aligned => exact depth_processStep_of_stackStep hi hstep h offset vars
  | restarted =>
      -- compare with a tracker of the stack's height
      have hfull : (StackTracker.mk (List.replicate before.length none)).depth = before.length :=
        List.length_replicate
      have hexact := depth_processStep_of_stackStep hi hstep hfull none []
      show (tracker.processStep i.opcode offset vars).1.depth ≤ after.length
      rw [← hexact, depth_processStep, depth_processStep]
      refine length_execOpcode_mono i.opcode ?_
      show tracker.depth ≤ (List.replicate before.length none).length
      rw [List.length_replicate]
      exact h
  | unknown => trivial

/-! ## §3  One log -/

section OneLog

variable (a : Artifacts) (structLogs : List StructLog)

/-- The tracker of a log's depth after the log, from the one before it. -/
def trackerAfter (i : Nat) (log : StructLog) (tracker : StackTracker) : StackTracker :=
  let tracked := trackOpcode tracker log.op (a.sourceOffset log.pc)
    ((a.resolvePc log.pc).elim [] (inScopeAt a log.pc))
  match processedMarker a log with
  | .into =>
      if IsFirstInto (markerAt (callTrace a structLogs)) i then .new
      else (stageInternalCallArgs tracked (internalCallTarget a structLogs i) log.stack 1).1
  | .outOf => .new
  | .regular => tracked

variable {a structLogs}

theorem depth_seedTopLabels (tracker : StackTracker) (n : Nat) (labels : List String) :
    (tracker.seedTopLabels n labels).depth = n := by
  unfold seedTopLabels depth
  split
  · exact List.length_replicate
  · next h =>
      simp only [Bool.or_eq_true, decide_eq_true_eq, not_or, not_lt] at h
      simp only [List.length_append, List.length_replicate, List.length_map]
      exact Nat.sub_add_cancel h.2

theorem depth_stageInternalCallArgs (tracker : StackTracker) (func : FunctionDef)
    (stack : List U256) :
    (stageInternalCallArgs tracker (some func) (some stack) 1).1.depth = stack.length - 1 := by
  unfold stageInternalCallArgs
  dsimp only
  split <;> exact depth_seedTopLabels tracker _ _

/-- Seeding and resetting forget the tracker they start from. -/
theorem stageInternalCallArgs_tracker (tracker other : StackTracker)
    (target : Option FunctionDef) (stack : Option (List U256)) (above : Nat) :
    (stageInternalCallArgs tracker target stack above).1 =
      (stageInternalCallArgs other target stack above).1 := by
  unfold stageInternalCallArgs
  split
  · dsimp only
    split <;> rfl
  · rfl

/-- What a log preserves: its frame's tracker agrees with every stack the frame
may show next. -/
theorem heightAgrees_trackerAfter {i : Nat} {log : StructLog} {tracker : StackTracker}
    {frame : Frame} {stack after : List U256} (hstack : log.stack = some stack)
    (h : HeightAgrees tracker frame.alignment stack)
    (hshows : (Frame.mk (some (log.op, stack)) frame.alignment).Shows after) :
    HeightAgrees (trackerAfter a structLogs i log tracker)
      (alignmentAfter a structLogs i log frame.alignment) after := by
  obtain ⟨instr, hinstr, hop, hstep⟩ := hshows
  have hreset : HeightAgrees .new .restarted after := Nat.zero_le _
  unfold trackerAfter alignmentAfter
  cases processedMarker a log with
  | outOf => exact hreset
  | regular => exact heightAgrees_trackOpcode h hinstr hop hstep _ _
  | into =>
      dsimp only
      by_cases hfirst : IsFirstInto (markerAt (callTrace a structLogs)) i
      · rw [if_pos hfirst, if_pos (.inl hfirst)]
        exact hreset
      rw [if_neg hfirst]
      cases htarget : internalCallTarget a structLogs i with
      | none =>
          rw [if_pos (.inr rfl)]
          exact hreset
      | some func =>
          rw [if_neg (by simp [hfirst])]
          split
          · next hjump =>
              -- the jump target is the one word above the parameters
              rw [hjump] at hop
              have hrule : instr.rule = .generic 1 0 := jump_rule instr hinstr hop
              have hlength := length_of_stackStep hstep
              rw [hrule] at hstep hlength
              show (stageInternalCallArgs _ _ _ _).1.depth = after.length
              rw [hstack, depth_stageInternalCallArgs]
              simp only [StackRule.netEffect] at hlength
              omega
          · trivial

end OneLog

/-! ## §4  Runs -/

namespace Recorder

section Step

variable {a : Artifacts} {mainPath : Path} {structLogs : List StructLog} {i : Nat}
  {log : StructLog} {s : RecorderState}

/-- The tracker of the log's depth is replaced, the others stay. -/
theorem stackTrackers_handleLocation
    (habsorbed : processedMarker a log = .into → (s.firstInternalCallAbsorbed = true ↔
      ¬ IsFirstInto (markerAt (callTrace a structLogs)) i)) :
    (handleLocation a mainPath structLogs i log s).1.stackTrackers =
      setLevel log.depth (trackerAfter a structLogs i log (atLevel log.depth .new s.stackTrackers))
        s.stackTrackers := by
  unfold handleLocation
  cases hloc : a.resolvePc log.pc with
  | none =>
      have hmarker : processedMarker a log = .regular := by
        rw [processedMarker, hloc]
        rfl
      simp only [trackerAfter, hmarker, hloc]
      rfl
  | some loc =>
      have hmarker : processedMarker a log = sourceMarker a log := by
        rw [processedMarker, hloc]
        rfl
      rw [hmarker] at habsorbed
      simp only [trackerAfter, hmarker, hloc, atLocation, handleJump]
      unfold sourceMarker at habsorbed ⊢
      cases hentry : (a.entryForPc log.pc).map (·.jumpType) with
      | none => rfl
      | some marker =>
          rw [hentry, Option.getD_some] at habsorbed
          cases marker with
          | into =>
              have habsorbed := habsorbed rfl
              simp only [Option.getD_some, jumpInto]
              by_cases hfirst : IsFirstInto (markerAt (callTrace a structLogs)) i
              · have hnot : ¬ s.firstInternalCallAbsorbed = true := fun h => habsorbed.mp h hfirst
                simp only [if_neg hnot, if_pos hfirst, setLevel_setLevel]
              · simp only [if_pos (habsorbed.mpr hfirst), if_neg hfirst, enterInternalCall,
                  setLevel_setLevel]
                rw [stageInternalCallArgs_tracker]
          | outOf => simp only [Option.getD_some, jumpOutOf, setLevel_setLevel]
          | regular => rfl

end Step

section Runs

variable (keccak256 : List UInt8 → U256) (registered : List Path) (a : Artifacts)
  (structLogs : List StructLog)

theorem stackTrackers_stateBefore_succ {k : Nat} {log : StructLog}
    (hlog : structLogs[k]? = some log) :
    (stateBefore keccak256 registered a structLogs (k + 1)).stackTrackers =
      setLevel log.depth
        (trackerAfter a structLogs k log (atLevel log.depth .new
          (enterDepth log (stateBefore keccak256 registered a structLogs k)).stackTrackers))
        (enterDepth log (stateBefore keccak256 registered a structLogs k)).stackTrackers := by
  have hstorage : ∀ s, (handleStorage keccak256 a log s).1.stackTrackers = s.stackTrackers := by
    intro s
    unfold handleStorage
    dsimp only
    split <;> rfl
  have hlocated :
      (handleLocation a (mainPathOf a.sourcePaths) structLogs k log
        (enterDepth log (stateBefore keccak256 registered a structLogs k))).1.stackTrackers = _ :=
    stackTrackers_handleLocation
      (firstInternalCallAbsorbed_iff keccak256 registered a structLogs hlog)
  rw [← hlocated, stateBefore, Machine.stateBefore_succ hlog]
  exact hstorage _

/-- Before the first log there is no tracker; afterwards one for each level. -/
theorem stackTrackers_enterDepth : ∀ (k : Nat) (log : StructLog), k ≤ structLogs.length →
    (enterDepth log (stateBefore keccak256 registered a structLogs k)).stackTrackers =
      resize log.depth .new (stateBefore keccak256 registered a structLogs k).stackTrackers
  | 0, log, _ => by
      rw [stateBefore, Machine.stateBefore_zero]
      show growTo log.depth StackTracker.new (Stack.popN [] _) = _
      rw [Stack.popN, List.take_nil]
      exact growTo_eq_resize (Nat.zero_le _)
  | k + 1, log, hk => by
      have hlog : structLogs[k]? = some structLogs[k] := List.getElem?_eq_getElem hk
      have hprev : (stateBefore keccak256 registered a structLogs (k + 1)).prevDepth =
          structLogs[k].depth := by
        rw [stateBefore, Machine.stateBefore_succ hlog]
        rfl
      have hlength : (stateBefore keccak256 registered a structLogs (k + 1)).stackTrackers.length =
          structLogs[k].depth := by
        rw [stackTrackers_stateBefore_succ keccak256 registered a structLogs hlog,
          length_setLevel, stackTrackers_enterDepth k _ (Nat.le_of_lt hk), length_resize]
      rw [← hprev] at hlength
      exact growTo_popN hlength

/-- A tracker agrees with every stack its frame may show next. -/
def Tracks (tracker : StackTracker) (frame : Frame) : Prop :=
  ∀ stack, frame.Shows stack → HeightAgrees tracker frame.alignment stack

theorem tracks_new : Tracks .new {} := by
  rintro stack rfl
  rfl

/-- Level by level the trackers track the open frames. -/
theorem tracks_stateBefore (hrun : LegalRun a structLogs) : ∀ k, k ≤ structLogs.length →
    List.Forall₂ Tracks (stateBefore keccak256 registered a structLogs k).stackTrackers
      (framesBefore a structLogs k)
  | 0, _ => by
      rw [stateBefore, framesBefore, Machine.stateBefore_zero, Machine.stateBefore_zero]
      exact .nil
  | k + 1, hk => by
      have hlog : structLogs[k]? = some structLogs[k] := List.getElem?_eq_getElem hk
      have ih := tracks_stateBefore hrun k (Nat.le_of_lt hk)
      obtain ⟨hpos, stack, hstack, hshows⟩ := hrun k _ hlog
      have hlevels := forall₂_resize structLogs[k].depth tracks_new ih
      rw [stackTrackers_stateBefore_succ keccak256 registered a structLogs hlog,
        stackTrackers_enterDepth keccak256 registered a structLogs k _ (Nat.le_of_lt hk),
        framesBefore, Machine.stateBefore_succ hlog]
      refine forall₂_setLevel _ ?_ hlevels
      -- the frame of this log
      have hframe := rel_atLevel structLogs[k].depth tracks_new ih
      rw [atLevel_resize hpos]
      intro after hafter
      rw [hstack, Option.getD_some] at hafter
      exact heightAgrees_trackerAfter hstack (hframe stack hshows) hafter

/-- **Alignment.** On a legal run, the tracker that local variables are read
from is as high as the stack they are looked up in while no marker has reset it,
and at most as high after a reset. The next log, whose stack is used, is of the
same frame. -/
theorem trackerRead_aligned (hrun : LegalRun a structLogs) {i : Nat} {log next : StructLog}
    {loc : SourceLocation} {stack : List U256} (hlog : structLogs[i]? = some log)
    (hnext : structLogs[i + 1]? = some next) (hsame : next.depth = log.depth)
    (hstack : postStack structLogs i = some stack) :
    ((frameAt a structLogs i log).alignment = .aligned →
      (trackedStack a log (some loc)
        (enterDepth log (stateBefore keccak256 registered a structLogs i))).depth = stack.length) ∧
    ((frameAt a structLogs i log).alignment = .restarted →
      (trackedStack a log (some loc)
        (enterDepth log (stateBefore keccak256 registered a structLogs i))).depth ≤
          stack.length) := by
  have hi : i ≤ structLogs.length := (List.getElem?_eq_some_iff.mp hlog).1.le
  obtain ⟨hpos, before, hbefore, hshows⟩ := hrun i log hlog
  obtain ⟨-, after, hafter, hnextShows⟩ := hrun (i + 1) next hnext
  have hsameStack : after = stack := by
    rw [postStack, hnext, Option.bind_some, hafter] at hstack
    exact Option.some.inj hstack
  subst hsameStack
  have htracks := rel_atLevel log.depth tracks_new
    (tracks_stateBefore keccak256 registered a structLogs hrun i hi) before hshows
  -- the next log's stack is this log's after its instruction
  have hlast : (frameAt a structLogs (i + 1) next).last = some (log.op, before) := by
    rw [frameAt, framesBefore, Machine.stateBefore_succ hlog, hsame]
    simp only [frameStep, atLevel]
    rw [getElem?_setLevel_self hpos (by rw [length_resize]), hbefore]
    rfl
  rw [Frame.Shows, hlast] at hnextShows
  obtain ⟨instr, hinstr, hop, hstep⟩ := hnextShows
  have hread := heightAgrees_trackOpcode htracks hinstr hop hstep (a.sourceOffset log.pc)
    ((some loc).elim [] (inScopeAt a log.pc))
  rw [trackedStack, stackTrackers_enterDepth keccak256 registered a structLogs i log hi,
    atLevel_resize hpos]
  change HeightAgrees _ (frameAt a structLogs i log).alignment after at hread
  constructor
  · intro haligned
    rw [haligned] at hread
    exact hread
  · intro hrestarted
    rw [hrestarted] at hread
    exact hread

end Runs

/-! ## §5  Small runs -/

def localsSource : String := "contract C { function f() public { uint256 x = 5; } }"

/-- `f` is entered by a jump; the word of `x` is pushed inside it. -/
def localsArtifacts : Artifacts :=
  singleArtifacts (SourceMap.parse "0:53:0:-;;:::i;13:38::-;35:9;13:38")
    [0x60, 0x09, 0x60, 0x05, 0x56, 0x5b, 0x60, 0x05, 0x00] [⟨["C.sol"]⟩] [localsSource] none
    (some ⟨[{ name := "f", src := ⟨13, 38, 0⟩,
              localVariables := [{ name := "x", typeName := "uint256", src := ⟨35, 9, 0⟩,
                                   declarationOffset := 35 }] }]⟩)

def localsLog (pc : Nat) (op : String) (stack : List U256) : StructLog :=
  { pc, op, depth := 1, stack := some stack }

/-- The declaration of `x` on an empty stack. -/
def declarationRun : List StructLog := [localsLog 6 "PUSH1" [], localsLog 8 "STOP" [5]]

/-- The contract calls itself; the callee declares `x`. -/
def calledRun : List StructLog :=
  [localsLog 20 "PUSH0" [], localsLog 21 "PUSH0" [0], localsLog 22 "PUSH0" [0, 0],
    localsLog 23 "PUSH0" [0, 0, 0], localsLog 24 "ADDRESS" [0, 0, 0, 0],
    localsLog 25 "GAS" [0, 0, 0, 0, 7], localsLog 26 "STATICCALL" [0, 0, 0, 0, 7, 9000],
    { localsLog 6 "PUSH1" [] with depth := 2 }, { localsLog 8 "STOP" [5] with depth := 2 },
    localsLog 27 "STOP" [1]]

theorem legalRun_calledRun : LegalRun localsArtifacts calledRun := by
  have hpush : ∀ (rest : List U256) (w : U256), StackStep (.generic 0 1) rest (rest ++ [w]) := by
    intro rest w
    have hstep := @StackStep.generic _ rest [] [w]
    rwa [List.append_nil] at hstep
  rintro (_ | _ | _ | _ | _ | _ | _ | _ | _ | _ | k) log hlog
  · obtain rfl := Option.some.inj hlog
    exact ⟨by decide, [], rfl, rfl⟩
  · obtain rfl := Option.some.inj hlog
    exact ⟨by decide, [0], rfl, ⟨"PUSH0", 0x5f, .generic 0 1⟩, by decide +kernel, rfl, hpush [] 0⟩
  · obtain rfl := Option.some.inj hlog
    exact ⟨by decide, [0, 0], rfl, ⟨"PUSH0", 0x5f, .generic 0 1⟩, by decide +kernel, rfl,
      hpush [0] 0⟩
  · obtain rfl := Option.some.inj hlog
    exact ⟨by decide, [0, 0, 0], rfl, ⟨"PUSH0", 0x5f, .generic 0 1⟩, by decide +kernel, rfl,
      hpush [0, 0] 0⟩
  · obtain rfl := Option.some.inj hlog
    exact ⟨by decide, [0, 0, 0, 0], rfl, ⟨"PUSH0", 0x5f, .generic 0 1⟩, by decide +kernel, rfl,
      hpush [0, 0, 0] 0⟩
  · obtain rfl := Option.some.inj hlog
    exact ⟨by decide, [0, 0, 0, 0, 7], rfl, ⟨"ADDRESS", 0x30, .generic 0 1⟩, by decide +kernel,
      rfl, hpush [0, 0, 0, 0] 7⟩
  · obtain rfl := Option.some.inj hlog
    exact ⟨by decide, [0, 0, 0, 0, 7, 9000], rfl, ⟨"GAS", 0x5a, .generic 0 1⟩, by decide +kernel,
      rfl, hpush [0, 0, 0, 0, 7] 9000⟩
  -- the frame of the callee, on an empty stack
  · obtain rfl := Option.some.inj hlog
    exact ⟨by decide, [], rfl, rfl⟩
  · obtain rfl := Option.some.inj hlog
    exact ⟨by decide, [5], rfl, ⟨"PUSH1", 0x60, .generic 0 1⟩, by decide +kernel, rfl, hpush [] 5⟩
  · obtain rfl := Option.some.inj hlog
    exact ⟨by decide, [1], rfl, ⟨"STATICCALL", 0xfa, .generic 6 1⟩, by decide +kernel, rfl,
      @StackStep.generic _ [] [0, 0, 0, 0, 7, 9000] [1]⟩
  · cases hlog

/-- In the frame of the callee the tracker starts anew. -/
theorem trackerRead_aligned_calledRun :
    (trackedStack localsArtifacts { localsLog 6 "PUSH1" [] with depth := 2 } (some ⟨0, 1, 35⟩)
      (enterDepth { localsLog 6 "PUSH1" [] with depth := 2 }
        (stateBefore (fun _ => 0) [] localsArtifacts calledRun 7))).depth = 1 := by
  have hlog : calledRun[7]? = some { localsLog 6 "PUSH1" [] with depth := 2 } := rfl
  have hnext : calledRun[7 + 1]? = some { localsLog 8 "STOP" [5] with depth := 2 } := rfl
  have hstack : postStack calledRun 7 = some [5] := rfl
  exact (trackerRead_aligned (fun _ => 0) [] localsArtifacts calledRun
    legalRun_calledRun hlog hnext rfl hstack).1 (by decide)

/-- `f` is entered by the first `Into` of the trace, with a word below. -/
def absorbedRun : List StructLog :=
  [localsLog 0 "PUSH1" [], localsLog 2 "PUSH1" [9], localsLog 4 "JUMP" [9, 5],
    localsLog 5 "JUMPDEST" [9], localsLog 6 "PUSH1" [9], localsLog 8 "STOP" [9, 5]]

theorem legalRun_absorbedRun : LegalRun localsArtifacts absorbedRun := by
  rintro (_ | _ | _ | _ | _ | _ | k) log hlog
  · obtain rfl : localsLog 0 "PUSH1" [] = log := Option.some.inj hlog
    exact ⟨by decide, [], rfl, rfl⟩
  · obtain rfl : localsLog 2 "PUSH1" [9] = log := Option.some.inj hlog
    exact ⟨by decide, [9], rfl, ⟨"PUSH1", 0x60, .generic 0 1⟩, by decide +kernel, rfl,
      @StackStep.generic _ [] [] [9]⟩
  · obtain rfl : localsLog 4 "JUMP" [9, 5] = log := Option.some.inj hlog
    exact ⟨by decide, [9, 5], rfl, ⟨"PUSH1", 0x60, .generic 0 1⟩, by decide +kernel, rfl,
      @StackStep.generic _ [9] [] [5]⟩
  · obtain rfl : localsLog 5 "JUMPDEST" [9] = log := Option.some.inj hlog
    exact ⟨by decide, [9], rfl, ⟨"JUMP", 0x56, .generic 1 0⟩, by decide +kernel, rfl,
      @StackStep.generic _ [9] [5] []⟩
  · obtain rfl : localsLog 6 "PUSH1" [9] = log := Option.some.inj hlog
    exact ⟨by decide, [9], rfl, ⟨"JUMPDEST", 0x5b, .generic 0 0⟩, by decide +kernel, rfl,
      @StackStep.generic _ [9] [] []⟩
  · obtain rfl : localsLog 8 "STOP" [9, 5] = log := Option.some.inj hlog
    exact ⟨by decide, [9, 5], rfl, ⟨"PUSH1", 0x60, .generic 0 1⟩, by decide +kernel, rfl,
      @StackStep.generic _ [9] [] [5]⟩
  · cases hlog

/-- After the absorbed call the tracker is one word short, and `x` is read from
the word below it. -/
theorem trackerRead_absorbedRun :
    LegalRun localsArtifacts absorbedRun ∧
      localsArtifacts.resolvePc 6 = some ⟨0, 1, 35⟩ ∧
      (localsRead localsArtifacts absorbedRun 4 (localsLog 6 "PUSH1" [9]) ⟨0, 1, 35⟩
        (enterDepth (localsLog 6 "PUSH1" [9])
          (stateBefore (fun _ => 0) [] localsArtifacts absorbedRun 4))).map
            (fun e => (e.1.name, e.2)) = [("x", 9)] ∧
      (trackedStack localsArtifacts (localsLog 6 "PUSH1" [9]) (some ⟨0, 1, 35⟩)
        (enterDepth (localsLog 6 "PUSH1" [9])
          (stateBefore (fun _ => 0) [] localsArtifacts absorbedRun 4))).depth = 1 ∧
      postStack absorbedRun 4 = some [9, 5] :=
  ⟨legalRun_absorbedRun, by decide, by decide, by decide, by decide⟩

end Recorder

end EvmRecorder
