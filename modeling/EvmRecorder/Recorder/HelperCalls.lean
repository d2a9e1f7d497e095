import EvmRecorder.Recorder.Alignment
import EvmRecorder.Recorder.Arguments

/-!
# Internal calls into generated code

The callee of an internal call is guessed: it is the function of the first of the
next few logs that lies in one, or else the function around the jump. When the callee
lies in no function itself, the guess comes from a log that is not its own, and the
parameters of that function are emitted and labelled as if they had been passed.
-/

namespace EvmRecorder

open Brackets Bytes Levels

/-! ## §1  The callee of a call -/

section Callee

variable (a : Artifacts) (structLogs : List StructLog)

/-- The jump markers of the logs at depth `d`, as brackets. -/
def frameSigns (d t : ℕ) : ℤ :=
  structLogs[t]?.elim 0 fun log => if log.depth = d then (sourceMarker a log).sign else 0

/-- The callee of the `Into` at log `i` of a frame of depth `d` executes log `j`: it is
of the same frame, and not behind the matching `OutOf`. -/
structure IsCalleeLog (d i j : ℕ) : Prop where
  later : i < j
  depth : ∃ log, structLogs[j]? = some log ∧ log.depth = d
  sameFrame : ∀ t log, i ≤ t → t ≤ j → structLogs[t]? = some log → d ≤ log.depth
  inside : ∀ b, Matched (frameSigns a structLogs d) i b → j ≤ b

/-- The function that log `j` lies in. -/
def foundAt (j : ℕ) : Option FunctionDef := structLogs[j]?.bind (functionAtLog a)

/-- The callee of the `Into` at log `i` executes nothing inside a function. -/
def HelperCall (d i : ℕ) : Prop :=
  ∀ j, IsCalleeLog a structLogs d i j → foundAt a structLogs j = none

/-- The function of log `j` is taken for the callee: log `j` is the first of the next
logs, the callee's left out, that lies in a function, or it is the jump and there is no
such log. -/
def GuessedFrom (d i j : ℕ) (func : FunctionDef) : Prop :=
  foundAt a structLogs j = some func ∧
    ((i < j ∧ j ≤ i + internalCallLookahead ∧ ¬ IsCalleeLog a structLogs d i j ∧
        ∀ t, i < t → t < j → ¬ IsCalleeLog a structLogs d i t → foundAt a structLogs t = none) ∨
      (j = i ∧ ∀ t, i < t → t ≤ i + internalCallLookahead →
        ¬ IsCalleeLog a structLogs d i t → foundAt a structLogs t = none))

variable {a structLogs}

theorem findSome?_range'_eq_some_iff {β : Type} {f : ℕ → Option β} {b : β} : ∀ s n : ℕ,
    (List.range' s n).findSome? f = some b ↔
      ∃ k, s ≤ k ∧ k < s + n ∧ f k = some b ∧ ∀ t, s ≤ t → t < k → f t = none
  | s, 0 => by
      constructor
      · intro h
        cases h
      · rintro ⟨k, hsk, hk, -⟩
        omega
  | s, n + 1 => by
      have ih := @findSome?_range'_eq_some_iff β f b (s + 1) n
      rw [List.range'_succ, List.findSome?_cons]
      cases hs : f s with
      | some c =>
          constructor
          · rintro ⟨⟩
            exact ⟨s, le_refl s, by omega, hs, fun t hst hts => absurd hst (Nat.not_le_of_lt hts)⟩
          · rintro ⟨k, hsk, -, hk, hnone⟩
            rcases Nat.eq_or_lt_of_le hsk with rfl | hlt
            · exact hs.symm.trans hk
            · rw [hnone s (le_refl s) hlt] at hs
              cases hs
      | none =>
          refine ih.trans ⟨?_, ?_⟩
          · rintro ⟨k, hsk, hkn, hk, hnone⟩
            refine ⟨k, by omega, by omega, hk, fun t hst htk => ?_⟩
            rcases Nat.eq_or_lt_of_le hst with rfl | hlt
            · exact hs
            · exact hnone t hlt htk
          · rintro ⟨k, hsk, hkn, hk, hnone⟩
            have hne : k ≠ s := by
              rintro rfl
              rw [hk] at hs
              cases hs
            exact ⟨k, by omega, by omega, hk, fun t hst htk => hnone t (by omega) htk⟩

theorem resolveInternalCallTarget_eq_some_iff {i : ℕ} {func : FunctionDef} :
    resolveInternalCallTarget a structLogs i = some func ↔
      ∃ j, i < j ∧ j ≤ i + internalCallLookahead ∧ foundAt a structLogs j = some func ∧
        ∀ t, i < t → t < j → foundAt a structLogs t = none := by
  rw [resolveInternalCallTarget, findSome?_range'_eq_some_iff]
  constructor
  · rintro ⟨s, hpos, hs, hfound, hnone⟩
    refine ⟨i + s, by omega, by omega, hfound, fun t hit hts => ?_⟩
    have hprev := hnone (t - i) (by omega) (by omega)
    rwa [Nat.add_sub_cancel' hit.le] at hprev
  · rintro ⟨j, hij, hj, hfound, hnone⟩
    refine ⟨j - i, by omega, by omega, ?_, fun t hpos ht => hnone (i + t) (by omega) (by omega)⟩
    rwa [Nat.add_sub_cancel' hij.le]

theorem resolveInternalCallTarget_eq_none_iff {i : ℕ} :
    resolveInternalCallTarget a structLogs i = none ↔
      ∀ t, i < t → t ≤ i + internalCallLookahead → foundAt a structLogs t = none := by
  rw [resolveInternalCallTarget, List.findSome?_eq_none_iff]
  constructor
  · intro hnone t hit ht
    have hstep := hnone (t - i) (List.mem_range'_1.mpr (by omega))
    rwa [Nat.add_sub_cancel' hit.le] at hstep
  · intro hnone s hs
    rw [List.mem_range'_1] at hs
    exact hnone (i + s) (by omega) (by omega)

/-- Without a function in the callee the guess is from elsewhere. -/
theorem internalCallTarget_eq_some_iff {d i : ℕ} (hhelper : HelperCall a structLogs d i)
    {func : FunctionDef} :
    internalCallTarget a structLogs i = some func ↔
      ∃ j, GuessedFrom a structLogs d i j func := by
  have hoff : ∀ t, (¬ IsCalleeLog a structLogs d i t → foundAt a structLogs t = none) →
      foundAt a structLogs t = none := by
    intro t hnone
    by_cases ht : IsCalleeLog a structLogs d i t
    · exact hhelper t ht
    · exact hnone ht
  have hnot : ∀ j, foundAt a structLogs j = some func → ¬ IsCalleeLog a structLogs d i j := by
    intro j hfound hj
    rw [hhelper j hj] at hfound
    cases hfound
  rw [internalCallTarget, Option.orElse_eq_or, Option.or_eq_some_iff,
    resolveInternalCallTarget_eq_some_iff, resolveInternalCallTarget_eq_none_iff]
  constructor
  · rintro (⟨j, hij, hj, hfound, hnone⟩ | ⟨hnone, hfound⟩)
    · exact ⟨j, hfound, .inl ⟨hij, hj, hnot j hfound, fun t hit htj _ => hnone t hit htj⟩⟩
    · exact ⟨i, hfound, .inr ⟨rfl, fun t hit ht _ => hnone t hit ht⟩⟩
  · rintro ⟨j, hfound, ⟨hij, hj, -, hnone⟩ | ⟨rfl, hnone⟩⟩
    · exact .inl ⟨j, hij, hj, hfound, fun t hit htj => hoff t (hnone t hit htj)⟩
    · exact .inr ⟨fun t hit ht => hoff t (hnone t hit ht), hfound⟩

end Callee

/-! ## §2  What is attached -/

def TraceEvent.argData : TraceEvent → Option (String × ValueRecord)
  | .arg name value => some (name, value)
  | _ => none

theorem argData_eq_nil {kinds : List EventKind} {events : List TraceEvent}
    (h : Issues kinds events) (harg : .argument ∉ kinds) :
    events.filterMap TraceEvent.argData = [] := by
  refine h.filterMap_eq_nil fun e he => ?_
  cases e <;> first | rfl | exact absurd he harg

/-- The parameters of `func` have words on the stack below the return address. -/
def HasArguments (func : FunctionDef) (stack : List U256) : Prop :=
  func.parameters ≠ [] ∧ func.parameters.length < stack.length

/-- One argument is emitted for each parameter that has a word. -/
theorem argData_argEvents (passed : List (VarDecl × U256)) :
    (passed.flatMap fun e => argEvents e.1 e.2).filterMap TraceEvent.argData =
      passed.map fun e => (e.1.name, .raw ⟨hexWord e.2,
        ⟨typeKindForSolidityType e.1.typeName, e.1.typeName⟩⟩) := by
  induction passed with
  | nil => rfl
  | cons e passed ih =>
      rw [List.flatMap_cons, List.filterMap_append, ih]
      rfl

/-- Without parameters or their words nothing is emitted and nothing is labelled. -/
theorem stageInternalCallArgs_of_not (tracker : StackTracker) {func : FunctionDef}
    {stack : List U256} (h : ¬ HasArguments func stack) :
    stageInternalCallArgs tracker (some func) (some stack) 1 =
      (⟨List.replicate (stack.length - 1) none⟩, []) := by
  by_cases hnil : func.parameters = []
  · simp [stageInternalCallArgs, StackTracker.seedTopLabels, hnil]
  · refine stageInternalCallArgs_of_lt tracker (List.length_pos_iff.mpr hnil) ?_
    rw [HasArguments, not_and, Nat.not_lt] at h
    exact Nat.lt_succ_of_le (h hnil)

theorem argData_of_hasArguments (tracker : StackTracker) {func : FunctionDef}
    {stack : List U256} (h : HasArguments func stack) :
    (stageInternalCallArgs tracker (some func) (some stack) 1).2.filterMap TraceEvent.argData ≠
      [] := by
  obtain ⟨hne, hlt⟩ := h
  have hpos : 0 < func.parameters.length := List.length_pos_iff.mpr hne
  rw [stageInternalCallArgs_of_le tracker hlt, argData_argEvents, ne_eq, List.map_eq_nil_iff,
    ← List.length_eq_zero_iff, List.length_zip, List.extract_eq_take_drop, List.length_take,
    List.length_drop]
  omega

/-- What is staged does not depend on the tracker. -/
theorem stageInternalCallArgs_eq_new (tracker : StackTracker) (target : Option FunctionDef)
    (stack : Option (List U256)) (above : Nat) :
    stageInternalCallArgs tracker target stack above =
      stageInternalCallArgs .new target stack above := by
  unfold stageInternalCallArgs
  split
  · dsimp only
    split <;> rfl
  · rfl

/-- The target whose parameters are attached. -/
def Attaches (target : Option FunctionDef) (stack : Option (List U256)) : Prop :=
  ∃ func words, target = some func ∧ stack = some words ∧ HasArguments func words

/-- Arguments are emitted exactly when there are any to attach. -/
theorem argData_stageInternalCallArgs_eq_nil_iff (tracker : StackTracker)
    (target : Option FunctionDef) (stack : Option (List U256)) :
    (stageInternalCallArgs tracker target stack 1).2.filterMap TraceEvent.argData = [] ↔
      ¬ Attaches target stack := by
  constructor
  · rintro hnone ⟨func, words, rfl, rfl, hwords⟩
    exact argData_of_hasArguments tracker hwords hnone
  · intro hnot
    cases target with
    | none => rfl
    | some func =>
        cases stack with
        | none => rfl
        | some words =>
            rw [stageInternalCallArgs_of_not tracker fun h => hnot ⟨func, words, rfl, rfl, h⟩]
            rfl

/-- And otherwise no slot is labelled either. -/
theorem slots_stageInternalCallArgs (tracker : StackTracker) {target : Option FunctionDef}
    {stack : Option (List U256)} (hnot : ¬ Attaches target stack) :
    ∀ slot ∈ (stageInternalCallArgs tracker target stack 1).1.slots, slot = none := by
  intro slot hslot
  cases target with
  | none => cases hslot
  | some func =>
      cases stack with
      | none => cases hslot
      | some words =>
          rw [stageInternalCallArgs_of_not tracker fun h => hnot ⟨func, words, rfl, rfl, h⟩]
            at hslot
          exact List.eq_of_mem_replicate hslot

namespace Recorder

section

variable (keccak256 : List UInt8 → U256) (registered : List Path) (a : Artifacts)
  (structLogs : List StructLog)

/-- The arguments emitted at log `k`. -/
def argumentsAt (k : ℕ) : List (String × ValueRecord) :=
  structLogs[k]?.elim [] fun log =>
    (step keccak256 a (mainPathOf a.sourcePaths) structLogs k log
      (stateBefore keccak256 registered a structLogs k)).2.filterMap TraceEvent.argData

/-- No argument is emitted at the call, and behind it no slot of its frame has a
label. -/
def NothingAttached (k : ℕ) (log : StructLog) : Prop :=
  argumentsAt keccak256 registered a structLogs k = [] ∧
    ∀ slot ∈ (atLevel log.depth .new
      (stateBefore keccak256 registered a structLogs (k + 1)).stackTrackers).slots, slot = none

variable {keccak256 registered a structLogs}

theorem exists_loc_of_into {log : StructLog} (hinto : processedMarker a log = .into) :
    ∃ loc, a.resolvePc log.pc = some loc ∧
      (a.entryForPc log.pc).map (·.jumpType) = some JumpType.into := by
  unfold processedMarker sourceMarker at hinto
  split at hinto
  · next hloc =>
      obtain ⟨loc, hloc⟩ := Option.isSome_iff_exists.mp hloc
      refine ⟨loc, hloc, ?_⟩
      cases hentry : (a.entryForPc log.pc).map (·.jumpType) with
      | none =>
          rw [hentry] at hinto
          cases hinto
      | some marker =>
          rw [hentry, Option.getD_some] at hinto
          rw [hinto]
  · cases hinto

/-- A call that is not absorbed emits the arguments that are staged. -/
theorem argumentsAt_of_into {k : ℕ} {log : StructLog} (hlog : structLogs[k]? = some log)
    (hinto : processedMarker a log = .into)
    (hlater : ¬ IsFirstInto (markerAt (callTrace a structLogs)) k) :
    argumentsAt keccak256 registered a structLogs k =
      (stageInternalCallArgs .new (internalCallTarget a structLogs k) log.stack
        1).2.filterMap TraceEvent.argData := by
  have habsorbed := (firstInternalCallAbsorbed_iff keccak256 registered a structLogs hlog
    hinto).mpr hlater
  obtain ⟨loc, hloc, hentry⟩ := exists_loc_of_into hinto
  rw [argumentsAt, hlog, Option.elim_some]
  simp only [step, List.filterMap_append]
  rw [argData_eq_nil (issues_depthEvents _ _ _ _ _ _) (by decide),
    argData_eq_nil (issues_handleStorage _ _ _ _) (by decide),
    argData_eq_nil (issues_specialEvents _) (by decide), List.append_nil, List.append_nil,
    List.nil_append, handleLocation, hloc]
  simp only [atLocation, List.filterMap_append]
  rw [argData_eq_nil (issues_emitStep _ _ _ _ _ _) (by decide),
    argData_eq_nil (issues_localEvents _) (by decide), List.nil_append, List.nil_append,
    handleJump, hentry]
  simp only [jumpInto, enterDepth, habsorbed, if_true, enterInternalCall, List.filterMap_append]
  simp only [List.filterMap_cons, List.filterMap_nil, TraceEvent.argData, List.nil_append,
    List.append_nil]
  rw [stageInternalCallArgs_eq_new]

/-- The tracker of the frame behind the call is the one that is staged. -/
theorem tracker_of_into {k : ℕ} {log : StructLog} (hlog : structLogs[k]? = some log)
    (hinto : processedMarker a log = .into)
    (hlater : ¬ IsFirstInto (markerAt (callTrace a structLogs)) k) :
    ∀ slot ∈ (atLevel log.depth .new
        (stateBefore keccak256 registered a structLogs (k + 1)).stackTrackers).slots,
      slot ∈ (stageInternalCallArgs .new (internalCallTarget a structLogs k) log.stack
        1).1.slots := by
  intro slot hslot
  have hk : k ≤ structLogs.length := (List.getElem?_eq_some_iff.mp hlog).1.le
  rw [stackTrackers_stateBefore_succ keccak256 registered a structLogs hlog,
    stackTrackers_enterDepth keccak256 registered a structLogs k log hk, trackerAfter, hinto]
    at hslot
  simp only [if_neg hlater] at hslot
  rcases Nat.eq_zero_or_pos log.depth with hzero | hpos
  · -- without a level there is no tracker
    rw [hzero] at hslot
    cases hslot
  · rw [atLevel, getElem?_setLevel_self hpos (by rw [length_resize]), Option.getD_some,
      stageInternalCallArgs_eq_new] at hslot
    exact hslot

end

/-- **Helper calls.** Nothing is attached to a call whose callee lies in no function
exactly when the log that the guess is from, another call's or the jump, lies in a
function without parameters or with more of them than words on the stack. -/
theorem nothingAttached_iff (keccak256 : List UInt8 → U256) (registered : List Path)
    (a : Artifacts) (structLogs : List StructLog) {i : ℕ} {log : StructLog}
    (hlog : structLogs[i]? = some log) (hinto : processedMarker a log = .into)
    (hlater : ¬ IsFirstInto (markerAt (callTrace a structLogs)) i)
    (hhelper : HelperCall a structLogs log.depth i) :
    NothingAttached keccak256 registered a structLogs i log ↔
      ∀ j func words, GuessedFrom a structLogs log.depth i j func → log.stack = some words →
        func.parameters = [] ∨ words.length ≤ func.parameters.length := by
  have hattaches : Attaches (internalCallTarget a structLogs i) log.stack ↔
      ∃ j func words, GuessedFrom a structLogs log.depth i j func ∧ log.stack = some words ∧
        HasArguments func words := by
    constructor
    · rintro ⟨func, words, htarget, hwords, hhas⟩
      obtain ⟨j, hguess⟩ := (internalCallTarget_eq_some_iff hhelper).mp htarget
      exact ⟨j, func, words, hguess, hwords, hhas⟩
    · rintro ⟨j, func, words, hguess, hwords, hhas⟩
      exact ⟨func, words, (internalCallTarget_eq_some_iff hhelper).mpr ⟨j, hguess⟩, hwords, hhas⟩
  constructor
  · rintro ⟨hargs, -⟩ j func words hguess hwords
    rw [argumentsAt_of_into hlog hinto hlater, argData_stageInternalCallArgs_eq_nil_iff,
      hattaches] at hargs
    by_contra hhas
    rw [not_or, Nat.not_le] at hhas
    exact hargs ⟨j, func, words, hguess, hwords, hhas⟩
  · intro hnone
    have hnot : ¬ Attaches (internalCallTarget a structLogs i) log.stack := by
      rw [hattaches]
      rintro ⟨j, func, words, hguess, hwords, hne, hlt⟩
      rcases hnone j func words hguess hwords with hnil | hle
      · exact hne hnil
      · exact Nat.not_le_of_lt hlt hle
    constructor
    · rw [argumentsAt_of_into hlog hinto hlater, argData_stageInternalCallArgs_eq_nil_iff]
      exact hnot
    · intro slot hslot
      exact slots_stageInternalCallArgs .new hnot slot (tracker_of_into hlog hinto hlater slot hslot)

/-! ## §3  A helper for an addition -/

def additionSource : String := "contract C { function f(uint256 n) private { n + 1; } }"

/-- The jump of the dispatcher, the jump of `n + 1` into the generated helper, the
helper with its return, and the rest of `n + 1`. -/
def additionArtifacts (parameters : List VarDecl) : Artifacts :=
  singleArtifacts (SourceMap.parse "0:55:0:i;45:5;0:0:-1:-;:::o;45:5:0:-")
    [0x56, 0x56, 0x5b, 0x56, 0x5b] [⟨["C.sol"]⟩] [additionSource] none
    (some ⟨[{ name := "f", src := ⟨13, 40, 0⟩, parameters := parameters }]⟩)

def additionParameter : VarDecl :=
  { name := "n", typeName := "uint256", src := ⟨24, 9, 0⟩, declarationOffset := 24 }

def additionLog (pc : Nat) (op : String) (stack : List U256) : StructLog :=
  { pc, op, depth := 1, stack := some stack }

/-- `n` is 7, and the helper is called with 7 and 1. -/
def additionRun : List StructLog :=
  [additionLog 0 "JUMP" [100, 7, 1], additionLog 1 "JUMP" [100, 7, 4, 7, 1, 2],
    additionLog 2 "JUMPDEST" [100, 7, 4, 7, 1], additionLog 3 "JUMP" [100, 7, 8, 4],
    additionLog 4 "JUMPDEST" [100, 7, 8]]

theorem helperCall_additionRun (parameters : List VarDecl) :
    HelperCall (additionArtifacts parameters) additionRun 1 1 := by
  intro j hj
  -- the `OutOf` at log 3 is the matching one
  have hreturn : Matched (frameSigns (additionArtifacts parameters) additionRun 1) 1 3 := by
    have hmatched : Matched (frameSigns (additionArtifacts []) additionRun 1) 1 3 := by decide
    exact hmatched
  have hle := hj.inside 3 hreturn
  have hlater := hj.later
  rcases (by omega : j = 2 ∨ j = 3) with rfl | rfl <;> rfl

/-- Without parameters of `f` nothing is attached. -/
theorem nothingAttached_additionRun :
    NothingAttached (fun _ => 0) [] (additionArtifacts []) additionRun 1
      (additionLog 1 "JUMP" [100, 7, 4, 7, 1, 2]) := by
  refine (nothingAttached_iff (fun _ => 0) [] (additionArtifacts []) additionRun rfl (by decide)
    (by decide) (helperCall_additionRun [])).mpr ?_
  intro j func words hguess _
  left
  have hfound := hguess.1
  rcases j with _ | _ | _ | _ | _ | j
  · cases hfound
  · cases hfound
    rfl
  · cases hfound
  · cases hfound
  · cases hfound
    rfl
  · cases hfound

/-- The argument 1 of the helper is emitted as `n`. -/
theorem attached_additionRun :
    HelperCall (additionArtifacts [additionParameter]) additionRun 1 1 ∧
      argumentsAt (fun _ => 0) [] (additionArtifacts [additionParameter]) additionRun 1 =
        [("n", .raw ⟨"0x1", ⟨.int, "uint256"⟩⟩)] ∧
      ¬ NothingAttached (fun _ => 0) [] (additionArtifacts [additionParameter]) additionRun 1
        (additionLog 1 "JUMP" [100, 7, 4, 7, 1, 2]) := by
  have hargs : argumentsAt (fun _ => 0) [] (additionArtifacts [additionParameter]) additionRun 1 =
      [("n", .raw ⟨"0x1", ⟨.int, "uint256"⟩⟩)] := by
    decide
  refine ⟨helperCall_additionRun _, hargs, ?_⟩
  rintro ⟨hnone, -⟩
  rw [hargs] at hnone
  cases hnone

end Recorder

end EvmRecorder
