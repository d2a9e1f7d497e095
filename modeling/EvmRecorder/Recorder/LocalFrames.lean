import EvmRecorder.MultiRecorder.Destuttering

/-!
# Whose stack local values are read from

Behind the opcode of a log the single-contract recorder looks the variables up in
the stack of the next log. That is the stack of the same frame unless the depth
changes there; then it is the stack of the frame entered or returned to. Nothing is read
from it exactly when no variable has its label below its height, and a label is only
there when the frame has named the variable since it was entered.
-/

namespace EvmRecorder.Recorder

open Stack Levels StackTracker

/-! ## §1  Symbolic stacks of a trace -/

section Symbolic

variable (a : Artifacts) (structLogs : List StructLog)

/-- The symbolic stacks of the open frames after a log. -/
def symbolicStep (i : Nat) (log : StructLog) (trackers : List StackTracker) :
    List StackTracker × List Unit :=
  let entered := resize log.depth .new trackers
  (setLevel log.depth (trackerAfter a structLogs i log (atLevel log.depth .new entered)) entered,
    [])

/-- The symbolic stacks of the open frames before log `k`. -/
def symbolicBefore (k : Nat) : List StackTracker :=
  Machine.stateBefore (symbolicStep a structLogs) structLogs [] k

/-- The symbolic stack of the log's frame behind its opcode. -/
def symbolicAt (k : Nat) (log : StructLog) : StackTracker :=
  trackOpcode (atLevel log.depth .new (resize log.depth .new (symbolicBefore a structLogs k)))
    log.op (a.sourceOffset log.pc) ((a.resolvePc log.pc).elim [] (inScopeAt a log.pc))

variable {a structLogs} {keccak256 : List UInt8 → U256} {registered : List Path}

theorem stackTrackers_stateBefore : ∀ k, k ≤ structLogs.length →
    (stateBefore keccak256 registered a structLogs k).stackTrackers = symbolicBefore a structLogs k
  | 0, _ => by
      rw [stateBefore, symbolicBefore, Machine.stateBefore_zero, Machine.stateBefore_zero]
      rfl
  | k + 1, hk => by
      have hlog := List.getElem?_eq_getElem hk
      have ih := stackTrackers_stateBefore k (Nat.le_of_lt hk)
      rw [stackTrackers_stateBefore_succ keccak256 registered a structLogs hlog,
        stackTrackers_enterDepth keccak256 registered a structLogs k _ (Nat.le_of_lt hk), ih,
        symbolicBefore, symbolicBefore, Machine.stateBefore_succ hlog]
      rfl

/-- The recorder's symbolic stack is that of the trace. -/
theorem trackedStack_enterDepth {k : Nat} {log : StructLog} (hlog : structLogs[k]? = some log) :
    trackedStack a log (a.resolvePc log.pc)
        (enterDepth log (stateBefore keccak256 registered a structLogs k)) =
      symbolicAt a structLogs k log := by
  have hk : k ≤ structLogs.length := (List.getElem?_eq_some_iff.mp hlog).1.le
  rw [trackedStack, stackTrackers_enterDepth keccak256 registered a structLogs k log hk,
    stackTrackers_stateBefore k hk]
  rfl

/-! ## §2  Names of a frame -/

variable (a structLogs)

/-- Log `k` gives a word of its frame a name: that of a parameter where a function is
entered, or of a variable whose declaration or statement is executed. -/
def NamesAt (k : Nat) (log : StructLog) (name : String) : Prop :=
  match processedMarker a log with
  | .into => ¬ IsFirstInto (markerAt (callTrace a structLogs)) k ∧
      ∃ func, internalCallTarget a structLogs k = some func ∧ ∃ p ∈ func.parameters, p.name = name
  | .outOf => False
  | .regular => ∃ v ∈ lookedUpAt a log, v.name = name ∧ Matches (a.sourceOffset log.pc) v

/-- The frame of depth `depth` that is open before log `k` got the name since it was
entered, and since the last internal call or return in it. -/
def NamedSince (k depth : Nat) (name : String) : Prop :=
  ∃ j log, structLogs[j]? = some log ∧ j < k ∧ log.depth = depth ∧ NamesAt a structLogs j log name ∧
    ∀ i between, structLogs[i]? = some between → j < i → i < k → depth ≤ between.depth ∧
      (between.depth = depth → processedMarker a between = .regular)

/-- The frame of log `k` has the name, or gets it there. -/
def Named (k : Nat) (log : StructLog) (name : String) : Prop :=
  NamedSince a structLogs k log.depth name ∨
    ∃ v ∈ lookedUpAt a log, v.name = name ∧ Matches (a.sourceOffset log.pc) v

variable {a structLogs}

/-- Entering a function leaves only the names of its parameters. -/
theorem mem_slots_stageInternalCallArgs {tracker : StackTracker} {target : Option FunctionDef}
    {stack : Option (List U256)} {above : Nat} {name : String}
    (h : some name ∈ (stageInternalCallArgs tracker target stack above).1.slots) :
    ∃ func, target = some func ∧ ∃ p ∈ func.parameters, p.name = name := by
  unfold stageInternalCallArgs at h
  split at h
  · next func stack =>
      have hname : name ∈ func.parameters.map (·.name) := by
        dsimp only at h
        split at h <;> exact @mem_slots_seedTopLabels tracker _ _ _ h
      exact ⟨func, rfl, List.mem_map.mp hname⟩
  · cases h

/-- A label behind a log was there before it and is kept, or is given there. -/
theorem mem_slots_trackerAfter {k : Nat} {log : StructLog} {tracker : StackTracker} {name : String}
    (h : some name ∈ (trackerAfter a structLogs k log tracker).slots) :
    (some name ∈ tracker.slots ∧ processedMarker a log = .regular) ∨
      NamesAt a structLogs k log name := by
  unfold trackerAfter at h
  unfold NamesAt
  cases hmarker : processedMarker a log with
  | into =>
      rw [hmarker] at h
      dsimp only at h
      split at h
      · cases h
      · next hfirst => exact .inr ⟨hfirst, mem_slots_stageInternalCallArgs h⟩
  | outOf =>
      rw [hmarker] at h
      cases h
  | regular =>
      rw [hmarker] at h
      exact (mem_slots_trackOpcode h).imp_left fun h => ⟨h, rfl⟩

/-- The names of a frame go on while it is open and no function is entered or left in it. -/
theorem NamedSince.succ {k depth : Nat} {name : String} {log : StructLog}
    (h : NamedSince a structLogs k depth name) (hlog : structLogs[k]? = some log)
    (hopen : depth ≤ log.depth) (hkept : log.depth = depth → processedMarker a log = .regular) :
    NamedSince a structLogs (k + 1) depth name := by
  obtain ⟨j, named, hnamed, hlt, hdepth, hat, hbetween⟩ := h
  refine ⟨j, named, hnamed, Nat.lt_succ_of_lt hlt, hdepth, hat, fun i between hi hji hik => ?_⟩
  rcases Nat.lt_succ_iff_lt_or_eq.mp hik with hik | rfl
  · exact hbetween i between hi hji hik
  · obtain rfl := Option.some.inj (hlog.symm.trans hi)
    exact ⟨hopen, hkept⟩

theorem namedSince_of_namesAt {k : Nat} {name : String} {log : StructLog}
    (hlog : structLogs[k]? = some log) (hat : NamesAt a structLogs k log name) :
    NamedSince a structLogs (k + 1) log.depth name :=
  ⟨k, log, hlog, Nat.lt_succ_self k, rfl, hat, fun _ _ _ hji hik =>
    absurd (Nat.lt_of_lt_of_le hji (Nat.le_of_lt_succ hik)) (lt_irrefl k)⟩

/-- A label of the current frame is one of its level, which was there before. -/
theorem mem_slots_atLevel {depth : Nat} {trackers : List StackTracker} {name : String}
    (h : some name ∈ (atLevel depth .new (resize depth .new trackers)).slots) :
    0 < depth ∧ ∃ tracker, trackers[depth - 1]? = some tracker ∧ some name ∈ tracker.slots := by
  unfold atLevel at h
  cases hlevel : (resize depth .new trackers)[depth - 1]? with
  | none =>
      rw [hlevel] at h
      cases h
  | some tracker =>
      rw [hlevel] at h
      obtain ⟨hlt, hold | rfl⟩ := getElem?_of_resize hlevel
      · exact ⟨Nat.zero_lt_of_lt hlt, tracker, hold, h⟩
      · cases h

/-- By induction on the logs: the labels of an open frame are names it got. -/
theorem namedSince_of_mem_slots : ∀ k, k ≤ structLogs.length → ∀ (l : Nat)
    (tracker : StackTracker) (name : String), (symbolicBefore a structLogs k)[l]? = some tracker →
      some name ∈ tracker.slots → NamedSince a structLogs k (l + 1) name
  | 0, _, l, tracker, name, htracker, _ => by
      cases htracker
  | k + 1, hk, l, tracker, name, htracker, hname => by
      have hlog := List.getElem?_eq_getElem hk
      generalize structLogs[k] = log at hlog
      have ih := namedSince_of_mem_slots k (Nat.le_of_lt hk)
      rw [symbolicBefore, Machine.stateBefore_succ hlog, ← symbolicBefore] at htracker
      by_cases hl : l = log.depth - 1
      -- the frame of the log
      · subst hl
        have hpos : 0 < log.depth := by
          have hlt := (List.getElem?_eq_some_iff.mp htracker).1
          simp only [symbolicStep, setLevel, List.length_set, length_resize] at hlt
          exact Nat.zero_lt_of_lt hlt
        have hself := getElem?_setLevel_self (x := trackerAfter a structLogs k log
          (atLevel log.depth .new (resize log.depth .new (symbolicBefore a structLogs k)))) hpos
          (length_resize log.depth StackTracker.new (symbolicBefore a structLogs k)).ge
        obtain rfl := Option.some.inj (hself.symm.trans htracker)
        rw [Nat.sub_add_cancel hpos]
        rcases mem_slots_trackerAfter hname with ⟨hkept, hregular⟩ | hat
        · obtain ⟨-, old, hold, hmem⟩ := mem_slots_atLevel hkept
          have hsince := ih _ _ _ hold hmem
          rw [Nat.sub_add_cancel hpos] at hsince
          exact hsince.succ hlog le_rfl fun _ => hregular
        · exact namedSince_of_namesAt hlog hat
      -- a frame below it
      · rw [symbolicStep, getElem?_setLevel_ne hl] at htracker
        obtain ⟨hlevel, hold | rfl⟩ := getElem?_of_resize htracker
        · exact (ih _ _ _ hold hname).succ hlog hlevel fun heq => absurd (by rw [heq]; rfl) hl
        · cases hname

theorem named_of_labelAt {k : Nat} {log : StructLog} (hlog : structLogs[k]? = some log)
    {var : VarDecl} {pos : Nat} (h : LabelAt (symbolicAt a structLogs k log) var pos) :
    Named a structLogs k log var.name := by
  have hk : k ≤ structLogs.length := (List.getElem?_eq_some_iff.mp hlog).1.le
  rcases mem_slots_trackOpcode h.mem with hkept | hnew
  · obtain ⟨hpos, tracker, hold, hmem⟩ := mem_slots_atLevel hkept
    have hsince := namedSince_of_mem_slots k hk _ _ _ hold hmem
    rw [Nat.sub_add_cancel hpos] at hsince
    exact .inl hsince
  · exact .inr hnew

end Symbolic

/-! ## §3  Reads of the own frame -/

section Reads

variable (keccak256 : List UInt8 → U256) (registered : List Path) (a : Artifacts)
  (structLogs : List StructLog)

/-- Local values are looked up in stacks of the frame that executes the log: a log
with local values is followed by a log of its own frame, that is, of its depth. -/
def ReadsOwnFrame : Prop :=
  ∀ k log, structLogs[k]? = some log → localsAtLog keccak256 registered a structLogs k log ≠ [] →
    ∃ next, structLogs[k + 1]? = some next ∧ next.depth = log.depth

variable {keccak256 registered a structLogs}

theorem localsAtLog_eq {k : Nat} {log : StructLog} (hlog : structLogs[k]? = some log) :
    localsAtLog keccak256 registered a structLogs k log =
      localValues (symbolicAt a structLogs k log) (lookedUpAt a log)
        (postStack structLogs k) := by
  have hread : ∀ (s : RecorderState) (loc : Option SourceLocation),
      (loc.elim [] fun loc => localsRead a structLogs k log loc s) =
        loc.elim [] fun located => localsAt a log located (trackedStack a log loc s)
          (postStack structLogs k) := by
    intro s loc
    cases loc with
    | none => rw [Option.elim_none, Option.elim_none]
    | some loc => rw [Option.elim_some, Option.elim_some, localsRead]
  rw [← @trackedStack_enterDepth a structLogs keccak256 registered k log hlog, lookedUpAt,
    ← localsAt_eq_localValues, localsAtLog, hread]

/-- A log with local values is followed by a stack. -/
theorem exists_next_of_localsAtLog {k : Nat} {log : StructLog} (hlog : structLogs[k]? = some log)
    (hread : localsAtLog keccak256 registered a structLogs k log ≠ []) :
    ∃ next stack, structLogs[k + 1]? = some next ∧ next.stack = some stack := by
  rw [localsAtLog_eq hlog, postStack] at hread
  cases hnext : structLogs[k + 1]? with
  | none =>
      rw [hnext] at hread
      exact absurd rfl hread
  | some next =>
      rw [hnext, Option.bind_some] at hread
      cases hstack : next.stack with
      | none =>
          rw [hstack] at hread
          exact absurd rfl hread
      | some stack => exact ⟨next, stack, rfl, hstack⟩

end Reads

/-- All local values of a recording are read in the frame of their log exactly when, at
every log whose successor is in another frame, the label of no variable in scope is below
the height of the successor's stack. -/
theorem readsOwnFrame_iff (keccak256 : List UInt8 → U256) (registered : List Path)
    (a : Artifacts) (structLogs : List StructLog) :
    ReadsOwnFrame keccak256 registered a structLogs ↔
      ∀ k log next stack, structLogs[k]? = some log → structLogs[k + 1]? = some next →
        next.depth ≠ log.depth → next.stack = some stack →
          ∀ var ∈ lookedUpAt a log, ∀ pos, LabelAt (symbolicAt a structLogs k log) var pos →
            stack.length ≤ pos := by
  constructor
  · intro hown k log next stack hlog hnext hother hstack
    have hpost : postStack structLogs k = some stack := by
      rw [postStack, hnext, Option.bind_some, hstack]
    rw [← localValues_eq_nil_iff, ← hpost,
      ← @localsAtLog_eq keccak256 registered a structLogs k log hlog]
    by_contra hread
    obtain ⟨next', hnext', hsame⟩ := hown k log hlog hread
    obtain rfl := Option.some.inj (hnext.symm.trans hnext')
    exact hother hsame
  · intro habove k log hlog hread
    obtain ⟨next, stack, hnext, hstack⟩ := exists_next_of_localsAtLog hlog hread
    refine ⟨next, hnext, ?_⟩
    by_contra hother
    apply hread
    rw [localsAtLog_eq hlog, postStack, hnext, Option.bind_some, hstack, localValues_eq_nil_iff]
    exact habove k log next stack hlog hnext hother hstack

/-- **Whose values.** On every run that never enters or leaves a frame at a log that looks
up a variable which its frame has named, unless the next stack is empty, all local values are
read in the frame of their log. -/
theorem readsOwnFrame_of_unnamed (keccak256 : List UInt8 → U256) (registered : List Path)
    (a : Artifacts) (structLogs : List StructLog)
    (hunnamed : ∀ k log next stack, structLogs[k]? = some log → structLogs[k + 1]? = some next →
      next.depth ≠ log.depth → next.stack = some stack → stack ≠ [] →
        ∀ var ∈ lookedUpAt a log, ¬ Named a structLogs k log var.name) :
    ReadsOwnFrame keccak256 registered a structLogs := by
  rw [readsOwnFrame_iff]
  intro k log next stack hlog hnext hother hstack var hvar pos hlabel
  by_cases hempty : stack = []
  · rw [hempty]
    exact Nat.zero_le pos
  · exact absurd (named_of_labelAt hlog hlabel)
      (hunnamed k log next stack hlog hnext hother hstack hempty var hvar)

/-! ## §4  A frame that reverts -/

def revertSource : String := "contract C { function f() public { uint256 x = 5; revert(); } }"

/-- `PUSH1 5` for `x`, `PUSH1 0`, `PUSH1 0` and `REVERT` for `revert()`, then `CALL` and
`STOP` outside `f`. -/
def revertArtifacts : Artifacts :=
  singleArtifacts (SourceMap.parse "35:9:0:-;50:8;;;0:63;")
    [0x60, 0x05, 0x60, 0x00, 0x60, 0x00, 0xfd, 0xf1, 0x00] [⟨["C.sol"]⟩] [revertSource] none
    (some ⟨[{ name := "f", src := ⟨13, 48, 0⟩,
              localVariables := [{ name := "x", typeName := "uint256", src := ⟨35, 9, 0⟩,
                                   declarationOffset := 35 }] }]⟩)

def revertLog (depth pc : Nat) (op : String) (stack : List U256) : StructLog :=
  { pc, op, depth, stack := some stack }

/-- A call into `f` from a frame with the word 9 on its stack. -/
def revertedCall : List StructLog :=
  [revertLog 1 7 "CALL" [9, 0, 0, 0, 0, 0, 1, 50000], revertLog 2 0 "PUSH1" [],
    revertLog 2 2 "PUSH1" [5], revertLog 2 4 "PUSH1" [5, 0], revertLog 2 6 "REVERT" [5, 0, 0],
    revertLog 1 8 "STOP" [9, 0]]

/-- At the `REVERT` of the callee `x` is read from the stack of the caller. -/
theorem localsAtLog_revertedCall :
    (localsAtLog (fun _ => 0) [] revertArtifacts revertedCall 4
        (revertLog 2 6 "REVERT" [5, 0, 0])).map (fun e => (e.1.name, e.2)) = [("x", 9)] ∧
      ¬ ReadsOwnFrame (fun _ => 0) [] revertArtifacts revertedCall := by
  have hread : (localsAtLog (fun _ => 0) [] revertArtifacts revertedCall 4
      (revertLog 2 6 "REVERT" [5, 0, 0])).map (fun e => (e.1.name, e.2)) = [("x", 9)] := by
    decide
  refine ⟨hread, fun hown => ?_⟩
  obtain ⟨next, hnext, hsame⟩ := hown 4 (revertLog 2 6 "REVERT" [5, 0, 0]) rfl (by
    intro hnone
    rw [hnone] at hread
    cases hread)
  obtain rfl := Option.some.inj hnext
  cases hsame

/-- A call in which `f` names `x` and the frame ends outside it. -/
def stoppedCall : List StructLog :=
  [revertLog 1 7 "CALL" [9, 0, 0, 0, 0, 0, 1, 50000], revertLog 2 0 "PUSH1" [],
    revertLog 2 2 "PUSH1" [5], revertLog 2 8 "STOP" [5, 0], revertLog 1 8 "STOP" [9, 0]]

/-- `x` is read, and only in its own frame. -/
theorem readsOwnFrame_stoppedCall :
    (localsAtLog (fun _ => 0) [] revertArtifacts stoppedCall 1 (revertLog 2 0 "PUSH1" [])).map
        (fun e => (e.1.name, e.2)) = [("x", 5)] ∧
      ReadsOwnFrame (fun _ => 0) [] revertArtifacts stoppedCall := by
  refine ⟨by decide, readsOwnFrame_of_unnamed _ _ _ _ ?_⟩
  rintro (_ | _ | _ | _ | _ | k) log next stack hlog hnext hother hstack hne var hvar
  · obtain rfl := Option.some.inj hnext
    exact absurd (Option.some.inj hstack).symm hne
  · obtain rfl := Option.some.inj hlog
    obtain rfl := Option.some.inj hnext
    exact absurd rfl hother
  · obtain rfl := Option.some.inj hlog
    obtain rfl := Option.some.inj hnext
    exact absurd rfl hother
  -- the frame is left where nothing is looked up
  · obtain rfl := Option.some.inj hlog
    rw [show lookedUpAt revertArtifacts (revertLog 2 8 "STOP" [5, 0]) = [] by decide] at hvar
    cases hvar
  · cases hnext
  · cases hlog

end EvmRecorder.Recorder
