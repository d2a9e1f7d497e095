import EvmRecorder.MultiRecorder.Events

/-!
# Special events of the two recorders

Both recorders issue LOGn, SELFDESTRUCT and precompile events from the log alone.
The single-contract recorder also issues an event for a REVERT whose frame was
left at the next log; the multi-contract recorder has no such block, so the two
agree exactly on the traces in which no inner frame reverts.
-/

namespace EvmRecorder

/-! ## §1  The special events of a block -/

def TraceEvent.specialEvent : TraceEvent → Option (EventLogKind × String × String)
  | .registerSpecialEvent kind metadata content => some (kind, metadata, content)
  | _ => none

def specialsOf (events : List TraceEvent) : List (EventLogKind × String × String) :=
  events.filterMap TraceEvent.specialEvent

theorem specialsOf_append (xs ys : List TraceEvent) :
    specialsOf (xs ++ ys) = specialsOf xs ++ specialsOf ys :=
  List.filterMap_append

theorem specialsOf_eq_nil {kinds : List EventKind} {events : List TraceEvent}
    (h : Issues kinds events) (hspecial : .special ∉ kinds) : specialsOf events = [] := by
  refine h.filterMap_eq_nil fun e he => ?_
  cases e <;> first | rfl | exact absurd he hspecial

/-- The frame of log `k` ended in a REVERT, and the next log is of a frame below. -/
def CaughtRevert (structLogs : List StructLog) (k : Nat) : Prop :=
  ∃ prev log, structLogs[k]? = some prev ∧ structLogs[k + 1]? = some log ∧
    log.depth < prev.depth ∧ prev.op = "REVERT"

namespace Recorder

variable (keccak256 : List UInt8 → U256) (registered : List Path) (a : Artifacts)
  (structLogs : List StructLog)

theorem prevDepth_stateBefore : ∀ k, k ≤ structLogs.length →
    DepthBefore (structLogs.map (·.depth)) k
      (stateBefore keccak256 registered a structLogs k).prevDepth
  | 0, _ => by
      rw [stateBefore, Machine.stateBefore_zero]
      rfl
  | k + 1, hk => by
      have hlog : structLogs[k]? = some structLogs[k] := List.getElem?_eq_getElem hk
      rw [stateBefore, Machine.stateBefore_succ hlog]
      exact getElem?_depths hlog

/-- The REVERT events of the depth change at log `k`. -/
def caughtReverts (k : Nat) (log : StructLog) : List (EventLogKind × String × String) :=
  specialsOf (depthEvents a (mainPathOf a.sourcePaths) structLogs k log
    (stateBefore keccak256 registered a structLogs k))

/-- One log: the reverts it catches, then its own events. -/
theorem specialsOf_eventsBefore_succ {k : Nat} {log : StructLog}
    (hlog : structLogs[k]? = some log) :
    specialsOf (eventsBefore keccak256 registered a structLogs (k + 1)) =
      specialsOf (eventsBefore keccak256 registered a structLogs k) ++
        caughtReverts keccak256 registered a structLogs k log ++
          specialsOf (specialEvents log) := by
  have hlocated : ∀ i s, specialsOf
      (handleLocation a (mainPathOf a.sourcePaths) structLogs i log s).2 = [] :=
    fun i s => specialsOf_eq_nil (issues_handleLocation _ _ structLogs i log s) (by decide)
  have hstored : ∀ s, specialsOf (handleStorage keccak256 a log s).2 = [] :=
    fun s => specialsOf_eq_nil (issues_handleStorage keccak256 a log s) (by decide)
  rw [eventsBefore_succ _ _ _ _ hlog]
  simp only [step, specialsOf_append, hlocated, hstored, List.append_nil, ← List.append_assoc]
  rfl

theorem caughtReverts_zero (log : StructLog) :
    caughtReverts keccak256 registered a structLogs 0 log = [] := by
  unfold caughtReverts depthEvents
  split
  · rfl
  · split
    · -- there is no log before the first
      rw [revertCaught, if_neg (Nat.lt_irrefl 0)]
      exact List.filterMap_replicate_of_none rfl
    · rfl

theorem caughtReverts_succ_eq_nil_iff {k : Nat} {log : StructLog}
    (hlog : structLogs[k + 1]? = some log) :
    caughtReverts keccak256 registered a structLogs (k + 1) log = [] ↔
      ¬ CaughtRevert structLogs k := by
  have hlt : k + 1 < structLogs.length := (List.getElem?_eq_some_iff.mp hlog).1
  have hprev : structLogs[k]? = some structLogs[k] := List.getElem?_eq_getElem _
  have hdepth : (stateBefore keccak256 registered a structLogs (k + 1)).prevDepth =
      structLogs[k].depth := by
    have h := prevDepth_stateBefore keccak256 registered a structLogs (k + 1) hlt.le
    rw [DepthBefore, List.getElem?_cons_succ, getElem?_depths hprev] at h
    exact (Option.some.inj h).symm
  have hreturns : ∀ n, specialsOf (List.replicate n (.registerReturn returnValue)) = [] :=
    fun n => List.filterMap_replicate_of_none rfl
  have hcaught : CaughtRevert structLogs k ↔
      log.depth < structLogs[k].depth ∧ structLogs[k].op = "REVERT" := by
    constructor
    · rintro ⟨prev, log', hprev', hlog', hdrop, hop⟩
      rw [hprev] at hprev'
      rw [hlog] at hlog'
      cases hprev'
      cases hlog'
      exact ⟨hdrop, hop⟩
    · rintro ⟨hdrop, hop⟩
      exact ⟨_, log, hprev, hlog, hdrop, hop⟩
  rw [hcaught, caughtReverts, depthEvents, hdepth]
  by_cases hrise : structLogs[k].depth < log.depth
  · rw [if_pos hrise]
    exact ⟨fun _ h => absurd h.1 (Nat.not_lt.mpr hrise.le), fun _ => rfl⟩
  rw [if_neg hrise]
  by_cases hdrop : log.depth < structLogs[k].depth
  · rw [if_pos hdrop, specialsOf_append, hreturns, List.append_nil, revertCaught,
      if_pos (Nat.succ_pos k), Nat.add_sub_cancel, hprev]
    by_cases hop : structLogs[k].op = "REVERT"
    · simp [hop, hdrop, specialsOf, TraceEvent.specialEvent]
    · simp [hop, specialsOf]
  · rw [if_neg hdrop]
    exact ⟨fun _ h => hdrop h.1, fun _ => rfl⟩

end Recorder

/-! ## §2  Both recordings -/

namespace MultiRecorder

variable (keccak256 : List UInt8 → U256) (registered : List Path) (registry : ContractRegistry)
  (contractAddress : Address) (structLogs : List StructLog)

/-- One log: its own events only. -/
theorem specialsOf_eventsBefore_succ {k : Nat} {log : StructLog}
    (hlog : structLogs[k]? = some log) :
    specialsOf (eventsBefore keccak256 registered registry contractAddress structLogs (k + 1)) =
      specialsOf (eventsBefore keccak256 registered registry contractAddress structLogs k) ++
        specialsOf (specialEvents log) := by
  have hlocated : ∀ mainPath a i s, specialsOf
      (handleLocation mainPath structLogs a i log s).2 = [] :=
    fun mainPath a i s => specialsOf_eq_nil (issues_handleLocation mainPath _ a i log s) (by decide)
  have hstored : ∀ a s, specialsOf (handleStorage keccak256 a log s).2 = [] :=
    fun a s => specialsOf_eq_nil (issues_handleStorage keccak256 a log s) (by decide)
  have hdepth : ∀ mainPath s, specialsOf (depthEvents mainPath log s) = [] :=
    fun mainPath s => specialsOf_eq_nil (issues_depthEvents mainPath log s) (by decide)
  rw [eventsBefore_succ _ _ _ _ _ hlog]
  simp only [stepOf, step, specialsOf_append, hlocated, hstored, hdepth, List.nil_append,
    List.append_assoc]

variable (a : Artifacts)

/-- Before every log the multi-contract recording has at most as many special
events, and the same ones exactly when no revert was caught so far. -/
theorem specials_eventsBefore : ∀ k, k ≤ structLogs.length →
    (specialsOf (eventsBefore keccak256 registered registry contractAddress structLogs k)).length ≤
        (specialsOf (Recorder.eventsBefore keccak256 registered a structLogs k)).length ∧
      (specialsOf (Recorder.eventsBefore keccak256 registered a structLogs k) =
          specialsOf (eventsBefore keccak256 registered registry contractAddress structLogs k) ↔
        ∀ j, j + 1 < k → ¬ CaughtRevert structLogs j)
  | 0, _ => by
      have hsingle : specialsOf (Recorder.eventsBefore keccak256 registered a structLogs 0) = [] := by
        rw [Recorder.eventsBefore, Machine.outputBefore_zero, List.append_nil]
        exact specialsOf_eq_nil (Recorder.issues_preamble registered a) (by decide)
      have hmulti : specialsOf
          (eventsBefore keccak256 registered registry contractAddress structLogs 0) = [] := by
        rw [eventsBefore, Machine.outputBefore_zero, List.append_nil]
        exact specialsOf_eq_nil (Recorder.issues_preamble registered _) (by decide)
      rw [hsingle, hmulti]
      exact ⟨le_rfl, fun _ j hj => absurd hj (Nat.not_lt_zero _), fun _ => rfl⟩
  | k + 1, hk => by
      have hlog : structLogs[k]? = some structLogs[k] := List.getElem?_eq_getElem hk
      obtain ⟨hle, hiff⟩ := specials_eventsBefore k (Nat.le_of_lt hk)
      rw [Recorder.specialsOf_eventsBefore_succ keccak256 registered a structLogs hlog,
        specialsOf_eventsBefore_succ keccak256 registered registry contractAddress structLogs hlog]
      refine ⟨by simp only [List.length_append]; omega, ?_⟩
      rw [List.append_cancel_right_eq]
      cases k with
      | zero =>
          rw [Recorder.caughtReverts_zero, List.append_nil, hiff]
          exact ⟨fun _ j hj => absurd hj (by omega), fun h j hj => absurd hj (by omega)⟩
      | succ k =>
          have hnil := Recorder.caughtReverts_succ_eq_nil_iff keccak256 registered a structLogs hlog
          constructor
          · intro heq
            -- the single-contract recording is no shorter, so nothing was caught here
            have hlength := congrArg List.length heq
            rw [List.length_append] at hlength
            have hcaught : Recorder.caughtReverts keccak256 registered a structLogs (k + 1)
                structLogs[k + 1] = [] := List.eq_nil_of_length_eq_zero (by omega)
            rw [hcaught, List.append_nil] at heq
            intro j hj
            rcases Nat.lt_succ_iff_lt_or_eq.mp hj with hj | hj
            · exact hiff.mp heq j hj
            · obtain rfl : j = k := Nat.succ.inj hj
              exact hnil.mp hcaught
          · intro hnone
            rw [hnil.mpr (hnone k (Nat.lt_succ_self _)), List.append_nil]
            exact hiff.mpr fun j hj => hnone j (Nat.lt_succ_of_lt hj)

/-- **Special events.** The two recordings have the same special events exactly
when no frame but the outermost one left at the end of the trace reverts. -/
theorem specials_agree_iff :
    specialsOf (recordFromStructlog keccak256 registered a structLogs) =
        specialsOf (recordFromStructlogMultiContract keccak256 registered registry contractAddress
          structLogs).1 ↔
      ∀ k, ¬ CaughtRevert structLogs k := by
  by_cases hnil : structLogs = []
  · subst hnil
    refine ⟨fun _ k hcaught => ?_, fun _ => rfl⟩
    obtain ⟨prev, log, hprev, -⟩ := hcaught
    cases hprev
  rw [Recorder.recordFromStructlog_eq_eventsBefore keccak256 registered a hnil,
    events_eq_eventsBefore keccak256 registered registry contractAddress hnil,
    (specials_eventsBefore keccak256 registered registry contractAddress structLogs a _ le_rfl).2]
  constructor
  · intro h k hcaught
    obtain ⟨prev, log, hprev, hlog, hdrop⟩ := hcaught
    exact h k (List.getElem?_eq_some_iff.mp hlog).1 ⟨prev, log, hprev, hlog, hdrop⟩
  · intro h k _
    exact h k

/-- A call whose callee reverts. -/
def revertedCall : List StructLog :=
  [{ pc := 0, op := "CALL", depth := 1 }, { pc := 0, op := "REVERT", depth := 2 },
    { pc := 1, op := "STOP", depth := 1 }]

theorem specials_revertedCall :
    specialsOf (recordFromStructlog (fun _ => 0) [] {} revertedCall) ≠
      specialsOf (recordFromStructlogMultiContract (fun _ => 0) [] {} 0 revertedCall).1 := by
  decide

end MultiRecorder

end EvmRecorder
