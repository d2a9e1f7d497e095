import EvmRecorder.Recorder.FirstCall

/-!
# Open calls along a trace

What each jump marker adds to the number of open calls, read off the markers
alone: an `Into` one unless it is the first of the trace, an `OutOf` minus one
unless it is the partner of that first `Into` among the markers. From it follow
the two conditions under which the recorder's calls stay balanced: over a frame
exit, and over a pair of markers when some locations do not resolve.
-/

namespace EvmRecorder

open Brackets

/-! ## §1  Contribution of a marker -/

def JumpType.sign : JumpType → ℤ
  | .into => 1
  | .outOf => -1
  | .regular => 0

/-- Markers by log index; none after the end of the trace. -/
def markerAt (logs : List (Nat × JumpType)) (i : ℕ) : JumpType :=
  (logs[i]?.map (·.2)).getD .regular

variable (marker : ℕ → JumpType)

def signs (i : ℕ) : ℤ := (marker i).sign

def IsFirstInto (i : ℕ) : Prop := marker i = .into ∧ ∀ j ∈ Finset.range i, marker j ≠ .into

instance (i : ℕ) : Decidable (IsFirstInto marker i) := inferInstanceAs (Decidable (_ ∧ _))

/-- The `OutOf` that is the partner of the first `Into` among the markers. -/
def IsAbsorbedReturn (i : ℕ) : Prop :=
  ∃ j ∈ Finset.range i, IsFirstInto marker j ∧ Matched (signs marker) j i

instance (i : ℕ) : Decidable (IsAbsorbedReturn marker i) :=
  inferInstanceAs (Decidable (∃ j ∈ Finset.range i, _))

/-- Calls less returns registered for the marker of log `i`. -/
def contribution (i : ℕ) : ℤ :=
  if marker i = .into ∧ ¬ IsFirstInto marker i then 1
  else if marker i = .outOf ∧ ¬ IsAbsorbedReturn marker i then -1
  else 0

variable {marker}

theorem unitSteps_signs : UnitSteps (signs marker) := by
  intro i
  unfold signs
  cases marker i with
  | into => exact .inl rfl
  | outOf => exact .inr (.inr rfl)
  | regular => exact .inr (.inl rfl)

theorem signs_eq_one_iff {i : ℕ} : signs marker i = 1 ↔ marker i = .into := by
  unfold signs
  cases marker i <;> simp [JumpType.sign]

theorem signs_eq_neg_one_iff {i : ℕ} : signs marker i = -1 ↔ marker i = .outOf := by
  unfold signs
  cases marker i <;> simp [JumpType.sign]

theorem signs_eq_zero_iff {i : ℕ} : signs marker i = 0 ↔ marker i = .regular := by
  unfold signs
  cases marker i <;> simp [JumpType.sign]

theorem IsFirstInto.unique {i j : ℕ} (hi : IsFirstInto marker i) (hj : IsFirstInto marker j) :
    i = j := by
  rcases Nat.lt_trichotomy i j with h | h | h
  · exact absurd hi.1 (hj.2 i (Finset.mem_range.mpr h))
  · exact h
  · exact absurd hj.1 (hi.2 j (Finset.mem_range.mpr h))

/-! ## §2  The nesting counter -/

/-- The absorption before log `k`: no `Into` yet; inside the absorbed call with
as many internal calls open as the counter says; or after its return. -/
inductive AbsorptionAt (marker : ℕ → JumpType) (k : ℕ) : Absorption → Prop
  | before : (∀ i, i < k → marker i ≠ .into) → AbsorptionAt marker k ⟨false, 0⟩
  | inside {j n : ℕ} : IsFirstInto marker j → j < k →
      height (signs marker) k = height (signs marker) j + n →
      (∀ i ∈ Finset.Ioc j k, height (signs marker) j < height (signs marker) i) →
      AbsorptionAt marker k ⟨true, n⟩
  | after {j b : ℕ} : IsFirstInto marker j → Matched (signs marker) j b → b < k →
      AbsorptionAt marker k ⟨true, 0⟩

variable {k : ℕ} {s : Absorption}

private theorem contribution_outOf (hmarker : marker k = .outOf)
    (h : ¬ IsAbsorbedReturn marker k) : contribution marker k = -1 := by
  rw [contribution, if_neg (by rw [hmarker]; simp), if_pos ⟨hmarker, h⟩]

private theorem no_into_succ (hnone : ∀ i, i < k → marker i ≠ .into) (hk : marker k ≠ .into) :
    ∀ i, i < k + 1 → marker i ≠ .into := by
  intro i hi
  rcases Nat.lt_succ_iff_lt_or_eq.mp hi with hi | rfl
  · exact hnone i hi
  · exact hk

theorem AbsorptionAt.regular (h : AbsorptionAt marker k s) (hmarker : marker k = .regular) :
    AbsorptionAt marker (k + 1) s := by
  have hheight : height (signs marker) (k + 1) = height (signs marker) k := by
    rw [height_succ, signs, hmarker]
    exact add_zero _
  cases h with
  | before hnone => exact .before (no_into_succ hnone (by rw [hmarker]; decide))
  | inside hfirst hj hn habove =>
      refine .inside hfirst (Nat.lt_succ_of_lt hj) (by rw [hheight, hn]) (above_succ habove ?_)
      rw [hheight]
      exact habove k (Finset.mem_Ioc.mpr ⟨hj, Nat.le_refl k⟩)
  | after hfirst hmatch hb => exact .after hfirst hmatch (Nat.lt_succ_of_lt hb)

theorem AbsorptionAt.into (h : AbsorptionAt marker k s) (hmarker : marker k = .into) :
    AbsorptionAt marker (k + 1) (s.step (.opening .internal)).1 ∧
      balance (s.step (.opening .internal)).2 = contribution marker k := by
  have hheight : height (signs marker) (k + 1) = height (signs marker) k + 1 := by
    rw [height_succ, signs_eq_one_iff.mpr hmarker]
  -- a later `Into` is not the first
  have hlater : ∀ {j}, IsFirstInto marker j → j < k → contribution marker k = 1 := by
    intro j hfirst hj
    rw [contribution, if_pos ⟨hmarker, fun h => absurd (h.unique hfirst) (Nat.ne_of_gt hj)⟩]
  cases h with
  | before hnone =>
      have hfirst : IsFirstInto marker k :=
        ⟨hmarker, fun i hi => hnone i (Finset.mem_range.mp hi)⟩
      constructor
      · refine .inside hfirst (Nat.lt_succ_self k) (by rw [hheight]; rfl) (above_succ ?_ ?_)
        · intro i hi
          rw [Finset.Ioc_self] at hi
          cases hi
        · rw [hheight]
          exact lt_add_one _
      · rw [contribution, if_neg (fun h => h.2 hfirst), hmarker, if_neg (by simp)]
        rfl
  | @inside j n hfirst hj hn habove =>
      have hk := habove k (Finset.mem_Ioc.mpr ⟨hj, Nat.le_refl k⟩)
      have hpos : 0 < n := by omega
      rw [hlater hfirst hj]
      refine ⟨?_, rfl⟩
      simp only [Absorption.step, if_true, if_pos hpos]
      refine .inside hfirst (Nat.lt_succ_of_lt hj) ?_ (above_succ habove ?_)
      · rw [hheight, hn, Nat.cast_succ, add_assoc]
      · rw [hheight]
        exact lt_trans hk (lt_add_one _)
  | after hfirst hmatch hb =>
      rw [hlater hfirst (Nat.lt_trans hmatch.1 hb)]
      exact ⟨.after hfirst hmatch (Nat.lt_succ_of_lt hb), rfl⟩

theorem AbsorptionAt.outOf (h : AbsorptionAt marker k s) (hmarker : marker k = .outOf) :
    AbsorptionAt marker (k + 1) (s.step (.closing .internal)).1 ∧
      balance (s.step (.closing .internal)).2 = contribution marker k := by
  have hheight : height (signs marker) (k + 1) = height (signs marker) k - 1 := by
    rw [height_succ, signs_eq_neg_one_iff.mpr hmarker, sub_eq_add_neg]
  cases h with
  | before hnone =>
      refine ⟨.before (no_into_succ hnone (by rw [hmarker]; decide)), ?_⟩
      rw [contribution_outOf hmarker]
      · rfl
      · rintro ⟨j, hj, hfirst, -⟩
        exact hnone j (Finset.mem_range.mp hj) hfirst.1
  | @inside j n hfirst hj hn habove =>
      have hk := habove k (Finset.mem_Ioc.mpr ⟨hj, Nat.le_refl k⟩)
      by_cases hlast : n = 1
      · -- the counter reaches zero exactly at the partner
        subst hlast
        have hmatch : Matched (signs marker) j k :=
          ⟨hj, signs_eq_one_iff.mpr hfirst.1, by omega, habove⟩
        refine ⟨.after hfirst hmatch (Nat.lt_succ_self k), ?_⟩
        rw [contribution, if_neg (by rw [hmarker]; simp),
          if_neg (fun h => h.2 ⟨j, Finset.mem_range.mpr hj, hfirst, hmatch⟩)]
        rfl
      · constructor
        · refine .inside hfirst (Nat.lt_succ_of_lt hj) ?_ (above_succ habove ?_)
          · show _ = _ + ((n - 1 : ℕ) : ℤ)
            omega
          · omega
        · rw [contribution_outOf hmarker]
          · simp [Absorption.step, hlast, balance, CallEvent.weight]
          · rintro ⟨j', -, hfirst', hmatch⟩
            obtain rfl := hfirst'.unique hfirst
            have hreturn := hmatch.2.2.1
            omega
  | after hfirst hmatch hb =>
      refine ⟨.after hfirst hmatch (Nat.lt_succ_of_lt hb), ?_⟩
      rw [contribution_outOf hmarker]
      · rfl
      · rintro ⟨j', -, hfirst', hmatch'⟩
        obtain rfl := hfirst'.unique hfirst
        exact absurd (hmatch.unique hmatch') (Nat.ne_of_lt hb)

/-- What one marker preserves, and what is registered for it. -/
theorem AbsorptionAt.markerStep (h : AbsorptionAt marker k s) :
    AbsorptionAt marker (k + 1) (markerStep (marker k) s).1 ∧
      balance (EvmRecorder.markerStep (marker k) s).2 = contribution marker k := by
  cases hmarker : marker k with
  | regular => exact ⟨h.regular hmarker, by simp [EvmRecorder.markerStep, contribution, hmarker]⟩
  | into => exact h.into hmarker
  | outOf => exact h.outOf hmarker

/-- An `Into` finds the first call absorbed unless it is the first. -/
theorem AbsorptionAt.absorbed_iff (h : AbsorptionAt marker k s) (hmarker : marker k = .into) :
    s.firstInternalCallAbsorbed = true ↔ ¬ IsFirstInto marker k := by
  cases h with
  | before hnone =>
      have hfirst : IsFirstInto marker k :=
        ⟨hmarker, fun i hi => hnone i (Finset.mem_range.mp hi)⟩
      simp [hfirst]
  | inside hfirst hj _ _ =>
      simp only [true_iff]
      exact fun h => absurd (h.unique hfirst) (Nat.ne_of_gt hj)
  | after hfirst hmatch hb =>
      simp only [true_iff]
      exact fun h => absurd (h.unique hfirst) (Nat.ne_of_gt (Nat.lt_trans hmatch.1 hb))

/-! ## §3  Open calls at a log -/

section Runs

variable {logs : List (Nat × JumpType)} {log : Nat × JumpType}

/-- The call machine before log `k`. -/
def callStateBefore (logs : List (Nat × JumpType)) (k : ℕ) : CallState :=
  Machine.stateBefore callStep logs {} k

theorem markerAt_of_getElem? (h : logs[k]? = some log) : markerAt logs k = log.2 := by
  rw [markerAt, h]
  rfl

theorem absorptionAt_callStateBefore : ∀ k, k ≤ logs.length →
    AbsorptionAt (markerAt logs) k (callStateBefore logs k).absorption := by
  have hstep : ∀ k log (s : CallState), logs[k]? = some log →
      AbsorptionAt (markerAt logs) k s.absorption →
        AbsorptionAt (markerAt logs) (k + 1) (callStep k log s).1.absorption := by
    intro k log s hlog hs
    have hmarked := hs.markerStep.1
    rw [markerAt_of_getElem? hlog] at hmarked
    exact hmarked
  exact Machine.invariant (.before fun i hi => absurd hi (Nat.not_lt_zero i)) hstep

/-- `prev_depth` is the depth of the log before, 1 at the start. -/
theorem prevDepth_callStateBefore : ∀ k, k ≤ logs.length →
    DepthBefore (logs.map (·.1)) k (callStateBefore logs k).prevDepth
  | 0, _ => by
      rw [callStateBefore, Machine.stateBefore_zero]
      rfl
  | k + 1, hk => by
      have hlog : logs[k]? = some logs[k] := List.getElem?_eq_getElem hk
      rw [DepthBefore, List.getElem?_cons_succ, List.getElem?_map, hlog, callStateBefore,
        Machine.stateBefore_succ hlog]
      rfl

/-- A relation along the depths holds at each depth change. -/
theorem prevDepth_rel {R : ℕ → ℕ → Prop} (hchain : (1 :: logs.map (·.1)).IsChain R) {k : ℕ}
    (hlog : logs[k]? = some log) : R (callStateBefore logs k).prevDepth log.1 := by
  have hk : k ≤ logs.length := (List.getElem?_eq_some_iff.mp hlog).1.le
  refine (prevDepth_callStateBefore k hk).rel hchain ?_
  rw [List.getElem?_map, hlog]
  rfl

/-- Calls less returns registered up to the depth change at log `k`. -/
def entryBalance (logs : List (Nat × JumpType)) (k : ℕ) : ℤ :=
  balance (Machine.outputBefore callStep logs {} k) +
    logs[k]?.elim 0 fun log => balance (depthCalls (callStateBefore logs k).prevDepth log.1)

theorem balance_outputBefore_succ (h : logs[k]? = some log) :
    balance (Machine.outputBefore callStep logs {} (k + 1)) =
      entryBalance logs k + contribution (markerAt logs) k := by
  have hk : k ≤ logs.length := (List.getElem?_eq_some_iff.mp h).1.le
  have hmarker := (absorptionAt_callStateBefore k hk).markerStep.2
  rw [markerAt_of_getElem? h] at hmarker
  rw [Machine.outputBefore_succ h, balance_append, entryBalance, h]
  simp only [callStep, balance_append, Option.elim_some]
  rw [← hmarker, add_assoc]
  rfl

/-- When the depth changes contribute the differences of a potential `g`, the
open calls at a log are its potential and what the markers before it
contribute. -/
theorem entryBalance_eq {g : ℕ → ℤ} (hstart : g 1 = 0)
    (hchain : (1 :: logs.map (·.1)).IsChain fun p d => balance (depthCalls p d) = g d - g p) :
    ∀ k log, logs[k]? = some log →
      entryBalance logs k = g log.1 + ∑ i ∈ Finset.range k, contribution (markerAt logs) i := by
  have hentry : ∀ k log, logs[k]? = some log →
      balance (Machine.outputBefore callStep logs {} k) =
        g (callStateBefore logs k).prevDepth +
          ∑ i ∈ Finset.range k, contribution (markerAt logs) i →
      entryBalance logs k = g log.1 + ∑ i ∈ Finset.range k, contribution (markerAt logs) i := by
    intro k log hlog hbefore
    rw [entryBalance, hlog, hbefore]
    simp only [Option.elim_some, prevDepth_rel hchain hlog]
    ring
  have hbefore : ∀ k, k ≤ logs.length → balance (Machine.outputBefore callStep logs {} k) =
      g (callStateBefore logs k).prevDepth +
        ∑ i ∈ Finset.range k, contribution (markerAt logs) i := by
    intro k
    induction k with
    | zero =>
        intro _
        rw [callStateBefore, Machine.stateBefore_zero, Machine.outputBefore_zero]
        simpa using hstart.symm
    | succ k ih =>
        intro hk
        have hlog : logs[k]? = some logs[k] := List.getElem?_eq_getElem hk
        rw [balance_outputBefore_succ hlog, hentry k _ hlog (ih (Nat.le_of_lt hk)),
          Finset.sum_range_succ, callStateBefore, Machine.stateBefore_succ hlog, add_assoc]
        rfl
  intro k log hlog
  exact hentry k log hlog (hbefore k (List.getElem?_eq_some_iff.mp hlog).1.le)

/-- Without drops, no prefix of the calls and returns is below the counts at the
logs. -/
theorem balance_prefix_nonneg (hup : (1 :: logs.map (·.1)).IsChain (· ≤ ·))
    (hentry : ∀ k, k < logs.length → 0 ≤ entryBalance logs k)
    (hbefore : ∀ k, k ≤ logs.length → 0 ≤ balance (Machine.outputBefore callStep logs {} k))
    {p : List CallEvent} (hp : p <+: (Machine.run callStep 0 logs {}).2) : 0 ≤ balance p := by
  rw [Machine.run_eq_outputBefore] at hp
  rcases Machine.exists_of_prefix_outputBefore _ (Nat.le_refl _) hp with
    rfl | ⟨k, log, q, hk, hlog, hq, rfl⟩
  · exact le_refl _
  rw [balance_append]
  rcases Machine.prefix_append_cases hq with hq | ⟨r, rfl, hr⟩
  · -- inside the depth change: at most one call
    have hcall : 0 ≤ balance q := by
      have hle : (callStateBefore logs k).prevDepth ≤ log.1 := prevDepth_rel hup hlog
      unfold callStateBefore at hle
      unfold depthCalls at hq
      split at hq
      · rcases List.prefix_cons_iff.mp hq with rfl | ⟨q', rfl, hq'⟩
        · exact le_refl _
        · rw [List.prefix_nil.mp hq']
          decide
      · rw [Nat.sub_eq_zero_of_le hle] at hq
        rw [List.prefix_nil.mp hq]
        decide
    exact add_nonneg (hbefore k hk.le) hcall
  · have hshort : r = [] ∨ r = (markerStep log.2 (callStateBefore logs k).absorption).2 := by
      have hone : (markerStep log.2 (callStateBefore logs k).absorption).2.length ≤ 1 := by
        cases log.2 with
        | into =>
            simp only [markerStep, Absorption.step]
            split <;> simp
        | outOf =>
            simp only [markerStep, Absorption.step]
            split <;> simp
        | regular => simp [markerStep]
      rcases Nat.lt_or_ge r.length 1 with hr0 | hr1
      · exact .inl (List.length_eq_zero_iff.mp (Nat.lt_one_iff.mp hr0))
      · exact .inr (hr.eq_of_length_le (hone.trans hr1))
    rcases hshort with rfl | rfl
    · have hthis := hentry k hk
      rw [entryBalance, hlog] at hthis
      rw [List.append_nil]
      exact hthis
    · have hnext := hbefore (k + 1) hk
      rw [Machine.outputBefore_succ hlog, balance_append] at hnext
      exact hnext

end Runs

/-! ## §4  Open calls of a recording -/

namespace Recorder

variable (keccak256 : List UInt8 → U256) (registered : List Path) (a : Artifacts)
  (structLogs : List StructLog)

theorem openCalls_eventsBefore (k : ℕ) :
    openCalls (eventsBefore keccak256 registered a structLogs k) =
      balance (Machine.outputBefore callStep (callTrace a structLogs) {} k) := by
  rw [openCalls, callEvents_eventsBefore]

theorem openCalls_eventsAtEntry (k : ℕ) :
    openCalls (eventsAtEntry keccak256 registered a structLogs k) =
      entryBalance (callTrace a structLogs) k := by
  rw [eventsAtEntry, openCalls_append, openCalls_eventsBefore, entryBalance, callTrace,
    List.getElem?_map]
  cases structLogs[k]? with
  | none => rfl
  | some log =>
      have hprev : (stateBefore keccak256 registered a structLogs k).prevDepth =
          (callStateBefore (callTrace a structLogs) k).prevDepth :=
        congrArg CallState.prevDepth (callState_stateBefore keccak256 registered a structLogs k)
      simp only [Option.elim_some, Option.map_some, openCalls, callEvents_depthEvents, hprev]
      rfl

/-- Whether the recorder has absorbed a call, read off the markers. -/
theorem firstInternalCallAbsorbed_iff {k : ℕ} {log : StructLog} (hlog : structLogs[k]? = some log)
    (hmarker : processedMarker a log = .into) :
    (stateBefore keccak256 registered a structLogs k).firstInternalCallAbsorbed = true ↔
      ¬ IsFirstInto (markerAt (callTrace a structLogs)) k := by
  have hk : k ≤ (callTrace a structLogs).length := by
    rw [callTrace, List.length_map]
    exact (List.getElem?_eq_some_iff.mp hlog).1.le
  have hstate : absorptionOf (stateBefore keccak256 registered a structLogs k) =
      (callStateBefore (callTrace a structLogs) k).absorption :=
    congrArg CallState.absorption (callState_stateBefore keccak256 registered a structLogs k)
  have habsorbed := (absorptionAt_callStateBefore k hk).absorbed_iff
    ((markerAt_of_getElem? (getElem?_callTrace hlog)).trans hmarker)
  rw [← hstate] at habsorbed
  exact habsorbed

/-- Between the depth change at a log and the next log, its marker. -/
theorem openCalls_eventsBefore_succ {k : ℕ} (hk : k < structLogs.length) :
    openCalls (eventsBefore keccak256 registered a structLogs (k + 1)) =
      openCalls (eventsAtEntry keccak256 registered a structLogs k) +
        contribution (markerAt (callTrace a structLogs)) k := by
  rw [openCalls_eventsBefore, openCalls_eventsAtEntry,
    balance_outputBefore_succ (getElem?_callTrace (List.getElem?_eq_getElem hk))]

end Recorder

end EvmRecorder
