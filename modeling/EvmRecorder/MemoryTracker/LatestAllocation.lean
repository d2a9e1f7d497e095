import EvmRecorder.Library.Scans
import EvmRecorder.MemoryTracker.Allocation

/-!
# The latest allocation

What a variable is allocated in a run can be read off the trace: each store that moves the
pointer shown last allocates to the variable in range, else to the memory-resident variable
declared last. The tracker keeps a variable's first region, and its fallback passes over
variables that have one.
-/

namespace EvmRecorder.MemoryTracker

/-! ## §1  Lookups -/

/-- The latest of the allocations to the variable `name`. -/
def latest (allocations : List MemRegion) (name : String) : Option MemRegion :=
  allocations.reverse.find? (·.name = name)

theorem latest_append_toList (rs : List MemRegion) (r : Option MemRegion) (name : String) :
    latest (rs ++ r.toList) name =
      if r.any (·.name = name) then r else latest rs name := by
  cases r with
  | none => simp [latest]
  | some r =>
      by_cases hname : r.name = name
      · simp [latest, hname]
      · simp [latest, hname]

theorem region_eq_latest (self : MemoryTracker) (name : String) :
    self.region name = latest self.regions name := rfl

theorem isAlreadyRegistered_iff {self : MemoryTracker} {name : String} :
    self.isAlreadyRegistered name = true ↔ self.region name ≠ none := by
  rw [isAlreadyRegistered, region, List.any_eq_true, Ne, List.find?_eq_none]
  simp

theorem isAlreadyRegistered_of_region {self : MemoryTracker} {name : String} {r : MemRegion}
    (h : self.region name = some r) : self.isAlreadyRegistered name = true := by
  rw [isAlreadyRegistered_iff, h]
  exact Option.some_ne_none r

theorem isAlreadyRegistered_eq_false_iff {self : MemoryTracker} {name : String} :
    self.isAlreadyRegistered name = false ↔ self.region name = none := by
  rw [← Bool.not_eq_true, isAlreadyRegistered_iff, not_not]

/-! ## §2  Allocation and registration at a step -/

/-- The fallback finds no variable to register: one is in range, or all that are memory-resident
have a region. -/
def FallbackEmpty (self : MemoryTracker) (s : MemStep) : Prop :=
  s.inRange ≠ none ∨
    ∀ v ∈ s.varsInScope, v.isMemoryResident = true → self.isAlreadyRegistered v.name = true

section

variable {self : MemoryTracker} {s : MemStep}

theorem candidate_eq_none (h : s.attributed = none) : self.candidate s = none := by
  rw [MemStep.attributed] at h
  rw [candidate]
  cases hrange : s.inRange with
  | some v =>
      rw [hrange] at h
      cases h
  | none =>
      rw [hrange, Option.orElse_none, List.find?_eq_none] at h
      rw [Option.orElse_none, List.find?_eq_none]
      intro v hv hresident
      exact h v hv (Bool.and_eq_true_iff.mp hresident).1

/-- A variable without a region is found by the tracker too. -/
theorem candidate_eq_attributed {v : VarDecl} (h : s.attributed = some v)
    (hfresh : self.isAlreadyRegistered v.name = false) : self.candidate s = some v := by
  rw [MemStep.attributed] at h
  rw [candidate]
  cases hrange : s.inRange with
  | some v' =>
      rw [hrange] at h
      exact h
  | none =>
      rw [hrange, Option.orElse_none] at h
      rw [Option.orElse_none]
      exact Scans.find?_and_eq_some h (by simp [hfresh])

theorem fallbackEmpty_iff {v : VarDecl} (h : s.attributed = some v)
    (hold : self.isAlreadyRegistered v.name = true) :
    self.FallbackEmpty s ↔
      ∀ v', self.candidate s = some v' → self.isAlreadyRegistered v'.name = true := by
  rw [MemStep.attributed] at h
  rw [FallbackEmpty, candidate]
  cases hrange : s.inRange with
  | some v' =>
      rw [hrange] at h
      obtain rfl := Option.some.inj h
      constructor
      · rintro - v' hv'
        obtain rfl := Option.some.inj hv'
        exact hold
      · exact fun _ => .inl (Option.some_ne_none _)
  | none =>
      rw [Option.orElse_none]
      constructor
      · rintro (hsome | hall) v' hv'
        · exact absurd rfl hsome
        · have hmem := List.mem_reverse.mp (List.mem_of_find?_eq_some hv')
          have htest := List.find?_some hv'
          exact hall v' hmem (Bool.and_eq_true_iff.mp htest).1
      · intro hnone
        right
        intro v' hmem hresident
        by_contra hfresh
        cases hfound : s.varsInScope.reverse.find? fun v =>
            v.isMemoryResident && !self.isAlreadyRegistered v.name with
        | none =>
            have hfails := List.find?_eq_none.mp hfound v' (List.mem_reverse.mpr hmem)
            simp [hresident, hfresh] at hfails
        | some v'' =>
            have htest := List.find?_some hfound
            simp [hnone v'' hfound] at htest

/-- A step without an allocation registers nothing. -/
theorem registration_eq_none (h : s.allocation self.lastFmp = none) :
    self.registration s = none := by
  cases hreg : self.registration s with
  | none => rfl
  | some r =>
      obtain ⟨value, v, hvalue, hlt, hv, -, -⟩ := registration_eq_some_iff.mp hreg
      cases hattributed : s.attributed with
      | none =>
          rw [candidate_eq_none hattributed] at hv
          cases hv
      | some v' =>
          simp [MemStep.allocation, hvalue, hattributed, Nat.not_le.mpr hlt] at h

theorem allocation_eq_some_iff {shown : Nat} {r : MemRegion} :
    s.allocation shown = some r ↔ ∃ value v, s.pointerStore = some value ∧
      shown < u256ToU64Saturating value ∧ s.attributed = some v ∧
      r = ⟨v.name, v.typeName, shown, u256ToU64Saturating value - shown⟩ := by
  simp only [MemStep.allocation, Option.bind_eq_bind, Option.bind_eq_some_iff]
  constructor
  · rintro ⟨value, hvalue, h⟩
    split at h
    · contradiction
    · rename_i hle
      obtain ⟨v, hv, hr⟩ := Option.bind_eq_some_iff.mp h
      exact ⟨value, v, hvalue, Nat.lt_of_not_le hle, hv, (Option.some.inj hr).symm⟩
  · rintro ⟨value, v, hvalue, hlt, hv, rfl⟩
    refine ⟨value, hvalue, ?_⟩
    rw [if_neg (Nat.not_le_of_lt hlt), hv]
    rfl

/-- The first allocation to a variable is registered. -/
theorem registration_eq_allocation {r : MemRegion} (h : s.allocation self.lastFmp = some r)
    (hfresh : self.isAlreadyRegistered r.name = false) : self.registration s = some r := by
  obtain ⟨value, v, hvalue, hlt, hv, rfl⟩ := allocation_eq_some_iff.mp h
  exact registration_eq_some_iff.mpr
    ⟨value, v, hvalue, hlt, candidate_eq_attributed hv hfresh, hfresh, rfl⟩

/-- At another allocation to it nothing is registered, unless the fallback finds a variable. -/
theorem registration_eq_none_iff {r : MemRegion} (h : s.allocation self.lastFmp = some r)
    (hold : self.isAlreadyRegistered r.name = true) :
    self.registration s = none ↔ self.FallbackEmpty s := by
  obtain ⟨value, v, hvalue, hlt, hv, rfl⟩ := allocation_eq_some_iff.mp h
  rw [fallbackEmpty_iff hv hold]
  constructor
  · intro hnone v' hv'
    rw [← Bool.not_eq_false]
    intro hfresh
    have hsome := registration_eq_some_iff.mpr ⟨value, v', hvalue, hlt, hv', hfresh, rfl⟩
    rw [hnone] at hsome
    cases hsome
  · intro hall
    rw [Option.eq_none_iff_forall_ne_some]
    intro r hr
    obtain ⟨-, v', -, -, hv', hfresh, -⟩ := registration_eq_some_iff.mp hr
    rw [hall v' hv'] at hfresh
    cases hfresh

theorem isAlreadyRegistered_of_registration {r : MemRegion} (h : self.registration s = some r) :
    self.isAlreadyRegistered r.name = false := by
  obtain ⟨-, v, -, -, -, hfresh, rfl⟩ := registration_eq_some_iff.mp h
  exact hfresh

end

/-! ## §3  The latest allocation wins -/

section

variable (steps : List MemStep)

/-- After each step a variable has the region of its latest allocation, and its header
word and its fields are read there. -/
def LatestAllocationWins : Prop :=
  ∀ k, k ≤ steps.length → ∀ name,
    (trackerBefore steps k).region name = latest (allocationsBefore steps k) name ∧
    (∀ memory, (trackerBefore steps k).getVariableValue name memory =
      (latest (allocationsBefore steps k) name).bind fun r => readWord memory r.baseOffset) ∧
    ∀ fieldOffset memory, (trackerBefore steps k).getFieldValue name fieldOffset memory =
      (latest (allocationsBefore steps k) name).bind fun r =>
        if r.sizeInBytes < addU64 fieldOffset word then none
        else readWord memory (addU64 r.baseOffset fieldOffset)

/-- A variable that is allocated again gets the region it has, by a step with a variable in
range or with no memory-resident variable in scope that was never allocated. -/
def AllocatedOnce : Prop :=
  ∀ k s r r', steps[k]? = some s → s.allocation (shownPointer steps k) = some r →
    latest (allocationsBefore steps k) r.name = some r' →
      r' = r ∧ (s.inRange ≠ none ∨ ∀ v ∈ s.varsInScope, v.isMemoryResident = true →
        latest (allocationsBefore steps k) v.name ≠ none)

variable {steps}

theorem latestAllocationWins_iff : LatestAllocationWins steps ↔
    ∀ k, k ≤ steps.length → ∀ name,
      (trackerBefore steps k).region name = latest (allocationsBefore steps k) name := by
  constructor
  · exact fun h k hk name => (h k hk name).1
  · intro h k hk name
    refine ⟨h k hk name, ?_, ?_⟩
    · intro memory
      rw [← h k hk name]
      rfl
    · intro fieldOffset memory
      rw [← h k hk name]
      rfl

theorem region_trackerBefore_succ_eq {k : Nat} {s : MemStep} (hs : steps[k]? = some s)
    (name : String) :
    (trackerBefore steps (k + 1)).region name =
      if ((trackerBefore steps k).registration s).any (·.name = name) then
        (trackerBefore steps k).registration s
      else (trackerBefore steps k).region name := by
  rw [region_eq_latest, trackerBefore_succ hs, regions_registering, latest_append_toList,
    region_eq_latest]

/-- One step keeps the latest allocations exactly when it allocates nothing to a variable that
has a region, or the same region while nothing is registered. -/
theorem region_succ_eq_latest_iff {k : Nat} {s : MemStep} (hs : steps[k]? = some s)
    (h : ∀ name, (trackerBefore steps k).region name = latest (allocationsBefore steps k) name) :
    (∀ name, (trackerBefore steps (k + 1)).region name =
        latest (allocationsBefore steps (k + 1)) name) ↔
      ∀ r r', s.allocation (shownPointer steps k) = some r →
        (trackerBefore steps k).region r.name = some r' →
          r' = r ∧ (trackerBefore steps k).registration s = none := by
  simp only [region_trackerBefore_succ_eq hs, allocationsBefore_succ hs, latest_append_toList, ← h]
  have hcached := lastFmp_of_getElem? hs
  generalize trackerBefore steps k = self at hcached
  rw [← hcached]
  cases hr : s.allocation self.lastFmp with
  | none => simp [registration_eq_none hr]
  | some r =>
      cases hregion : self.region r.name with
      | none =>
          rw [registration_eq_allocation hr (isAlreadyRegistered_eq_false_iff.mpr hregion)]
          constructor
          · rintro - r₁ r' hr₁ hregion₁
            obtain rfl := Option.some.inj hr₁
            rw [hregion] at hregion₁
            cases hregion₁
          · exact fun _ _ => rfl
      | some r' =>
          have hold := isAlreadyRegistered_of_region hregion
          constructor
          · intro hname r₁ r₁' hr₁ hregion₁
            obtain rfl := Option.some.inj hr₁
            obtain rfl := Option.some.inj (hregion.symm.trans hregion₁)
            -- what is registered instead is of another variable, which was not allocated
            cases hreg : self.registration s with
            | none =>
                have hlatest := hname r.name
                rw [hreg] at hlatest
                simp only [Option.any_none, Option.any_some, decide_true, if_true, hregion] at hlatest
                exact ⟨Option.some.inj hlatest, rfl⟩
            | some other =>
                have hother := isAlreadyRegistered_of_registration hreg
                have hne : r.name ≠ other.name := by
                  intro heq
                  rw [← heq, hold] at hother
                  cases hother
                have hlatest := hname other.name
                rw [isAlreadyRegistered_eq_false_iff] at hother
                simp [hreg, hne, hother] at hlatest
          · intro hkept name
            obtain ⟨rfl, hnone⟩ := hkept r r' rfl hregion
            by_cases hn : r'.name = name
            · subst hn
              simp [hnone, hregion]
            · simp [hnone, hn]

/-- The same, by the trace alone. -/
theorem region_succ_eq_latest_iff_allocations {k : Nat} {s : MemStep} (hs : steps[k]? = some s)
    (h : ∀ name, (trackerBefore steps k).region name = latest (allocationsBefore steps k) name) :
    (∀ name, (trackerBefore steps (k + 1)).region name =
        latest (allocationsBefore steps (k + 1)) name) ↔
      ∀ r r', s.allocation (shownPointer steps k) = some r →
        latest (allocationsBefore steps k) r.name = some r' →
          r' = r ∧ (s.inRange ≠ none ∨ ∀ v ∈ s.varsInScope, v.isMemoryResident = true →
            latest (allocationsBefore steps k) v.name ≠ none) := by
  rw [region_succ_eq_latest_iff hs h]
  simp only [← h, ← isAlreadyRegistered_iff]
  refine forall₄_congr fun r r' hr hregion => and_congr_right fun _ => ?_
  rw [← lastFmp_of_getElem? hs] at hr
  exact registration_eq_none_iff hr (isAlreadyRegistered_of_region hregion)

end

/-- **The latest allocation wins** exactly when nothing is allocated to a variable that was
allocated before, other than the same region, by a step that leaves the fallback nothing. -/
theorem latest_allocation_wins_iff (steps : List MemStep) :
    LatestAllocationWins steps ↔ AllocatedOnce steps := by
  rw [latestAllocationWins_iff]
  constructor
  · intro h k s r r' hs
    have hk : k < steps.length := (List.getElem?_eq_some_iff.mp hs).1
    exact (region_succ_eq_latest_iff_allocations hs (h k hk.le)).mp (h (k + 1) hk) r r'
  · intro h k
    induction k with
    | zero =>
        intro _ name
        simp [region, latest, trackerBefore, new]
    | succ k ih =>
        intro hk
        have hs : steps[k]? = some steps[k] := List.getElem?_eq_getElem hk
        apply (region_succ_eq_latest_iff_allocations hs (ih (Nat.le_of_lt hk))).mpr
        exact fun r r' => h k _ r r' hs

/-- `a`, declared in a loop, is allocated in two iterations. -/
def loopTwice : List MemStep :=
  [{ sampleStore (sampleVar "a" 10) 0xC0 0x80 with preStack := [0x100, 0x40, 0xC0, 0x40] },
    { sampleStore (sampleVar "a" 10) 0x100 0xC0 with opcode := 0x5b },
    sampleStore (sampleVar "a" 10) 0x100 0xC0]

/-- `a` keeps the region of the first iteration. -/
theorem loopTwice_keeps_first :
    (trackerBefore loopTwice 3).region "a" = some ⟨"a", "struct S memory", 0x80, 0x40⟩ ∧
      latest (allocationsBefore loopTwice 3) "a" = some ⟨"a", "struct S memory", 0xC0, 0x40⟩ ∧
      ¬ LatestAllocationWins loopTwice := by
  have hregion : (trackerBefore loopTwice 3).region "a" =
      some ⟨"a", "struct S memory", 0x80, 0x40⟩ := by
    decide +kernel
  have hlatest : latest (allocationsBefore loopTwice 3) "a" =
      some ⟨"a", "struct S memory", 0xC0, 0x40⟩ := by
    decide +kernel
  refine ⟨hregion, hlatest, ?_⟩
  intro h
  have heq := (h 3 le_rfl "a").1
  rw [hregion, hlatest] at heq
  revert heq
  decide

end EvmRecorder.MemoryTracker
