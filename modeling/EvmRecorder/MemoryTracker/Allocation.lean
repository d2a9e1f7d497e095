import EvmRecorder.Library.BumpAllocator
import EvmRecorder.Library.Run
import EvmRecorder.Model.MemoryTracker

/-!
# Regions of a run

Over a run of `process_step` the tracker registers a region where a store moves the
free memory pointer up and a variable is found for it. A variable keeps its first
region, and a region starts at the pointer seen at the step before.
-/

namespace EvmRecorder

open Bytes

/-! ## §1  Runs -/

/-- The 32-byte word at `offset` of a memory, zero beyond its end. -/
def memoryWord (memory : List UInt8) (offset : Nat) : Nat :=
  beNat ((List.range word).map fun i => memory.getD (offset + i) 0)

/-- The arguments of one call of `process_step`. -/
structure MemStep where
  opcode : UInt8
  sourceOffset : Option Int32
  varsInScope : List VarDecl
  preStack : List U256
  preMemory : List UInt8

/-- The word that an MSTORE writes to the free memory pointer. -/
def MemStep.pointerStore (self : MemStep) : Option U256 :=
  match self.preStack.reverse with
  | dest :: value :: _ =>
      if self.opcode = 0x52 ∧ dest.toNat = freeMemoryPointerOffset then some value else none
  | _ => none

/-- The free memory pointer before a step. -/
def MemStep.pointer (self : MemStep) : Nat := memoryWord self.preMemory freeMemoryPointerOffset

/-- The free memory pointer after a step, as far as the step itself stores it. -/
def MemStep.pointerAfter (self : MemStep) : Nat :=
  (self.pointerStore.map BitVec.toNat).getD self.pointer

/-- The memory-resident variable whose ranges contain the step's source offset. -/
def MemStep.inRange (self : MemStep) : Option VarDecl :=
  self.sourceOffset.bind (pickVarForOffset · self.varsInScope)

/-- The variable that an allocation is for: the one in range, else the memory-resident one
that is declared last. -/
def MemStep.attributed (self : MemStep) : Option VarDecl :=
  self.inRange.orElse fun _ => self.varsInScope.reverse.find? (·.isMemoryResident)

/-- The region that a step allocates from the pointer `shown` on. -/
def MemStep.allocation (self : MemStep) (shown : Nat) : Option MemRegion := do
  let value ← self.pointerStore
  if u256ToU64Saturating value ≤ shown then none
  else
    let v ← self.attributed
    some ⟨v.name, v.typeName, shown, u256ToU64Saturating value - shown⟩

section Traces

variable (steps : List MemStep)

/-- The low eight bytes of the pointer word in the last memory before step `k` that has it
whole, and `0x80` as long as there is none. -/
def shownPointer (k : Nat) : Nat :=
  let shown := (steps.take k).filter (freeMemoryPointerOffset + word ≤ ·.preMemory.length)
  (shown.getLast?.map (·.pointer % 2 ^ 64)).getD initialFreeMemoryPointer

def allocationAt (k : Nat) : Option MemRegion := do
  let s ← steps[k]?
  s.allocation (shownPointer steps k)

/-- The allocations before step `k`, oldest first. -/
def allocationsBefore (k : Nat) : List MemRegion := (List.range k).filterMap (allocationAt steps)

variable {steps} {k : Nat} {s : MemStep}

@[simp] theorem shownPointer_zero : shownPointer steps 0 = initialFreeMemoryPointer := rfl

theorem shownPointer_succ (hs : steps[k]? = some s) :
    shownPointer steps (k + 1) =
      if s.preMemory.length < freeMemoryPointerOffset + word then shownPointer steps k
      else s.pointer % 2 ^ 64 := by
  rw [shownPointer, List.take_add_one, hs, Option.toList_some, List.filter_append]
  by_cases hlong : freeMemoryPointerOffset + word ≤ s.preMemory.length
  · rw [if_neg (Nat.not_lt.mpr hlong), List.filter_singleton]
    simp [hlong]
  · rw [if_pos (Nat.not_le.mp hlong), List.filter_singleton]
    simp [hlong, shownPointer]

@[simp] theorem allocationsBefore_zero : allocationsBefore steps 0 = [] := rfl

theorem allocationsBefore_succ (hs : steps[k]? = some s) :
    allocationsBefore steps (k + 1) =
      allocationsBefore steps k ++ (s.allocation (shownPointer steps k)).toList := by
  have hat : allocationAt steps k = s.allocation (shownPointer steps k) := by
    rw [allocationAt, hs]
    rfl
  rw [allocationsBefore, List.range_succ, List.filterMap_append, ← allocationsBefore, ← hat]
  cases h : allocationAt steps k with
  | none => simp [h]
  | some r => simp [h]

end Traces

namespace MemoryTracker

/-- The variable that the tracker registers a region for, if it has none. -/
def candidate (self : MemoryTracker) (s : MemStep) : Option VarDecl :=
  s.inRange.orElse fun _ =>
    s.varsInScope.reverse.find? fun v => v.isMemoryResident && !self.isAlreadyRegistered v.name

/-- The region that a step registers: that of a variable which has none. -/
def registration (self : MemoryTracker) (s : MemStep) : Option MemRegion := do
  let value ← s.pointerStore
  if u256ToU64Saturating value ≤ self.lastFmp then none
  else
    let v ← self.candidate s
    if self.isAlreadyRegistered v.name then none
    else some ⟨v.name, v.typeName, self.lastFmp, u256ToU64Saturating value - self.lastFmp⟩

def runStep (_ : Nat) (s : MemStep) (self : MemoryTracker) : MemoryTracker × List MemAssignment :=
  self.processStep s.opcode s.sourceOffset s.varsInScope s.preStack s.preMemory

/-- The tracker before step `k`. -/
def trackerBefore (steps : List MemStep) (k : Nat) : MemoryTracker :=
  Machine.stateBefore runStep steps new k

/-! ## §2  What a step does -/

@[simp] theorem regions_observeMemory (self : MemoryTracker) (memory : List UInt8) :
    (self.observeMemory memory).regions = self.regions := by
  unfold observeMemory
  split <;> rfl

/-- The eight bytes that are cached are the low ones of the pointer word. -/
theorem beNat_lowBytes {memory : List UInt8}
    (h : freeMemoryPointerOffset + word ≤ memory.length) :
    beNat ((memory.drop (freeMemoryPointerOffset + word - 8)).take 8) =
      memoryWord memory freeMemoryPointerOffset % 2 ^ 64 := by
  rw [freeMemoryPointerOffset, word] at h
  have hbytes : (List.range word).map (fun i => memory.getD (freeMemoryPointerOffset + i) 0) =
      (memory.drop freeMemoryPointerOffset).take 24 ++
        (memory.drop (freeMemoryPointerOffset + word - 8)).take 8 := by
    apply List.ext_getElem
    · simp only [List.length_map, List.length_range, List.length_append, List.length_take,
        List.length_drop, freeMemoryPointerOffset, word]
      omega
    · intro i hi hi'
      rw [List.length_map, List.length_range, word] at hi
      have hin : freeMemoryPointerOffset + i < memory.length := by
        rw [freeMemoryPointerOffset]
        omega
      rw [List.getElem_map, List.getElem_range, List.getD_eq_getElem?_getD,
        List.getElem?_eq_getElem hin, Option.getD_some, List.getElem_append]
      split
      · rw [List.getElem_take, List.getElem_drop]
      · rename_i hlow
        simp only [List.length_take, List.length_drop, freeMemoryPointerOffset] at hlow
        simp only [List.getElem_take, List.getElem_drop, List.length_take, List.length_drop,
          freeMemoryPointerOffset, word]
        congr 1
        omega
  have hlow : ((memory.drop (freeMemoryPointerOffset + word - 8)).take 8).length = 8 := by
    simp only [List.length_take, List.length_drop, freeMemoryPointerOffset, word]
    omega
  have hlt := beNat_lt ((memory.drop (freeMemoryPointerOffset + word - 8)).take 8)
  rw [memoryWord, hbytes, beNat_append]
  rw [hlow] at hlt ⊢
  omega

theorem lastFmp_observeMemory (self : MemoryTracker) (memory : List UInt8) :
    (self.observeMemory memory).lastFmp =
      if memory.length < freeMemoryPointerOffset + word then self.lastFmp
      else memoryWord memory freeMemoryPointerOffset % 2 ^ 64 := by
  unfold observeMemory
  split
  · rfl
  · rename_i hlong
    exact beNat_lowBytes (Nat.not_lt.mp hlong)

@[simp] theorem isAlreadyRegistered_observeMemory (self : MemoryTracker) (memory : List UInt8)
    (name : String) :
    (self.observeMemory memory).isAlreadyRegistered name = self.isAlreadyRegistered name := by
  rw [isAlreadyRegistered, isAlreadyRegistered, regions_observeMemory]

theorem saturating_eq_pointer_iff (v : U256) :
    u256ToU64Saturating v = freeMemoryPointerOffset ↔ v.toNat = freeMemoryPointerOffset := by
  rw [u256ToU64Saturating, freeMemoryPointerOffset]
  omega

/-- The tracker after a step that registers `r`, or nothing. -/
def registering (self : MemoryTracker) (memory : List UInt8) (r : Option MemRegion) :
    MemoryTracker :=
  { self.observeMemory memory with regions := self.regions ++ r.toList }

@[simp] theorem registering_none (self : MemoryTracker) (memory : List UInt8) :
    self.registering memory none = self.observeMemory memory := by
  rw [registering, Option.toList_none, List.append_nil, ← regions_observeMemory self memory]

@[simp] theorem regions_registering (self : MemoryTracker) (memory : List UInt8)
    (r : Option MemRegion) : (self.registering memory r).regions = self.regions ++ r.toList := rfl

@[simp] theorem lastFmp_registering (self : MemoryTracker) (memory : List UInt8)
    (r : Option MemRegion) :
    (self.registering memory r).lastFmp = (self.observeMemory memory).lastFmp := rfl

/-- A bump registers the region allocated to the candidate, if it has none. -/
theorem handleFmpBump_eq (self : MemoryTracker) {s : MemStep} {value : U256}
    (h : s.pointerStore = some value) :
    (self.observeMemory s.preMemory).handleFmpBump self.lastFmp (u256ToU64Saturating value)
        s.sourceOffset s.varsInScope =
      self.registering s.preMemory (self.registration s) := by
  simp only [handleFmpBump, isAlreadyRegistered_observeMemory, regions_observeMemory]
  by_cases hle : u256ToU64Saturating value ≤ self.lastFmp
  · have hnone : self.registration s = none := by simp [registration, h, hle]
    rw [if_pos hle, hnone, registering_none]
  · rw [if_neg hle, ← MemStep.inRange, ← candidate]
    cases hv : self.candidate s with
    | none =>
        have hnone : self.registration s = none := by simp [registration, h, hv]
        rw [hnone, registering_none]
    | some v =>
        cases hreg : self.isAlreadyRegistered v.name with
        | false =>
            have hsome : self.registration s = some ⟨v.name, v.typeName, self.lastFmp,
                u256ToU64Saturating value - self.lastFmp⟩ := by
              simp [registration, h, hle, hv, hreg]
            rw [hsome]
            simp [registering, hreg]
        | true =>
            have hnone : self.registration s = none := by simp [registration, h, hv, hreg]
            rw [hnone, registering_none]
            simp [hreg]

/-- A step caches the pointer word of its memory, and may register a region. -/
theorem processStep_eq (self : MemoryTracker) (s : MemStep) :
    (self.processStep s.opcode s.sourceOffset s.varsInScope s.preStack s.preMemory).1 =
      self.registering s.preMemory (self.registration s) := by
  cases hstore : s.pointerStore with
  | some value =>
      have hbump := self.handleFmpBump_eq hstore
      unfold MemStep.pointerStore at hstore
      split at hstore
      · rename_i dest _ _ hstack
        split at hstore
        · rename_i hop
          obtain rfl := Option.some.inj hstore
          have hdest := (saturating_eq_pointer_iff dest).mpr hop.2
          simp only [processStep, if_pos hop.1, handleMstore, hstack, if_pos hdest, hbump]
        · contradiction
      · contradiction
  | none =>
      have hnone : self.registration s = none := by simp [registration, hstore]
      rw [hnone, registering_none]
      unfold MemStep.pointerStore at hstore
      -- an MSTORE elsewhere and every other opcode leave the regions alone
      by_cases hop : s.opcode = 0x52
      · simp only [processStep, if_pos hop, handleMstore]
        split
        · rename_i dest value _ hstack
          rw [hstack] at hstore
          simp only [ite_eq_right_iff, reduceCtorEq, imp_false, not_and] at hstore
          have hdest := hstore hop
          rw [← saturating_eq_pointer_iff] at hdest
          simp only [if_neg hdest]
        · rfl
      · simp only [processStep, if_neg hop]
        split <;> rfl

section Runs

variable {steps : List MemStep} {k : Nat} {s : MemStep}

@[simp] theorem trackerBefore_zero : trackerBefore steps 0 = new := Machine.stateBefore_zero

theorem trackerBefore_succ (hs : steps[k]? = some s) :
    trackerBefore steps (k + 1) =
      (trackerBefore steps k).registering s.preMemory
        ((trackerBefore steps k).registration s) := by
  rw [trackerBefore, Machine.stateBefore_succ hs]
  exact processStep_eq _ s

/-- The cached pointer is the one shown last. -/
theorem lastFmp_trackerBefore : ∀ k, k ≤ steps.length →
    (trackerBefore steps k).lastFmp = shownPointer steps k := by
  intro k
  induction k with
  | zero => exact fun _ => rfl
  | succ k ih =>
      intro hk
      have hs : steps[k]? = some steps[k] := List.getElem?_eq_getElem hk
      rw [trackerBefore_succ hs, lastFmp_registering, lastFmp_observeMemory, shownPointer_succ hs,
        ih (Nat.le_of_lt hk)]
      rfl

theorem lastFmp_of_getElem? {k : Nat} {s : MemStep} (hs : steps[k]? = some s) :
    (trackerBefore steps k).lastFmp = shownPointer steps k :=
  lastFmp_trackerBefore k (List.getElem?_eq_some_iff.mp hs).1.le

end Runs

/-! ## §3  Exact and disjoint regions -/

section Exact

variable (steps : List MemStep)

/-- The free memory pointer never decreases, neither at a step nor between two steps. -/
structure PointerNeverDecreases : Prop where
  atStep : ∀ s ∈ steps, s.pointer ≤ s.pointerAfter
  between : ∀ k s s', steps[k]? = some s → steps[k + 1]? = some s' → s.pointerAfter ≤ s'.pointer

/-- A region is registered at a store to the pointer, from the pointer word of the memory
before it to the stored word. -/
def RegionsExact : Prop :=
  ∀ k s r, steps[k]? = some s →
    (trackerBefore steps (k + 1)).regions = (trackerBefore steps k).regions ++ [r] →
      ∃ value, s.pointerStore = some value ∧ r.baseOffset = s.pointer ∧
        r.baseOffset + r.sizeInBytes = value.toNat

def RegionsDisjoint (self : MemoryTracker) : Prop :=
  self.regions.Pairwise fun r r' =>
    Disjoint (Set.Ico r.baseOffset (r.baseOffset + r.sizeInBytes))
      (Set.Ico r'.baseOffset (r'.baseOffset + r'.sizeInBytes))

/-- Step `k` stores a pointer above the one shown last, and its variable has no region yet. -/
def Registers (k : Nat) (s : MemStep) (value : U256) : Prop :=
  s.pointerStore = some value ∧ shownPointer steps k < u256ToU64Saturating value ∧
    ∃ v, (trackerBefore steps k).candidate s = some v ∧
      (trackerBefore steps k).isAlreadyRegistered v.name = false

/-- The pointer word of step `k` was shown last before it, and the word that the step stores
is a `u64`. -/
def SeesPointer (k : Nat) (s : MemStep) (value : U256) : Prop :=
  shownPointer steps k = s.pointer ∧ value.toNat < 2 ^ 64

instance (k : Nat) (s : MemStep) (value : U256) : Decidable (SeesPointer steps k s value) :=
  inferInstanceAs (Decidable (_ ∧ _))

end Exact

theorem registration_eq_some_iff {self : MemoryTracker} {s : MemStep} {r : MemRegion} :
    self.registration s = some r ↔ ∃ value v, s.pointerStore = some value ∧
      self.lastFmp < u256ToU64Saturating value ∧ self.candidate s = some v ∧
      self.isAlreadyRegistered v.name = false ∧
      r = ⟨v.name, v.typeName, self.lastFmp, u256ToU64Saturating value - self.lastFmp⟩ := by
  simp only [registration, Option.bind_eq_bind, Option.bind_eq_some_iff]
  constructor
  · rintro ⟨value, hvalue, h⟩
    split at h
    · contradiction
    · rename_i hle
      obtain ⟨v, hv, hr⟩ := Option.bind_eq_some_iff.mp h
      split at hr
      · contradiction
      · rename_i hreg
        obtain rfl := Option.some.inj hr
        exact ⟨value, v, hvalue, Nat.lt_of_not_le hle, hv, by simpa using hreg, rfl⟩
  · rintro ⟨value, v, hvalue, hlt, hv, hreg, rfl⟩
    refine ⟨value, hvalue, ?_⟩
    rw [if_neg (Nat.not_le_of_lt hlt), hv, Option.bind_some, hreg]
    rfl

section

variable {steps : List MemStep} {k : Nat} {s : MemStep} {r : MemRegion}

theorem regions_trackerBefore_succ_iff (hs : steps[k]? = some s) :
    (trackerBefore steps (k + 1)).regions = (trackerBefore steps k).regions ++ [r] ↔
      (trackerBefore steps k).registration s = some r := by
  rw [trackerBefore_succ hs, regions_registering, List.append_cancel_left_eq]
  cases (trackerBefore steps k).registration s with
  | none => simp
  | some r' => simp

/-- Where each registering step was shown its pointer word before and stores a `u64`, regions
start at the pointer and end at the stored word. -/
theorem regionsExact_iff :
    RegionsExact steps ↔ ∀ k s value, steps[k]? = some s → Registers steps k s value →
      SeesPointer steps k s value := by
  constructor
  · intro h k s value hs hreg
    obtain ⟨hvalue, hlt, v, hv, hfresh⟩ := hreg
    have hcached := lastFmp_of_getElem? hs
    rw [← hcached] at hlt
    have hr := registration_eq_some_iff.mpr ⟨value, v, hvalue, hlt, hv, hfresh, rfl⟩
    obtain ⟨value', hvalue', hbase, hend⟩ :=
      h k s _ hs ((regions_trackerBefore_succ_iff hs).mpr hr)
    obtain rfl := Option.some.inj (hvalue.symm.trans hvalue')
    refine ⟨hcached ▸ hbase, ?_⟩
    simp only [u256ToU64Saturating] at hlt hend
    omega
  · intro h k s r hs hregions
    rw [regions_trackerBefore_succ_iff hs, registration_eq_some_iff] at hregions
    obtain ⟨value, v, hvalue, hlt, hv, hfresh, rfl⟩ := hregions
    have hcached := lastFmp_of_getElem? hs
    obtain ⟨hshown, hfits⟩ := h k s value hs ⟨hvalue, hcached ▸ hlt, v, hv, hfresh⟩
    refine ⟨value, hvalue, hcached.trans hshown, ?_⟩
    simp only [u256ToU64Saturating] at hlt ⊢
    omega

/-- The range of addresses of a region. -/
def span (r : MemRegion) : Nat × Nat := (r.baseOffset, r.baseOffset + r.sizeInBytes)

/-- Exact regions under a pointer that never decreases are those of a bump allocator. -/
theorem exists_bumpAllocator (hp : PointerNeverDecreases steps) (h : RegionsExact steps) :
    ∀ k, k ≤ steps.length → ∃ b : BumpAllocator Nat,
      b.ranges = (trackerBefore steps k).regions.map span ∧
        ∀ s, steps[k]? = some s → b.pointer ≤ s.pointer
  | 0, _ => ⟨.empty 0, rfl, fun _ _ => Nat.zero_le _⟩
  | k + 1, hk => by
      obtain ⟨b, hb, hle⟩ := exists_bumpAllocator hp h k (Nat.le_of_lt hk)
      have hs : steps[k]? = some steps[k] := List.getElem?_eq_getElem hk
      have hpointer := hle _ hs
      have hstep := hp.atStep steps[k] (List.getElem_mem hk)
      have hnext := fun s' => hp.between k steps[k] s' hs
      cases hr : (trackerBefore steps k).registration steps[k] with
      | none =>
          refine ⟨b.advance _ (hpointer.trans hstep), ?_, hnext⟩
          rw [BumpAllocator.ranges_advance, hb, trackerBefore_succ hs, hr]
          simp
      | some r =>
          obtain ⟨value, hvalue, hbase, hend⟩ :=
            h k _ r hs ((regions_trackerBefore_succ_iff hs).mpr hr)
          have hafter : steps[k].pointerAfter = r.baseOffset + r.sizeInBytes := by
            rw [MemStep.pointerAfter, hvalue, hend]
            rfl
          rw [hafter] at hnext
          refine ⟨b.alloc r.baseOffset (r.baseOffset + r.sizeInBytes) (hbase ▸ hpointer)
            (Nat.le_add_right _ _), ?_, hnext⟩
          rw [BumpAllocator.ranges_alloc, hb, trackerBefore_succ hs, hr]
          simp [span]

theorem regionsDisjoint_of_exact (hp : PointerNeverDecreases steps) (h : RegionsExact steps)
    (hk : k ≤ steps.length) : (trackerBefore steps k).RegionsDisjoint := by
  obtain ⟨b, hb, -⟩ := exists_bumpAllocator hp h k hk
  have hdisjoint := b.disjoint
  rw [hb, List.pairwise_map] at hdisjoint
  exact hdisjoint

end

/-- Under a pointer that never decreases, regions are exact and disjoint exactly when
the pointer word of every registering step was shown last before it, and the step stores a
`u64`. -/
theorem regions_exact_and_disjoint_iff {steps : List MemStep}
    (hp : PointerNeverDecreases steps) :
    (RegionsExact steps ∧ ∀ k, k ≤ steps.length → (trackerBefore steps k).RegionsDisjoint) ↔
      ∀ k s value, steps[k]? = some s → Registers steps k s value →
        SeesPointer steps k s value := by
  rw [← regionsExact_iff]
  constructor
  · exact fun h => h.1
  · exact fun h => ⟨h, fun k hk => regionsDisjoint_of_exact hp h hk⟩

/-! ### Two allocations in a row -/

/-- A memory that holds the free memory pointer `pointer`. -/
def sampleMemory (pointer : UInt8) : List UInt8 := List.replicate 0x5f 0 ++ [pointer]

def sampleVar (name : String) (offset : Int32) : VarDecl where
  name := name
  typeName := "struct S memory"
  src := ⟨offset, 10, 0⟩
  declarationOffset := offset

/-- `mstore(0x40, value)` in the declaration of `v`. -/
def sampleStore (v : VarDecl) (value : U256) (pointer : UInt8) : MemStep where
  opcode := 0x52
  sourceOffset := some v.declarationOffset
  varsInScope := [v]
  preStack := [value, 0x40]
  preMemory := sampleMemory pointer

/-- `a` and then `b` are allocated by two stores with no step between them; the operands of
both are on the stack before the first. -/
def backToBack : List MemStep :=
  [{ sampleStore (sampleVar "a" 10) 0xC0 0x80 with preStack := [0x100, 0x40, 0xC0, 0x40] },
    sampleStore (sampleVar "b" 30) 0x100 0xC0]

theorem pointerNeverDecreases_backToBack : PointerNeverDecreases backToBack where
  atStep := by decide +kernel
  between := by
    intro k s s' hs hs'
    match k with
    | 0 =>
        obtain rfl := Option.some.inj hs
        obtain rfl := Option.some.inj hs'
        decide +kernel
    | k + 1 => simp [backToBack] at hs'

/-- The region of `b` starts at the pointer before `a`, and overlaps that of `a`. -/
theorem backToBack_overlap : PointerNeverDecreases backToBack ∧ ¬ RegionsExact backToBack ∧
    ¬ (trackerBefore backToBack 2).RegionsDisjoint := by
  have hregions : (trackerBefore backToBack 2).regions =
      [⟨"a", "struct S memory", 0x80, 0x40⟩, ⟨"b", "struct S memory", 0x80, 0x80⟩] := by
    decide +kernel
  refine ⟨pointerNeverDecreases_backToBack, ?_, ?_⟩
  · intro h
    obtain ⟨-, -, hbase, -⟩ := h 1 _ ⟨"b", "struct S memory", 0x80, 0x80⟩ rfl (by decide +kernel)
    revert hbase
    decide +kernel
  · rw [RegionsDisjoint, hregions]
    intro h
    have hoverlap := List.rel_of_pairwise_cons h List.mem_cons_self
    rw [Set.Ico_disjoint_Ico] at hoverlap
    revert hoverlap
    decide

/-- `a` and then `b`, with a step between them that sees the new pointer. -/
def spacedOut : List MemStep :=
  [{ sampleStore (sampleVar "a" 10) 0xC0 0x80 with preStack := [0x100, 0x40, 0xC0, 0x40] },
    { sampleStore (sampleVar "a" 10) 0x100 0xC0 with opcode := 0x5b },
    sampleStore (sampleVar "b" 30) 0x100 0xC0]

/-- With a step between them, the regions are exact and disjoint. -/
theorem regions_exact_and_disjoint_spacedOut : RegionsExact spacedOut ∧
    ∀ k, k ≤ spacedOut.length → (trackerBefore spacedOut k).RegionsDisjoint := by
  apply (regions_exact_and_disjoint_iff ?_).mpr
  · intro k s value hs hreg
    obtain ⟨hvalue, -⟩ := hreg
    match k with
    | 0 =>
        obtain rfl := Option.some.inj hs
        obtain rfl := Option.some.inj hvalue
        decide +kernel
    | 1 =>
        obtain rfl := Option.some.inj hs
        contradiction
    | 2 =>
        obtain rfl := Option.some.inj hs
        obtain rfl := Option.some.inj hvalue
        decide +kernel
    | k + 3 => simp [spacedOut] at hs
  · constructor
    · decide +kernel
    · intro k s s' hs hs'
      match k with
      | 0 | 1 =>
          obtain rfl := Option.some.inj hs
          obtain rfl := Option.some.inj hs'
          decide +kernel
      | k + 2 => simp [spacedOut] at hs'

end MemoryTracker

end EvmRecorder
