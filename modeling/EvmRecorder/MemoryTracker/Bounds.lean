import EvmRecorder.MemoryTracker.Allocation

/-!
# Bounds of a region

Whether a store is reported, and whether a field is read, compared with whether all of
its bytes are in the region. The sums are taken modulo `2 ^ 64`: those of the region
never wrap, those of the operand do in the last 32 bytes of the range and above it.
-/

namespace EvmRecorder

open Bytes

/-- All of the `size` bytes from `offset` are in the region. -/
def MemRegion.Contains (self : MemRegion) (offset size : Nat) : Prop :=
  self.baseOffset ≤ offset ∧ offset + size ≤ self.baseOffset + self.sizeInBytes

namespace MemoryTracker

/-! ## §1  Registered regions do not wrap -/

def RegionsInRange (self : MemoryTracker) : Prop :=
  ∀ r ∈ self.regions, r.baseOffset + r.sizeInBytes < 2 ^ 64

theorem regionsInRange_registering {self : MemoryTracker} (s : MemStep)
    (h : self.RegionsInRange) :
    (self.registering s.preMemory (self.registration s)).RegionsInRange := by
  intro r hr
  rw [regions_registering, List.mem_append, Option.mem_toList] at hr
  rcases hr with hr | hr
  · exact h r hr
  · obtain ⟨value, v, -, hlt, -, -, rfl⟩ := registration_eq_some_iff.mp hr
    simp only [u256ToU64Saturating] at hlt ⊢
    omega

/-- A region ends at a stored pointer, which saturates. -/
theorem regionsInRange_trackerBefore (steps : List MemStep) :
    ∀ k, k ≤ steps.length → (trackerBefore steps k).RegionsInRange := by
  intro k
  induction k with
  | zero =>
      intro _ r hr
      contradiction
  | succ k ih =>
      intro hk
      rw [trackerBefore_succ (List.getElem?_eq_getElem hk)]
      exact regionsInRange_registering _ (ih (Nat.le_of_lt hk))

/-! ## §2  The bounds tests -/

section

variable {self : MemoryTracker}

theorem saturating_of_lt {v : U256} (h : v.toNat < 2 ^ 64) : u256ToU64Saturating v = v.toNat := by
  rw [u256ToU64Saturating]
  omega

theorem addU64_of_lt {a b : Nat} (h : a + b < 2 ^ 64) : addU64 a b = a + b := Nat.mod_eq_of_lt h

theorem addU64_of_le {a b : Nat} (ha : a < 2 ^ 64) (hb : b < 2 ^ 64) (h : 2 ^ 64 ≤ a + b) :
    addU64 a b = a + b - 2 ^ 64 := by
  rw [addU64, Nat.mod_eq_sub_mod h, Nat.mod_eq_of_lt (by omega)]

variable (sourceOffset : Option Int32) (varsInScope : List VarDecl) (rest : List U256)
  (value dest : U256) (prevFmp : Nat)

/-- A word store away from the pointer is reported if a region passes the test. -/
theorem handleMstore_ne_nil_iff (hdest : dest.toNat ≠ freeMemoryPointerOffset) :
    (self.handleMstore sourceOffset varsInScope (rest ++ [value, dest]) prevFmp).2 ≠ [] ↔
      ∃ r ∈ self.regions, r.baseOffset ≤ u256ToU64Saturating dest ∧
        addU64 (u256ToU64Saturating dest) word ≤ addU64 r.baseOffset r.sizeInBytes := by
  rw [ne_eq, ← saturating_eq_pointer_iff] at hdest
  simp [handleMstore, if_neg hdest, Option.toList_eq_nil_iff, List.find?_eq_none]

/-- A store to the pointer is never reported. -/
theorem handleMstore_pointer (hdest : dest.toNat = freeMemoryPointerOffset) :
    (self.handleMstore sourceOffset varsInScope (rest ++ [value, dest]) prevFmp).2 = [] := by
  rw [← saturating_eq_pointer_iff] at hdest
  simp [handleMstore, if_pos hdest]

theorem handleMstore8_ne_nil_iff :
    self.handleMstore8 (rest ++ [value, dest]) ≠ [] ↔
      ∃ r ∈ self.regions, r.baseOffset ≤ u256ToU64Saturating dest ∧
        u256ToU64Saturating dest < addU64 r.baseOffset r.sizeInBytes := by
  simp [handleMstore8, Option.toList_eq_nil_iff, List.find?_eq_none]

/-- Below the last word of the range the test for a word store is exact. -/
theorem wordTest_iff {r : MemRegion} (hr : r.baseOffset + r.sizeInBytes < 2 ^ 64)
    (hdest : dest.toNat + word < 2 ^ 64) :
    (r.baseOffset ≤ u256ToU64Saturating dest ∧
        addU64 (u256ToU64Saturating dest) word ≤ addU64 r.baseOffset r.sizeInBytes) ↔
      r.Contains dest.toNat word := by
  have hword : word = 32 := rfl
  rw [saturating_of_lt (by omega), addU64_of_lt hdest, addU64_of_lt hr]
  rfl

/-- From there on it compares a wrapped end. -/
theorem wordTest_wrapped_iff {r : MemRegion} (hr : r.baseOffset + r.sizeInBytes < 2 ^ 64)
    (hdest : 2 ^ 64 ≤ dest.toNat + word) :
    (r.baseOffset ≤ u256ToU64Saturating dest ∧
        addU64 (u256ToU64Saturating dest) word ≤ addU64 r.baseOffset r.sizeInBytes) ↔
      r.baseOffset ≤ u256ToU64Saturating dest ∧
        u256ToU64Saturating dest + word ≤ r.baseOffset + r.sizeInBytes + 2 ^ 64 := by
  have hword : word = 32 := rfl
  have hlow : 2 ^ 64 ≤ u256ToU64Saturating dest + word := by
    rw [u256ToU64Saturating]
    omega
  have hhigh : u256ToU64Saturating dest < 2 ^ 64 := by
    rw [u256ToU64Saturating]
    omega
  rw [addU64_of_le hhigh (by omega) hlow, addU64_of_lt hr, Nat.sub_le_iff_le_add]

/-- The test for a byte store is exact at every destination. -/
theorem byteTest_iff {r : MemRegion} (hr : r.baseOffset + r.sizeInBytes < 2 ^ 64) :
    (r.baseOffset ≤ u256ToU64Saturating dest ∧
        u256ToU64Saturating dest < addU64 r.baseOffset r.sizeInBytes) ↔
      r.Contains dest.toNat 1 := by
  rw [addU64_of_lt hr, MemRegion.Contains, u256ToU64Saturating]
  omega

end

/-! ## §3  Exact bounds -/

section

variable (self : MemoryTracker) (dest : U256) (name : String) (fieldOffset : UInt64)

/-- Stores to `dest` are reported exactly when all the written bytes are in a region, and
the field of `name` at `fieldOffset` is only read where its word is in the region. -/
structure BoundsExact : Prop where
  mstore : ∀ sourceOffset varsInScope rest value prevFmp,
    (self.handleMstore sourceOffset varsInScope (rest ++ [value, dest]) prevFmp).2 ≠ [] ↔
      ∃ r ∈ self.regions, r.Contains dest.toNat word
  mstore8 : ∀ rest value, self.handleMstore8 (rest ++ [value, dest]) ≠ [] ↔
    ∃ r ∈ self.regions, r.Contains dest.toNat 1
  field : ∀ memory v, self.getFieldValue name fieldOffset.toNat memory = some v →
    ∃ r, self.region name = some r ∧ r.Contains (r.baseOffset + fieldOffset.toNat) word ∧
      readWord memory (r.baseOffset + fieldOffset.toNat) = some v

/-- No region spans the pointer word when that is the destination, and where `dest` or
`fieldOffset` is in the last word of the range, or above, no region passes the test with
the wrapped end. -/
structure AwayFromLimits : Prop where
  pointer : dest.toNat = freeMemoryPointerOffset →
    ∀ r ∈ self.regions, ¬ r.Contains freeMemoryPointerOffset word
  mstore : 2 ^ 64 ≤ dest.toNat + word → ∀ r ∈ self.regions,
    r.baseOffset ≤ u256ToU64Saturating dest →
      r.baseOffset + r.sizeInBytes + 2 ^ 64 < u256ToU64Saturating dest + word
  field : 2 ^ 64 ≤ fieldOffset.toNat + word → ∀ r, self.region name = some r →
    r.sizeInBytes + 2 ^ 64 < fieldOffset.toNat + word

variable {self}

theorem region_mem {r : MemRegion} (h : self.region name = some r) : r ∈ self.regions := by
  rw [← List.mem_reverse]
  exact List.mem_of_find?_eq_some h

/-- A destination is the pointer, or below the last word, or in it or above. -/
theorem mstore_exact_iff (hrange : self.RegionsInRange) :
    (∀ sourceOffset varsInScope rest value prevFmp,
      (self.handleMstore sourceOffset varsInScope (rest ++ [value, dest]) prevFmp).2 ≠ [] ↔
        ∃ r ∈ self.regions, r.Contains dest.toNat word) ↔
    (dest.toNat = freeMemoryPointerOffset →
      ∀ r ∈ self.regions, ¬ r.Contains freeMemoryPointerOffset word) ∧
    (2 ^ 64 ≤ dest.toNat + word → ∀ r ∈ self.regions,
      r.baseOffset ≤ u256ToU64Saturating dest →
        r.baseOffset + r.sizeInBytes + 2 ^ 64 < u256ToU64Saturating dest + word) := by
  have hword : word = 32 := rfl
  have hoffset : freeMemoryPointerOffset = 0x40 := rfl
  by_cases hdest : dest.toNat = freeMemoryPointerOffset
  · have hlow : ¬ 2 ^ 64 ≤ dest.toNat + word := by omega
    simp only [handleMstore_pointer _ _ _ _ _ _ hdest, hdest, forall_const, ne_eq, not_true_eq_false,
      false_iff, not_exists, not_and]
    rw [hdest] at hlow
    exact ⟨fun h => ⟨h, fun hle => absurd hle hlow⟩, fun h => h.1⟩
  · simp only [handleMstore_ne_nil_iff _ _ _ _ _ _ hdest, hdest, false_implies, true_and,
      forall_const]
    by_cases hlow : 2 ^ 64 ≤ dest.toNat + word
    · have hno : ¬ ∃ r ∈ self.regions, r.Contains dest.toNat word := by
        rintro ⟨r, hr, -, hend⟩
        have := hrange r hr
        omega
      simp only [hno, iff_false, hlow, forall_const, not_exists, not_and]
      apply forall₂_congr
      intro r hr
      have htest := wordTest_wrapped_iff dest (hrange r hr) hlow
      rw [← not_and, htest, not_and, Nat.not_le]
    · simp only [hlow, false_implies, iff_true]
      apply exists_congr
      intro r
      exact and_congr_right fun hr => wordTest_iff dest (hrange r hr) (Nat.lt_of_not_le hlow)

theorem mstore8_exact (hrange : self.RegionsInRange) (rest : List U256) (value : U256) :
    self.handleMstore8 (rest ++ [value, dest]) ≠ [] ↔
      ∃ r ∈ self.regions, r.Contains dest.toNat 1 := by
  rw [handleMstore8_ne_nil_iff]
  apply exists_congr
  intro r
  exact and_congr_right fun hr => byteTest_iff dest (hrange r hr)

/-- A field past the limit is read at a wrapped offset if the wrapped end is in the region. -/
theorem field_exact_iff (hrange : self.RegionsInRange) :
    (∀ memory v, self.getFieldValue name fieldOffset.toNat memory = some v →
      ∃ r, self.region name = some r ∧ r.Contains (r.baseOffset + fieldOffset.toNat) word ∧
        readWord memory (r.baseOffset + fieldOffset.toNat) = some v) ↔
    (2 ^ 64 ≤ fieldOffset.toNat + word → ∀ r, self.region name = some r →
      r.sizeInBytes + 2 ^ 64 < fieldOffset.toNat + word) := by
  have hword : word = 32 := rfl
  have hf : fieldOffset.toNat < 2 ^ 64 := fieldOffset.toNat_lt
  cases hr : self.region name with
  | none => simp [getFieldValue, hr]
  | some r =>
      have hfits := hrange r (region_mem name hr)
      by_cases hlow : 2 ^ 64 ≤ fieldOffset.toNat + word
      · have hend := addU64_of_le hf (by omega) hlow
        constructor
        · intro h _ r' hr'
          obtain rfl := Option.some.inj hr'
          by_contra hle
          -- a snapshot of one byte is enough for a word to be read
          have hread : ∃ v, readWord [0] (addU64 r.baseOffset fieldOffset.toNat) = some v := by
            unfold readWord
            split
            · contradiction
            · split <;> exact ⟨_, rfl⟩
          obtain ⟨v, hv⟩ := hread
          have hvalue : self.getFieldValue name fieldOffset.toNat [0] = some v := by
            have htest : ¬ r.sizeInBytes < addU64 fieldOffset.toNat word := by omega
            simp [getFieldValue, hr, htest, hv]
          obtain ⟨r', hr', ⟨-, hin⟩, -⟩ := h [0] v hvalue
          obtain rfl := Option.some.inj hr'
          omega
        · intro h memory v hv
          have htest : r.sizeInBytes < addU64 fieldOffset.toNat word := by
            have := h hlow r rfl
            omega
          simp [getFieldValue, hr, htest] at hv
      · have hend := addU64_of_lt (Nat.lt_of_not_le hlow)
        simp only [hlow, false_implies, iff_true]
        intro memory v hv
        simp only [getFieldValue, hr, hend, Option.bind_eq_bind, Option.bind_some] at hv
        split at hv
        · contradiction
        · rename_i hsize
          have hstart : addU64 r.baseOffset fieldOffset.toNat = r.baseOffset + fieldOffset.toNat :=
            addU64_of_lt (by omega)
          rw [hstart] at hv
          exact ⟨r, rfl, ⟨by omega, by omega⟩, hv⟩

end

/-- After every run, for every destination and field offset, the bounds are exact exactly
away from the limits. -/
theorem bounds_exact_iff (steps : List MemStep) (dest : U256) (name : String)
    (fieldOffset : UInt64) :
    (trackerBefore steps steps.length).BoundsExact dest name fieldOffset ↔
      (trackerBefore steps steps.length).AwayFromLimits dest name fieldOffset := by
  have hrange := regionsInRange_trackerBefore steps steps.length le_rfl
  constructor
  · rintro ⟨hmstore, -, hfield⟩
    obtain ⟨hpointer, hwrap⟩ := (mstore_exact_iff dest hrange).mp hmstore
    exact ⟨hpointer, hwrap, (field_exact_iff name fieldOffset hrange).mp hfield⟩
  · rintro ⟨hpointer, hwrap, hfield⟩
    exact ⟨(mstore_exact_iff dest hrange).mpr ⟨hpointer, hwrap⟩, mstore8_exact dest hrange,
      (field_exact_iff name fieldOffset hrange).mpr hfield⟩

/-- With one region, a store to the last word of the range is reported. -/
theorem store_at_limit_reported :
    ((trackerBefore spacedOut 1).handleMstore none [] [1, BitVec.ofNat 256 (2 ^ 64 - 32)] 0xC0).2 =
        [⟨"a", 2 ^ 64 - 32, 32⟩] ∧
      ¬ (trackerBefore spacedOut 1).BoundsExact (BitVec.ofNat 256 (2 ^ 64 - 32)) "a" 0 := by
  have hreport : ((trackerBefore spacedOut 1).handleMstore none []
      [1, BitVec.ofNat 256 (2 ^ 64 - 32)] 0xC0).2 = [⟨"a", 2 ^ 64 - 32, 32⟩] := by
    decide +kernel
  refine ⟨hreport, ?_⟩
  rintro ⟨hmstore, -, -⟩
  have hin := (hmstore none [] [] 1 0xC0).mp (by
    rw [List.nil_append, hreport]
    exact List.cons_ne_nil _ _)
  revert hin
  have hregions : (trackerBefore spacedOut 1).regions =
      [⟨"a", "struct S memory", 0x80, 0x40⟩] := by
    decide +kernel
  rw [hregions]
  simp [MemRegion.Contains, word]

end MemoryTracker

end EvmRecorder
