import EvmRecorder.Library.StorageTypes
import EvmRecorder.StorageLayout.Lookups

/-!
# Elements of fixed-size arrays

The type table of a layout, read against Solidity's types: the table gives every type its
size, arrays their element type, structs the places of their members. The recorder takes
the slot's distance from an array's base for the element's index.
-/

namespace EvmRecorder

open Numeral StorageType

/-! ## §1  Type tables -/

mutual
/-- The table describes the type under `id`. Types that are not kept in place (mappings,
dynamically-sized arrays) have a word in place, as a value. -/
def Describes (types : List (String × StorageTypeInfo)) : StorageType → String → Prop
  | .value bytes, id => ∃ ti, types.lookup id = some ti ∧ ti.numberOfBytes = Nat.repr bytes ∧
      (ti.encoding = "inplace" → ti.base = none ∧ ti.members = none)
  | .array elem length, id => ∃ ti base, types.lookup id = some ti ∧
      ti.numberOfBytes = Nat.repr (array elem length).numberOfBytes ∧
      ti.encoding = "inplace" ∧ ti.base = some base ∧ ti.members = none ∧
      Describes types elem base
  | .struct members, id => ∃ ti entries, types.lookup id = some ti ∧
      ti.numberOfBytes = Nat.repr (struct members).numberOfBytes ∧
      ti.encoding = "inplace" ∧ ti.base = none ∧ ti.members = some entries ∧
      DescribesMembers types ⟨0, 0⟩ members entries

/-- The entries of the members that come next at `start`. -/
def DescribesMembers (types : List (String × StorageTypeInfo)) (start : Position) :
    List StorageType → List StorageEntry → Prop
  | [], entries => entries = []
  | t :: rest, entries => ∃ e entries', entries = e :: entries' ∧
      e.slot = Nat.repr (t.placeAt start).slot ∧ e.offset = (t.placeAt start).offset ∧
      Describes types t e.typeName ∧ DescribesMembers types (t.placeAfter start) rest entries'
end

/-- Every variable has a type of Solidity. -/
def StorageLayout.Typed (layout : StorageLayout) : Prop :=
  ∀ e ∈ layout.storage, ∃ t : StorageType, t.WellFormed ∧ Describes layout.types t e.typeName

section

variable {types : List (String × StorageTypeInfo)} {t : StorageType} {id : String}
  {ti : StorageTypeInfo}

/-- The size that the table gives to a type. -/
theorem numberOfBytes_of_describes (h : Describes types t id) (hti : types.lookup id = some ti) :
    ti.numberOfBytes = Nat.repr t.numberOfBytes := by
  cases t with
  | value bytes =>
      obtain ⟨ti', hti', hbytes, -⟩ := h
      obtain rfl := Option.some.inj (hti'.symm.trans hti)
      rw [hbytes, StorageType.numberOfBytes, storageBytes, storageSize, Nat.mul_one]
  | array elem length =>
      obtain ⟨ti', base, hti', hbytes, -⟩ := h
      obtain rfl := Option.some.inj (hti'.symm.trans hti)
      exact hbytes
  | struct members =>
      obtain ⟨ti', entries, hti', hbytes, -⟩ := h
      obtain rfl := Option.some.inj (hti'.symm.trans hti)
      exact hbytes

theorem slotCountOf_of_describes (h : Describes types t id) (ht : t.WellFormed)
    (hti : types.lookup id = some ti) {total : Nat}
    (htotal : parseU64 ti.numberOfBytes = some total) : slotCountOf total = t.storageSize := by
  rw [numberOfBytes_of_describes h hti] at htotal
  obtain ⟨rfl, -⟩ := parseU64_repr_eq_some_iff.mp htotal
  exact ceil_numberOfBytes ht

/-- Only arrays have an element type and are kept in place. -/
theorem array_of_describes (h : Describes types t id) (hti : types.lookup id = some ti)
    (hinplace : ti.encoding = "inplace") (hbase : ti.base.isSome) :
    ∃ elem length, t = array elem length := by
  cases t with
  | value bytes =>
      obtain ⟨ti', hti', -, hnone⟩ := h
      obtain rfl := Option.some.inj (hti'.symm.trans hti)
      rw [(hnone hinplace).1] at hbase
      contradiction
  | array elem length => exact ⟨elem, length, rfl⟩
  | struct members =>
      obtain ⟨ti', entries, hti', -, -, hnone, -⟩ := h
      obtain rfl := Option.some.inj (hti'.symm.trans hti)
      rw [hnone] at hbase
      contradiction

end

/-! ## §2  The array that is found -/

/-- The element that is found for a slot is the one that has the slot exactly when it is the
first, or when the elements of the array take a slot each. -/
theorem arrayElementAt_inElement_iff {layout : StorageLayout} (hlayout : layout.Typed)
    {slot i : Nat} {label : String} (h : layout.arrayElementAt slot = some (label, i)) :
    ∃ e base elem length, e ∈ layout.storage ∧ e.label = label ∧ parseU64 e.slot = some base ∧
      Describes layout.types (array elem length) e.typeName ∧
      base ≤ slot ∧ slot < base + (array elem length).storageSize ∧
      ((i < length ∧ elem.InElement i (slot - base)) ↔
        slot = base ∨ elem.perSlot = 1 ∧ elem.storageSize = 1) := by
  obtain ⟨e, base, harray, rfl, rfl⟩ := arrayElementAt_spec h
  obtain ⟨ti, total, hti, hinplace, hbase, htotal, hlt⟩ := harray.info
  obtain ⟨t, ht, hdescribes⟩ := hlayout e harray.mem
  obtain ⟨elem, length, rfl⟩ := array_of_describes hdescribes hti hinplace hbase
  rw [slotCountOf_of_describes hdescribes ht hti htotal] at hlt
  rw [WellFormed] at ht
  have hle := harray.le
  refine ⟨e, base, elem, length, harray.mem, rfl, harray.starts, hdescribes, hle, hlt, ?_⟩
  rw [inElement_self_iff ht.1 ht.2 (by omega)]
  have hzero : slot - base = 0 ↔ slot = base := by omega
  rw [hzero]

/-! ### Packed elements, elements of two slots, and words -/

def uint8Type : StorageTypeInfo where
  encoding := "inplace"
  label := "uint8"
  numberOfBytes := "1"

def uint256Type : StorageTypeInfo where
  encoding := "inplace"
  label := "uint256"
  numberOfBytes := "32"

/-- `uint8[64] a; S[2] s; uint256[3] w;` where `S` has two words. -/
def arraysLayout : StorageLayout where
  storage := [⟨"a", "0", 0, "uint8[64]"⟩, ⟨"s", "2", 0, "S[2]"⟩, ⟨"w", "6", 0, "uint256[3]"⟩]
  types := [("uint8", uint8Type), ("uint256", uint256Type),
    ("S", { encoding := "inplace", label := "struct S", numberOfBytes := "64",
            members := some [⟨"x", "0", 0, "uint256"⟩, ⟨"y", "1", 0, "uint256"⟩] }),
    ("uint8[64]",
      { encoding := "inplace", label := "uint8[64]", numberOfBytes := "64", base := some "uint8" }),
    ("S[2]",
      { encoding := "inplace", label := "struct S[2]", numberOfBytes := "128", base := some "S" }),
    ("uint256[3]",
      { encoding := "inplace", label := "uint256[3]", numberOfBytes := "96",
        base := some "uint256" })]

def pairType : StorageType := .struct [.value 32, .value 32]

theorem arraysLayout_types : Describes arraysLayout.types (.array (.value 1) 64) "uint8[64]" ∧
    Describes arraysLayout.types (.array pairType 2) "S[2]" ∧
    Describes arraysLayout.types (.array (.value 32) 3) "uint256[3]" := by
  have hbyte : Describes arraysLayout.types (.value 1) "uint8" :=
    ⟨_, rfl, by decide, fun _ => ⟨rfl, rfl⟩⟩
  have hword : Describes arraysLayout.types (.value 32) "uint256" :=
    ⟨_, rfl, by decide, fun _ => ⟨rfl, rfl⟩⟩
  have hpair : Describes arraysLayout.types pairType "S" :=
    ⟨_, _, rfl, by decide, rfl, rfl, rfl, _, _, rfl, by decide, by decide, hword,
      _, _, rfl, by decide, by decide, hword, rfl⟩
  exact ⟨⟨_, _, rfl, by decide, rfl, rfl, rfl, hbyte⟩, ⟨_, _, rfl, by decide, rfl, rfl, rfl, hpair⟩,
    ⟨_, _, rfl, by decide, rfl, rfl, rfl, hword⟩⟩

theorem arraysLayout_typed : arraysLayout.Typed := by
  obtain ⟨hbytes, hpairs, hwords⟩ := arraysLayout_types
  intro e he
  simp only [arraysLayout, List.mem_cons, List.not_mem_nil, or_false] at he
  rcases he with rfl | rfl | rfl
  · exact ⟨_, by simp [WellFormed], hbytes⟩
  · exact ⟨_, by simp [WellFormed, AllWellFormed, pairType], hpairs⟩
  · exact ⟨_, by simp [WellFormed], hwords⟩

/-- Slot 1 has elements 32 to 63 of `a`, not element 1; and `s` has no element 3. -/
theorem arraysLayout_wrong_index : arraysLayout.Typed ∧
    arraysLayout.arrayElementAt 1 = some ("a", 1) ∧ ¬ (StorageType.value 1).InElement 1 1 ∧
    arraysLayout.arrayElementAt 5 = some ("s", 3) ∧ ¬ pairType.InElement 3 (5 - 2) := by
  refine ⟨arraysLayout_typed, by decide, ?_, by decide, ?_⟩
  · simp [InElement, elementStart, storageBytes, perSlot, storageSize]
  · simp [InElement, elementStart, storageBytes, pairType, storageSize, endPosition, Position.fit,
      Position.skip, Position.usedSlots]

/-- What is found for the second slot of `w`. -/
theorem arraysLayout_element : ∃ e base elem length, e ∈ arraysLayout.storage ∧ e.label = "w" ∧
    parseU64 e.slot = some base ∧
    Describes arraysLayout.types (array elem length) e.typeName ∧
    base ≤ 7 ∧ 7 < base + (array elem length).storageSize ∧
    ((1 < length ∧ elem.InElement 1 (7 - base)) ↔
      7 = base ∨ elem.perSlot = 1 ∧ elem.storageSize = 1) :=
  arrayElementAt_inElement_iff arraysLayout_typed (by decide : arraysLayout.arrayElementAt 7 = some ("w", 1))

end EvmRecorder
