import EvmRecorder.Library.Numeral

/-!
# Storage layouts

solc's storage layout and the lookups the recorder makes in it. Slots are
decimal strings; each lookup parses them to `u64` on its own.
-/

namespace EvmRecorder

open Numeral

structure StorageEntry where
  label : String
  slot : String
  offset : Nat
  typeName : String
deriving DecidableEq, Repr

structure StorageTypeInfo where
  encoding : String
  label : String
  numberOfBytes : String
  key : Option String := none
  base : Option String := none
  members : Option (List StorageEntry) := none
deriving DecidableEq, Repr

/-- `types` is the map from type identifiers to their metadata. -/
structure StorageLayout where
  storage : List StorageEntry
  types : List (String × StorageTypeInfo)
deriving DecidableEq, Repr

def parseU64 (s : String) : Option Nat := parseUnsigned (2 ^ 64) s.toList

theorem parseU64_repr (n : Nat) : parseU64 (Nat.repr n) = if n < 2 ^ 64 then some n else none := by
  have hdigits : (Nat.repr n).toList = printNat n := by
    rw [Nat.toList_repr]
    rfl
  rw [parseU64, hdigits]
  split
  · next hn => exact parseUnsigned_printNat hn
  · next hn =>
      rw [Option.eq_none_iff_forall_ne_some]
      intro m hm
      obtain ⟨hparse, hlt⟩ := parseUnsigned_eq_some_iff.mp hm
      rw [if_neg (head?_printNat_ne n (by decide)), parseNat_printNat, Option.some.injEq] at hparse
      exact hn (hparse ▸ hlt)

theorem parseU64_repr_eq_some_iff {n m : Nat} :
    parseU64 (Nat.repr n) = some m ↔ n = m ∧ n < 2 ^ 64 := by
  rw [parseU64_repr, Option.ite_none_right_eq_some, Option.some.injEq, and_comm]

/-- `u64` addition in a release build. -/
def wrappingAddU64 (a b : Nat) : Nat := (a + b) % 2 ^ 64

theorem wrappingAddU64_of_lt {a b : Nat} (h : a + b < 2 ^ 64) : wrappingAddU64 a b = a + b :=
  Nat.mod_eq_of_lt h

theorem wrappingAddU64_le (a b : Nat) : wrappingAddU64 a b ≤ a + b := Nat.mod_le _ _

def saturatingAddU64 (a b : Nat) : Nat := min (a + b) (2 ^ 64 - 1)

/-- `total_bytes.div_ceil(32)`. -/
def slotCountOf (totalBytes : Nat) : Nat := (totalBytes + 31) / 32

namespace StorageLayout

/-- The first entry whose slot string is `slot`. -/
def resolveSlot (self : StorageLayout) (slot : String) : Option StorageEntry :=
  self.storage.find? (·.slot = slot)

def typeInfo (self : StorageLayout) (entry : StorageEntry) : Option StorageTypeInfo :=
  self.types.lookup entry.typeName

/-- Parent and member label of the struct member at `slot`. -/
def structMemberAt (self : StorageLayout) (slot : Nat) : Option (String × String) :=
  self.storage.findSome? fun entry => do
    let baseSlot ← parseU64 entry.slot
    let ti ← self.typeInfo entry
    if ti.encoding ≠ "inplace" then none
    else
      let members ← ti.members
      members.findSome? fun member => do
        let memberOffset ← parseU64 member.slot
        if saturatingAddU64 baseSlot memberOffset = slot then some (entry.label, member.label)
        else none

/-- Label and position of the element of a fixed-size array at `slot`. -/
def arrayElementAt (self : StorageLayout) (slot : Nat) : Option (String × Nat) :=
  self.storage.findSome? fun entry => do
    let baseSlot ← parseU64 entry.slot
    let ti ← self.typeInfo entry
    if ti.encoding ≠ "inplace" then none
    else
      let _ ← ti.base
      let totalBytes ← parseU64 ti.numberOfBytes
      if baseSlot ≤ slot ∧ slot < wrappingAddU64 baseSlot (slotCountOf totalBytes) then
        some (entry.label, slot - baseSlot)
      else none

/-- Label and key type label of the mapping declared at `baseSlot`. -/
def mappingAtBase (self : StorageLayout) (baseSlot : Nat) : Option (String × String) :=
  self.storage.findSome? fun entry => do
    let entrySlot ← parseU64 entry.slot
    if entrySlot ≠ baseSlot then none
    else
      let ti ← self.typeInfo entry
      if ti.encoding ≠ "mapping" then none
      else
        let keyTypeId ← ti.key
        some (entry.label, ((self.types.lookup keyTypeId).map (·.label)).getD "uint256")

/-- The array or struct of more than one slot whose slot range covers `slot`. -/
def containingCompound (self : StorageLayout) (slot : Nat) :
    Option (StorageEntry × StorageTypeInfo × Nat) :=
  self.storage.findSome? fun entry => do
    let baseSlot ← parseU64 entry.slot
    let ti ← self.typeInfo entry
    let totalBytes ← parseU64 ti.numberOfBytes
    let slotCount := slotCountOf totalBytes
    if slotCount ≤ 1 then none
    else if ti.encoding ≠ "inplace" then none
    else if ti.members.isNone && ti.base.isNone then none
    else if baseSlot ≤ slot ∧ slot < wrappingAddU64 baseSlot slotCount then
      some (entry, ti, slotCount)
    else none

end StorageLayout

end EvmRecorder
