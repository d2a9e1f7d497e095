import Mathlib.Tactic

/-!
# Types in storage

How Solidity lays out types in slots of 32 bytes. Values are packed into a slot while
they fit; arrays and structs start a slot and end with one, and so does each of their
elements that does not share a slot with others.
-/

namespace EvmRecorder

/-- `value` is a type of at most a word that is kept in place; the heads of mappings and
of dynamically-sized arrays are words. -/
inductive StorageType where
  | value (bytes : Nat)
  | array (elem : StorageType) (length : Nat)
  | struct (members : List StorageType)

/-- A byte of storage, relative to a slot. -/
structure Position where
  slot : Nat
  offset : Nat
deriving DecidableEq, Repr

namespace Position

/-- Where something of this many bytes starts, in the slot or in the next one. -/
def fit (bytes : Nat) (self : Position) : Position :=
  if 32 < self.offset + bytes then ⟨self.slot + 1, 0⟩ else self

/-- Behind something that starts here. -/
def skip (bytes size : Nat) (self : Position) : Position :=
  if size = 1 ∧ self.offset + bytes ≤ 32 then ⟨self.slot, self.offset + bytes⟩
  else ⟨self.slot + size, 0⟩

/-- The slots that are in use before this position. -/
def usedSlots (self : Position) : Nat := if 0 < self.offset then self.slot + 1 else self.slot

end Position

namespace StorageType

/-! ## §1  Sizes -/

/-- Bytes of the type in its slot; arrays and structs fill whole slots. -/
def storageBytes : StorageType → Nat
  | value bytes => bytes
  | _ => 32

/-- How many elements share a slot. -/
def perSlot (elem : StorageType) : Nat := 32 / elem.storageBytes

mutual
/-- The slots a type takes. -/
def storageSize : StorageType → Nat
  | value _ => 1
  | array elem length =>
      max 1 (if elem.storageBytes < 32 then (length + elem.perSlot - 1) / elem.perSlot
        else length * elem.storageSize)
  | struct members => max 1 (endPosition ⟨0, 0⟩ members).usedSlots

/-- Behind the members of a struct of which the first is placed from `start` on. -/
def endPosition (start : Position) : List StorageType → Position
  | [] => start
  | t :: rest =>
      endPosition ((start.fit t.storageBytes).skip t.storageBytes t.storageSize) rest
end

/-- Bytes of the slots or the part of a slot that a type takes. -/
def numberOfBytes (self : StorageType) : Nat := self.storageBytes * self.storageSize

mutual
/-- Values have a size of 1 to 32 bytes; arrays and structs are not empty. -/
def WellFormed : StorageType → Prop
  | value bytes => 1 ≤ bytes ∧ bytes ≤ 32
  | array elem length => elem.WellFormed ∧ 1 ≤ length
  | struct members => members ≠ [] ∧ AllWellFormed members

def AllWellFormed : List StorageType → Prop
  | [] => True
  | t :: rest => t.WellFormed ∧ AllWellFormed rest
end

theorem WellFormed.storageBytes_pos {self : StorageType} (h : self.WellFormed) :
    1 ≤ self.storageBytes ∧ self.storageBytes ≤ 32 := by
  cases self with
  | value bytes => simpa [WellFormed, storageBytes] using h
  | array elem length => simp [storageBytes]
  | struct members => simp [storageBytes]

theorem storageSize_pos (self : StorageType) : 1 ≤ self.storageSize := by
  cases self with
  | value bytes => simp [storageSize]
  | array elem length => simp [storageSize]
  | struct members => simp [storageSize]

/-- Only values share a slot with others. -/
theorem storageSize_of_storageBytes_lt {self : StorageType} (h : self.storageBytes < 32) :
    self.storageSize = 1 := by
  cases self with
  | value bytes => simp [storageSize]
  | array elem length => simp [storageBytes] at h
  | struct members => simp [storageBytes] at h

theorem perSlot_pos {elem : StorageType} (h : elem.WellFormed) : 1 ≤ elem.perSlot := by
  obtain ⟨hpos, hle⟩ := h.storageBytes_pos
  exact (Nat.le_div_iff_mul_le hpos).mpr (by omega)

/-- The size in slots is the size in bytes, rounded up. -/
theorem ceil_numberOfBytes {self : StorageType} (h : self.WellFormed) :
    (self.numberOfBytes + 31) / 32 = self.storageSize := by
  obtain ⟨hpos, hle⟩ := h.storageBytes_pos
  rw [numberOfBytes]
  rcases Nat.lt_or_eq_of_le hle with hlt | heq
  · rw [storageSize_of_storageBytes_lt hlt]
    omega
  · rw [heq]
    omega

/-! ## §2  Elements of an array -/

/-- The slot, relative to the array, in which element `i` starts. -/
def elementStart (elem : StorageType) (i : Nat) : Nat :=
  if elem.storageBytes < 32 then i / elem.perSlot else i * elem.storageSize

/-- The slot is one of those of element `i`. -/
def InElement (elem : StorageType) (i slot : Nat) : Prop :=
  elem.elementStart i ≤ slot ∧ slot < elem.elementStart i + elem.storageSize

section Elements

variable {elem : StorageType} {length : Nat}

/-- Slot `d` of an array is in element `d` only for the first slot, or where the elements
take a slot each. -/
theorem inElement_self_iff {d : Nat} (h : elem.WellFormed) (hlength : 1 ≤ length)
    (hd : d < (array elem length).storageSize) :
    (d < length ∧ elem.InElement d d) ↔ d = 0 ∨ elem.perSlot = 1 ∧ elem.storageSize = 1 := by
  have hper := perSlot_pos h
  have hsize := elem.storageSize_pos
  obtain ⟨hbpos, hble⟩ := h.storageBytes_pos
  rw [storageSize, lt_max_iff] at hd
  rw [InElement, elementStart]
  by_cases hbytes : elem.storageBytes < 32
  · have hone := storageSize_of_storageBytes_lt hbytes
    simp only [if_pos hbytes, hone, and_true] at hd ⊢
    constructor
    · rintro ⟨-, -, hlt⟩
      rcases Nat.eq_zero_or_pos d with hzero | hpos
      · exact .inl hzero
      · right
        by_contra hne
        have hdiv := Nat.div_lt_self hpos (show 1 < elem.perSlot by omega)
        omega
    · rintro (rfl | heq)
      · simp
        omega
      · rw [heq] at hd ⊢
        simp only [Nat.div_one, Nat.add_sub_cancel] at hd ⊢
        omega
  · have hthirtytwo : elem.storageBytes = 32 := by omega
    have hperone : elem.perSlot = 1 := by
      rw [perSlot, hthirtytwo]
    simp only [if_neg hbytes, hperone, true_and] at hd ⊢
    constructor
    · rintro ⟨-, hle, -⟩
      rcases Nat.eq_zero_or_pos d with hzero | hpos
      · exact .inl hzero
      · right
        have := Nat.le_of_mul_le_mul_left (hle.trans_eq (Nat.mul_one d).symm) hpos
        omega
    · rintro (rfl | heq)
      · simp
        omega
      · rw [heq] at hd ⊢
        omega

end Elements

/-! ## §3  Members of a struct -/

/-- Where a member is placed that comes next at `start`. -/
def placeAt (start : Position) (self : StorageType) : Position := start.fit self.storageBytes

/-- Where the member after it comes next. -/
def placeAfter (start : Position) (self : StorageType) : Position :=
  (self.placeAt start).skip self.storageBytes self.storageSize

theorem endPosition_cons (start : Position) (t : StorageType) (rest : List StorageType) :
    endPosition start (t :: rest) = endPosition (t.placeAfter start) rest := by
  rw [endPosition]
  rfl

/-- The first member is placed at the start of the struct. -/
theorem placeAt_zero {self : StorageType} (h : self.WellFormed) :
    self.placeAt ⟨0, 0⟩ = ⟨0, 0⟩ := by
  obtain ⟨-, hle⟩ := h.storageBytes_pos
  have hfits : ¬ 32 < 0 + self.storageBytes := by omega
  exact if_neg hfits

/-- Behind a member the slots up to its last one are in use. -/
theorem usedSlots_placeAfter {self : StorageType} (h : self.WellFormed) (start : Position) :
    (self.placeAfter start).usedSlots = (self.placeAt start).slot + self.storageSize := by
  obtain ⟨hpos, -⟩ := h.storageBytes_pos
  rw [placeAfter, Position.skip]
  split
  · rename_i hfits
    have hused : 0 < (self.placeAt start).offset + self.storageBytes := by omega
    rw [hfits.1]
    exact if_pos hused
  · rw [Position.usedSlots, if_neg (Nat.lt_irrefl 0)]

theorem usedSlots_le_placeAfter {self : StorageType} (h : self.WellFormed) (start : Position) :
    start.usedSlots ≤ (self.placeAfter start).usedSlots := by
  have hsize := self.storageSize_pos
  have hslot : start.slot ≤ (self.placeAt start).slot := by
    rw [placeAt, Position.fit]
    split
    · exact Nat.le_succ _
    · exact le_rfl
  rw [usedSlots_placeAfter h, Position.usedSlots]
  split
  · omega
  · omega

theorem usedSlots_le_endPosition : ∀ {members : List StorageType} {start : Position},
    AllWellFormed members → start.usedSlots ≤ (endPosition start members).usedSlots
  | [], start, _ => by
      rw [endPosition]
  | t :: rest, start, h => by
      rw [AllWellFormed] at h
      rw [endPosition_cons]
      exact (usedSlots_le_placeAfter h.1 start).trans (usedSlots_le_endPosition h.2)

/-- The first of the members is inside the struct. -/
theorem placeAt_add_le {t : StorageType} {rest : List StorageType} {start : Position}
    (h : AllWellFormed (t :: rest)) :
    (t.placeAt start).slot + t.storageSize ≤ (endPosition start (t :: rest)).usedSlots := by
  rw [AllWellFormed] at h
  rw [endPosition_cons, ← usedSlots_placeAfter h.1 start]
  exact usedSlots_le_endPosition h.2

end StorageType

end EvmRecorder
