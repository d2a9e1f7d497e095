import EvmRecorder.Model.StorageLayout

/-!
# What the layout lookups find
-/

namespace EvmRecorder

open Numeral

/-! ## §1  Members of structs -/

/-- `m` is a member of the in-place struct `e` and starts in `slot`. -/
structure MemberAt (layout : StorageLayout) (e m : StorageEntry) (slot : Nat) : Prop where
  mem : e ∈ layout.storage
  inplace : ∃ ti members, layout.typeInfo e = some ti ∧ ti.encoding = "inplace" ∧
    ti.members = some members ∧ m ∈ members
  slot_eq : ∃ base o, parseU64 e.slot = some base ∧ parseU64 m.slot = some o ∧
    saturatingAddU64 base o = slot

section Members

variable {layout : StorageLayout} {slot : Nat}

theorem structMemberAt_spec {names : String × String}
    (h : layout.structMemberAt slot = some names) :
    ∃ e m, MemberAt layout e m slot ∧ names = (e.label, m.label) := by
  obtain ⟨e, he, h⟩ := List.exists_of_findSome?_eq_some h
  simp only [Option.bind_eq_bind, Option.bind_eq_some_iff] at h
  obtain ⟨base, hbase, ti, hti, h⟩ := h
  split at h
  · cases h
  · next hencoding =>
      obtain ⟨members, hmembers, h⟩ := Option.bind_eq_some_iff.mp h
      obtain ⟨m, hm, h⟩ := List.exists_of_findSome?_eq_some h
      obtain ⟨o, ho, h⟩ := Option.bind_eq_some_iff.mp h
      split at h
      · next hslot =>
          exact ⟨e, m, ⟨he, ⟨ti, members, hti, not_not.mp hencoding, hmembers, hm⟩,
            base, o, hbase, ho, hslot⟩, (Option.some.inj h).symm⟩
      · cases h

theorem MemberAt.structMemberAt_isSome {e m : StorageEntry} (h : MemberAt layout e m slot) :
    (layout.structMemberAt slot).isSome := by
  obtain ⟨ti, members, hti, hencoding, hmembers, hm⟩ := h.inplace
  obtain ⟨base, o, hbase, ho, hslot⟩ := h.slot_eq
  have hfound : (members.findSome? fun member => do
      let memberOffset ← parseU64 member.slot
      if saturatingAddU64 base memberOffset = slot then some (e.label, member.label)
      else none).isSome := by
    rw [List.findSome?_isSome_iff]
    refine ⟨m, hm, ?_⟩
    simp [ho, hslot]
  unfold StorageLayout.structMemberAt
  rw [List.findSome?_isSome_iff]
  refine ⟨e, h.mem, ?_⟩
  simp only [hbase, hti, hencoding, hmembers, Option.bind_eq_bind, Option.bind_some]
  exact hfound

theorem MemberAt.slot_lt {e m : StorageEntry} (h : MemberAt layout e m slot) : slot < 2 ^ 64 := by
  obtain ⟨base, o, -, -, hslot⟩ := h.slot_eq
  rw [← hslot, saturatingAddU64]
  omega

end Members

/-! ## §2  Arrays -/

/-- `e` is an array in place whose slots, from `base` on, include `slot`. -/
structure ArrayAt (layout : StorageLayout) (e : StorageEntry) (base slot : Nat) : Prop where
  mem : e ∈ layout.storage
  starts : parseU64 e.slot = some base
  le : base ≤ slot
  below : slot + 1 < 2 ^ 64
  info : ∃ ti total, layout.typeInfo e = some ti ∧ ti.encoding = "inplace" ∧ ti.base.isSome ∧
    parseU64 ti.numberOfBytes = some total ∧ slot < base + slotCountOf total

theorem arrayElementAt_spec {layout : StorageLayout} {slot i : Nat} {label : String}
    (h : layout.arrayElementAt slot = some (label, i)) :
    ∃ e base, ArrayAt layout e base slot ∧ label = e.label ∧ i = slot - base := by
  obtain ⟨e, he, h⟩ := List.exists_of_findSome?_eq_some h
  simp only [Option.bind_eq_bind, Option.bind_eq_some_iff] at h
  obtain ⟨base, hbase, ti, hti, h⟩ := h
  split at h
  · contradiction
  · rename_i hencoding
    obtain ⟨elem, helem, h⟩ := Option.bind_eq_some_iff.mp h
    obtain ⟨total, htotal, h⟩ := Option.bind_eq_some_iff.mp h
    split at h
    · rename_i hrange
      obtain ⟨rfl, rfl⟩ := Prod.mk.inj (Option.some.inj h)
      have hbelow : slot + 1 < 2 ^ 64 :=
        Nat.lt_of_le_of_lt hrange.2 (Nat.mod_lt _ (by decide))
      refine ⟨e, base, ⟨he, hbase, hrange.1, hbelow, ti, total, hti, not_not.mp hencoding, ?_, htotal,
        ?_⟩, rfl, rfl⟩
      · rw [helem]
        rfl
      · exact hrange.2.trans_le (Nat.mod_le _ _)
    · contradiction

/-! ## §3  Arrays and structs of several slots -/

/-- `e` is an array or struct in place of `count` slots from `base` on, more than one, of
which `slot` is one. -/
structure CompoundAt (layout : StorageLayout) (e : StorageEntry) (ti : StorageTypeInfo)
    (base count slot : Nat) : Prop where
  mem : e ∈ layout.storage
  starts : parseU64 e.slot = some base
  info : layout.typeInfo e = some ti
  inplace : ti.encoding = "inplace"
  compound : ti.members.isSome ∨ ti.base.isSome
  bytes : ∃ total, parseU64 ti.numberOfBytes = some total ∧ count = slotCountOf total
  more : 1 < count
  le : base ≤ slot
  lt : slot < base + count
  fits : base + count < 2 ^ 64

theorem isCompound_iff {ti : StorageTypeInfo} :
    ¬ (ti.members.isNone && ti.base.isNone) = true ↔ ti.members.isSome ∨ ti.base.isSome := by
  rw [Bool.and_eq_true, not_and_or]
  simp [Option.isSome_iff_ne_none]

theorem compoundAt_of_containingCompound {layout : StorageLayout} {slot count : Nat}
    {e : StorageEntry} {ti : StorageTypeInfo}
    (h : layout.containingCompound slot = some (e, ti, count)) :
    ∃ base, CompoundAt layout e ti base count slot := by
  obtain ⟨entry, hentry, hfound⟩ := List.exists_of_findSome?_eq_some h
  simp only [Option.bind_eq_bind, Option.bind_eq_some_iff] at hfound
  obtain ⟨base, hbase, ti', hti, bytes, hbytes, hrest⟩ := hfound
  have hbaselt := (parseUnsigned_eq_some_iff.mp hbase).2
  have hbyteslt := (parseUnsigned_eq_some_iff.mp hbytes).2
  split at hrest
  · cases hrest
  · rename_i hcount
    split at hrest
    · cases hrest
    · rename_i hencoding
      split at hrest
      · cases hrest
      · rename_i hcompound
        split at hrest
        · rename_i hrange
          cases hrest
          -- a wrapped end is below the base, and no slot is in the range
          have hwrap : base + slotCountOf bytes < 2 ^ 64 := by
            have hlt := hrange.1.trans_lt hrange.2
            simp only [wrappingAddU64, slotCountOf] at hlt ⊢
            omega
          rw [wrappingAddU64_of_lt hwrap] at hrange
          exact ⟨base, hentry, hbase, hti, not_not.mp hencoding, isCompound_iff.mp hcompound,
            ⟨bytes, hbytes, rfl⟩, Nat.lt_of_not_le hcount, hrange.1, hrange.2, hwrap⟩
        · cases hrest

end EvmRecorder
