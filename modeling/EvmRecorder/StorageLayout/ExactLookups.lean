import EvmRecorder.Model.StructLog
import EvmRecorder.StorageLayout.Lookups

/-!
# Lookups over the integers

The lookups parse slots and sizes to `u64` and add in `u64`, one saturating, the others
wrapping. Storage has 2^256 slots. The same lookups over the integers find the same as long
as no variable reaches the end of `u64`.
-/

namespace EvmRecorder

open Bytes Numeral

/-! ## §1  256-bit numbers -/

def parseU256 (s : String) : Option Nat := parseUnsigned (2 ^ 256) s.toList

theorem parseU64_eq_some_iff {s : String} {n : Nat} :
    parseU64 s = some n ↔ parseU256 s = some n ∧ n < 2 ^ 64 := by
  rw [parseU64, parseU256, parseUnsigned_eq_some_iff, parseUnsigned_eq_some_iff]
  constructor
  · rintro ⟨hparse, hlt⟩
    exact ⟨⟨hparse, by omega⟩, hlt⟩
  · rintro ⟨⟨hparse, -⟩, hlt⟩
    exact ⟨hparse, hlt⟩

theorem lt_of_parseU256 {s : String} {n : Nat} (h : parseU256 s = some n) : n < 2 ^ 256 :=
  (parseUnsigned_eq_some_iff.mp h).2

/-- Of a number that is too large nothing is parsed. -/
theorem parseU64_congr {s : String} (h : ∀ n, parseU256 s = some n → n < 2 ^ 64) :
    parseU64 s = parseU256 s := by
  ext n
  rw [parseU64_eq_some_iff]
  exact ⟨fun hn => hn.1, fun hn => ⟨hn, h n hn⟩⟩

theorem findSome?_congr {α β : Type} {f g : α → Option β} {l : List α}
    (h : ∀ a ∈ l, f a = g a) : l.findSome? f = l.findSome? g := by
  induction l with
  | nil => rfl
  | cons a l ih =>
      have htail := ih fun b hb => h b (List.mem_cons_of_mem a hb)
      rw [List.findSome?_cons, List.findSome?_cons, h a List.mem_cons_self, htail]

/-! ## §2  The lookups -/

namespace StorageLayout

/-- `structMemberAt` over the integers. -/
def structMemberAtExact (self : StorageLayout) (slot : Nat) : Option (String × String) :=
  self.storage.findSome? fun entry => do
    let baseSlot ← parseU256 entry.slot
    let ti ← self.typeInfo entry
    if ti.encoding ≠ "inplace" then none
    else
      let members ← ti.members
      members.findSome? fun member => do
        let memberOffset ← parseU256 member.slot
        if baseSlot + memberOffset = slot then some (entry.label, member.label) else none

/-- `arrayElementAt` over the integers. -/
def arrayElementAtExact (self : StorageLayout) (slot : Nat) : Option (String × Nat) :=
  self.storage.findSome? fun entry => do
    let baseSlot ← parseU256 entry.slot
    let ti ← self.typeInfo entry
    if ti.encoding ≠ "inplace" then none
    else
      let _ ← ti.base
      let totalBytes ← parseU256 ti.numberOfBytes
      if baseSlot ≤ slot ∧ slot < baseSlot + slotCountOf totalBytes then
        some (entry.label, slot - baseSlot)
      else none

/-- `mappingAtBase` over the integers. -/
def mappingAtBaseExact (self : StorageLayout) (baseSlot : Nat) : Option (String × String) :=
  self.storage.findSome? fun entry => do
    let entrySlot ← parseU256 entry.slot
    if entrySlot ≠ baseSlot then none
    else
      let ti ← self.typeInfo entry
      if ti.encoding ≠ "mapping" then none
      else
        let keyTypeId ← ti.key
        some (entry.label, ((self.types.lookup keyTypeId).map (·.label)).getD "uint256")

/-- `containingCompound` over the integers. -/
def containingCompoundExact (self : StorageLayout) (slot : Nat) :
    Option (StorageEntry × StorageTypeInfo × Nat) :=
  self.storage.findSome? fun entry => do
    let baseSlot ← parseU256 entry.slot
    let ti ← self.typeInfo entry
    let totalBytes ← parseU256 ti.numberOfBytes
    let slotCount := slotCountOf totalBytes
    if slotCount ≤ 1 then none
    else if ti.encoding ≠ "inplace" then none
    else if ti.members.isNone && ti.base.isNone then none
    else if baseSlot ≤ slot ∧ slot < baseSlot + slotCount then some (entry, ti, slotCount)
    else none

end StorageLayout

/-! ## §3  Variables below the end of `u64` -/

/-- `e` is a variable in place of type `ti` at the slot `base`. -/
structure InPlaceAt (layout : StorageLayout) (e : StorageEntry) (ti : StorageTypeInfo)
    (base : Nat) : Prop where
  mem : e ∈ layout.storage
  starts : parseU256 e.slot = some base
  info : layout.typeInfo e = some ti
  inplace : ti.encoding = "inplace"

/-- The size is a `u64`, and so is the slot behind the last one. -/
def EndsBelow (base totalBytes : Nat) : Prop :=
  totalBytes < 2 ^ 64 ∧ base + slotCountOf totalBytes < 2 ^ 64

/-- The slots of members and mappings and the ends of arrays and structs are `u64` numbers. -/
structure FitsU64 (layout : StorageLayout) : Prop where
  members : ∀ {e ti base entries m o}, InPlaceAt layout e ti base → ti.members = some entries →
    m ∈ entries → parseU256 m.slot = some o → base + o < 2 ^ 64
  arrays : ∀ {e ti base total}, InPlaceAt layout e ti base → ti.base.isSome →
    parseU256 ti.numberOfBytes = some total → 0 < slotCountOf total → EndsBelow base total
  compounds : ∀ {e ti base total}, InPlaceAt layout e ti base →
    ti.members.isSome ∨ ti.base.isSome → parseU256 ti.numberOfBytes = some total →
    1 < slotCountOf total → EndsBelow base total
  mappings : ∀ {e ti base}, e ∈ layout.storage → parseU256 e.slot = some base →
    layout.typeInfo e = some ti → ti.encoding = "mapping" → ti.key.isSome → base < 2 ^ 64

section Fits

variable {layout : StorageLayout} {slot : Nat}

theorem structMemberAt_exact (h : FitsU64 layout) :
    layout.structMemberAt slot = layout.structMemberAtExact slot := by
  refine findSome?_congr fun e he => ?_
  ext found
  simp only [Option.bind_eq_bind, Option.bind_eq_some_iff, Option.ite_none_left_eq_some, not_not,
    parseU64_eq_some_iff]
  -- the first hit among the members is the same; a base that is too large has no member to hit
  have hmembers : ∀ {base ti entries}, parseU256 e.slot = some base → layout.typeInfo e = some ti →
      ti.encoding = "inplace" → ti.members = some entries →
      (entries.findSome? fun m => (parseU64 m.slot).bind fun o =>
          if saturatingAddU64 base o = slot then some (e.label, m.label) else none) =
        entries.findSome? fun m => (parseU256 m.slot).bind fun o =>
          if base + o = slot then some (e.label, m.label) else none := by
    intro base ti entries hbase hti hinplace hentries
    refine findSome?_congr fun m hm => ?_
    have hfits : ∀ {o}, parseU256 m.slot = some o → base + o < 2 ^ 64 :=
      h.members ⟨he, hbase, hti, hinplace⟩ hentries hm
    rw [parseU64_congr fun o ho => (Nat.le_add_left o base).trans_lt (hfits ho)]
    refine Option.bind_congr fun o ho => ?_
    have hsum : saturatingAddU64 base o = base + o := by
      have hlt := hfits ho
      rw [saturatingAddU64]
      omega
    rw [hsum]
  constructor
  · rintro ⟨base, ⟨hbase, -⟩, ti, hti, hinplace, entries, hentries, hfound⟩
    rw [hmembers hbase hti hinplace hentries] at hfound
    exact ⟨base, hbase, ti, hti, hinplace, entries, hentries, hfound⟩
  · rintro ⟨base, hbase, ti, hti, hinplace, entries, hentries, hfound⟩
    obtain ⟨m, hm, hfoundAt⟩ := List.exists_of_findSome?_eq_some hfound
    obtain ⟨o, ho, -⟩ := Option.bind_eq_some_iff.mp hfoundAt
    have hlt := h.members ⟨he, hbase, hti, hinplace⟩ hentries hm ho
    rw [← hmembers hbase hti hinplace hentries] at hfound
    exact ⟨base, ⟨hbase, by omega⟩, ti, hti, hinplace, entries, hentries, hfound⟩

theorem arrayElementAt_exact (h : FitsU64 layout) :
    layout.arrayElementAt slot = layout.arrayElementAtExact slot := by
  refine findSome?_congr fun e he => ?_
  ext found
  simp only [Option.bind_eq_bind, Option.bind_eq_some_iff, Option.ite_none_left_eq_some,
    Option.ite_none_right_eq_some, not_not, parseU64_eq_some_iff]
  constructor
  · rintro ⟨base, ⟨hbase, -⟩, ti, hti, hinplace, elem, helem, total, ⟨htotal, -⟩, hrange, hfound⟩
    exact ⟨base, hbase, ti, hti, hinplace, elem, helem, total, htotal,
      ⟨hrange.1, hrange.2.trans_le (wrappingAddU64_le _ _)⟩, hfound⟩
  · rintro ⟨base, hbase, ti, hti, hinplace, elem, helem, total, htotal, hrange, hfound⟩
    have hends := h.arrays ⟨he, hbase, hti, hinplace⟩ (Option.isSome_of_eq_some helem) htotal (by omega)
    refine ⟨base, ⟨hbase, by have := hends.2; omega⟩, ti, hti, hinplace, elem, helem, total,
      ⟨htotal, hends.1⟩, ?_, hfound⟩
    rw [wrappingAddU64_of_lt hends.2]
    exact hrange

theorem containingCompound_exact (h : FitsU64 layout) :
    layout.containingCompound slot = layout.containingCompoundExact slot := by
  refine findSome?_congr fun e he => ?_
  ext found
  simp only [Option.bind_eq_bind, Option.bind_eq_some_iff, Option.ite_none_left_eq_some,
    Option.ite_none_right_eq_some, not_not, parseU64_eq_some_iff]
  constructor
  · rintro ⟨base, ⟨hbase, -⟩, ti, hti, total, ⟨htotal, -⟩, hcount, hinplace, hcompound, hrange, hfound⟩
    exact ⟨base, hbase, ti, hti, total, htotal, hcount, hinplace, hcompound,
      ⟨hrange.1, hrange.2.trans_le (wrappingAddU64_le _ _)⟩, hfound⟩
  · rintro ⟨base, hbase, ti, hti, total, htotal, hcount, hinplace, hcompound, hrange, hfound⟩
    have hends := h.compounds ⟨he, hbase, hti, hinplace⟩ (isCompound_iff.mp hcompound) htotal
      (by omega)
    refine ⟨base, ⟨hbase, by have := hends.2; omega⟩, ti, hti, total, ⟨htotal, hends.1⟩, hcount,
      hinplace, hcompound, ?_, hfound⟩
    rw [wrappingAddU64_of_lt hends.2]
    exact hrange

/-- What is found over the integers is a mapping at the base slot. -/
theorem exists_of_mappingAtBaseExact {found : String × String}
    (h : layout.mappingAtBaseExact slot = some found) : ∃ e ti, e ∈ layout.storage ∧
      parseU256 e.slot = some slot ∧ layout.typeInfo e = some ti ∧ ti.encoding = "mapping" ∧
        ti.key.isSome := by
  obtain ⟨e, he, hentry⟩ := List.exists_of_findSome?_eq_some h
  simp only [Option.bind_eq_bind, Option.bind_eq_some_iff, Option.ite_none_left_eq_some,
    not_not] at hentry
  obtain ⟨base, hbase, rfl, ti, hti, hmapping, key, hkey, -⟩ := hentry
  exact ⟨e, ti, he, hbase, hti, hmapping, Option.isSome_of_eq_some hkey⟩

theorem mappingAtBase_exact (hslot : slot < 2 ^ 64) :
    layout.mappingAtBase slot = layout.mappingAtBaseExact slot := by
  refine findSome?_congr fun e he => ?_
  ext found
  simp only [Option.bind_eq_bind, Option.bind_eq_some_iff, Option.ite_none_left_eq_some, not_not,
    parseU64_eq_some_iff]
  constructor
  · rintro ⟨base, ⟨hbase, -⟩, rfl, hrest⟩
    exact ⟨base, hbase, rfl, hrest⟩
  · rintro ⟨base, hbase, rfl, hrest⟩
    exact ⟨base, ⟨hbase, hslot⟩, rfl, hrest⟩

/-- The lookup is made for base slots that are `u64` numbers only. -/
theorem FitsU64.mappingAtBase (h : FitsU64 layout) (base : U256) :
    (toUsize base).bind layout.mappingAtBase = layout.mappingAtBaseExact base.toNat := by
  unfold toUsize
  split
  · rename_i hbase
    exact mappingAtBase_exact hbase
  · rename_i hbase
    rw [Option.bind_none]
    cases hfound : layout.mappingAtBaseExact base.toNat with
    | none => rfl
    | some found =>
        obtain ⟨e, ti, he, hslot, hti, hmapping, hkey⟩ := exists_of_mappingAtBaseExact hfound
        exact absurd (h.mappings he hslot hti hmapping hkey) hbase

end Fits

/-! ## §4  Slots of an SSTORE -/

/-- A lookup that is made with the slots that are `u64` numbers only. -/
def ExactAt {α : Type} (lookup exact : Nat → Option α) (slot : U256) : Prop :=
  (parseU64 (Nat.repr slot.toNat)).bind lookup = exact slot.toNat

section ExactAt

variable {α : Type} {lookup exact : Nat → Option α}

theorem exactAt_of_eq {slot : U256} (heq : lookup slot.toNat = exact slot.toNat)
    (hlt : ∀ found, lookup slot.toNat = some found → slot.toNat < 2 ^ 64) :
    ExactAt lookup exact slot := by
  rw [ExactAt, parseU64_repr]
  split
  · exact heq
  · rename_i hslot
    rw [← heq, Option.bind_none]
    cases hfound : lookup slot.toNat with
    | none => rfl
    | some found => exact absurd (hlt found hfound) hslot

/-- What an exact lookup finds. -/
theorem lookup_of_exactAt (h : ∀ slot, ExactAt lookup exact slot) {n : Nat} (hn : n < 2 ^ 256)
    (hsome : (exact n).isSome) : ∃ found, lookup n = some found := by
  have hexact := h (BitVec.ofNat 256 n)
  rw [ExactAt, BitVec.toNat_ofNat, Nat.mod_eq_of_lt hn, parseU64_repr] at hexact
  rw [← hexact] at hsome
  split at hsome
  · exact Option.isSome_iff_exists.mp hsome
  · contradiction

end ExactAt

/-- The lookups find, at every slot, what they find over the integers. -/
structure LookupsExact (layout : StorageLayout) : Prop where
  members : ∀ slot, ExactAt layout.structMemberAt layout.structMemberAtExact slot
  elements : ∀ slot, ExactAt layout.arrayElementAt layout.arrayElementAtExact slot
  compounds : ∀ slot, ExactAt layout.containingCompound layout.containingCompoundExact slot
  mappings : ∀ base : U256,
    (toUsize base).bind layout.mappingAtBase = layout.mappingAtBaseExact base.toNat

theorem FitsU64.lookupsExact {layout : StorageLayout} (h : FitsU64 layout) :
    LookupsExact layout where
  members slot := by
    refine exactAt_of_eq (structMemberAt_exact h) fun found hfound => ?_
    obtain ⟨e, m, hmember, -⟩ := structMemberAt_spec hfound
    exact hmember.slot_lt
  elements slot := by
    refine exactAt_of_eq (arrayElementAt_exact h) fun found hfound => ?_
    obtain ⟨e, base, harray, -⟩ := arrayElementAt_spec hfound
    exact (Nat.lt_succ_self _).trans harray.below
  compounds slot := by
    refine exactAt_of_eq (containingCompound_exact h) fun found hfound => ?_
    obtain ⟨base, hcompound⟩ := compoundAt_of_containingCompound hfound
    exact hcompound.lt.trans hcompound.fits
  mappings := h.mappingAtBase

/-! ## §5  Variables that do not fit -/

/-- The slot is one of those of the array or struct `e`. -/
def InSlots (layout : StorageLayout) (e : StorageEntry) (slot : Nat) : Prop :=
  ∃ ti base total, InPlaceAt layout e ti base ∧ (ti.members.isSome ∨ ti.base.isSome) ∧
    parseU256 ti.numberOfBytes = some total ∧ base ≤ slot ∧ slot < base + slotCountOf total

/-- Arrays and structs do not overlap, and members are in the 2^256 slots of storage. -/
structure WithoutOverlap (layout : StorageLayout) : Prop where
  apart : ∀ {e e' slot}, InSlots layout e slot → InSlots layout e' slot → e = e'
  within : ∀ {e ti base entries m o}, InPlaceAt layout e ti base → ti.members = some entries →
    m ∈ entries → parseU256 m.slot = some o → base + o < 2 ^ 256

section Converse

variable {layout : StorageLayout} {e e' m : StorageEntry} {ti : StorageTypeInfo}
  {entries : List StorageEntry} {base base' count total o slot : Nat}

theorem ArrayAt.inSlots (h : ArrayAt layout e base slot) : InSlots layout e slot := by
  obtain ⟨ti, total, hti, hinplace, hbase, htotal, hlt⟩ := h.info
  exact ⟨ti, base, total, ⟨h.mem, (parseU64_eq_some_iff.mp h.starts).1, hti, hinplace⟩, .inr hbase,
    (parseU64_eq_some_iff.mp htotal).1, h.le, hlt⟩

theorem CompoundAt.inPlaceAt (h : CompoundAt layout e ti base count slot) :
    InPlaceAt layout e ti base :=
  ⟨h.mem, (parseU64_eq_some_iff.mp h.starts).1, h.info, h.inplace⟩

theorem CompoundAt.inSlots (h : CompoundAt layout e ti base count slot) : InSlots layout e slot := by
  obtain ⟨total, htotal, rfl⟩ := h.bytes
  exact ⟨ti, base, total, h.inPlaceAt, h.compound, (parseU64_eq_some_iff.mp htotal).1, h.le, h.lt⟩

theorem InPlaceAt.structMemberAtExact (h : InPlaceAt layout e ti base)
    (hentries : ti.members = some entries) (hm : m ∈ entries) (ho : parseU256 m.slot = some o) :
    (layout.structMemberAtExact (base + o)).isSome := by
  have hfound : (entries.findSome? fun member => do
      let memberOffset ← parseU256 member.slot
      if base + memberOffset = base + o then some (e.label, member.label) else none).isSome := by
    rw [List.findSome?_isSome_iff]
    refine ⟨m, hm, ?_⟩
    simp [ho]
  unfold StorageLayout.structMemberAtExact
  rw [List.findSome?_isSome_iff]
  refine ⟨e, h.mem, ?_⟩
  simp only [h.starts, h.info, h.inplace, hentries, Option.bind_eq_bind, Option.bind_some]
  exact hfound

theorem InPlaceAt.arrayElementAtExact (h : InPlaceAt layout e ti base) (helem : ti.base.isSome)
    (htotal : parseU256 ti.numberOfBytes = some total) (hle : base ≤ slot)
    (hlt : slot < base + slotCountOf total) : (layout.arrayElementAtExact slot).isSome := by
  obtain ⟨elem, helem⟩ := Option.isSome_iff_exists.mp helem
  unfold StorageLayout.arrayElementAtExact
  rw [List.findSome?_isSome_iff]
  refine ⟨e, h.mem, ?_⟩
  simp [h.starts, h.info, h.inplace, helem, htotal, hle, hlt]

theorem InPlaceAt.containingCompoundExact (h : InPlaceAt layout e ti base)
    (hcompound : ti.members.isSome ∨ ti.base.isSome)
    (htotal : parseU256 ti.numberOfBytes = some total) (hcount : 1 < slotCountOf total)
    (hle : base ≤ slot) (hlt : slot < base + slotCountOf total) :
    (layout.containingCompoundExact slot).isSome := by
  have hsome := isCompound_iff.mpr hcompound
  unfold StorageLayout.containingCompoundExact
  rw [List.findSome?_isSome_iff]
  refine ⟨e, h.mem, ?_⟩
  simp only [h.starts, h.info, h.inplace, htotal, Option.bind_eq_bind, Option.bind_some]
  rw [if_neg (Nat.not_le_of_lt hcount), if_neg (not_not.mpr rfl), if_neg hsome, if_pos ⟨hle, hlt⟩]
  rfl

/-- An array or struct ends below `2^64` when only such slots of it are found, as slots of a
variable whose size is a `u64`. -/
theorem InPlaceAt.endsBelow (h : InPlaceAt layout e ti base) (hlayout : WithoutOverlap layout)
    (hcompound : ti.members.isSome ∨ ti.base.isSome)
    (htotal : parseU256 ti.numberOfBytes = some total) (hcount : 0 < slotCountOf total)
    (hfound : ∀ slot < 2 ^ 256, base ≤ slot → slot < base + slotCountOf total →
      slot + 1 < 2 ^ 64 ∧ ∃ e' ti' total', InSlots layout e' slot ∧ layout.typeInfo e' = some ti' ∧
        parseU64 ti'.numberOfBytes = some total') : EndsBelow base total := by
  have hbase := lt_of_parseU256 h.starts
  constructor
  · obtain ⟨-, e', ti', total', hslots, hti', htotal'⟩ := hfound base hbase le_rfl (by omega)
    have hself : InSlots layout e base :=
      ⟨ti, base, total, h, hcompound, htotal, le_rfl, by omega⟩
    obtain rfl := hlayout.apart hself hslots
    obtain rfl := Option.some.inj (h.info.symm.trans hti')
    obtain ⟨hparse, hlt⟩ := parseU64_eq_some_iff.mp htotal'
    rw [Option.some.inj (htotal.symm.trans hparse)]
    exact hlt
  · by_contra hend
    -- the last `u64` slot, or the first slot if that is larger, belongs to `e`
    obtain ⟨hlast, -⟩ := hfound (max base (2 ^ 64 - 1)) (by omega) (le_max_left _ _) (by omega)
    omega

theorem isSome_mappingAtBaseExact (he : e ∈ layout.storage) (hbase : parseU256 e.slot = some base)
    (hti : layout.typeInfo e = some ti) (hmapping : ti.encoding = "mapping")
    (hkey : ti.key.isSome) : (layout.mappingAtBaseExact base).isSome := by
  obtain ⟨key, hkey⟩ := Option.isSome_iff_exists.mp hkey
  unfold StorageLayout.mappingAtBaseExact
  rw [List.findSome?_isSome_iff]
  refine ⟨e, he, ?_⟩
  simp [hbase, hti, hmapping, hkey]

/-- A base that is found is a `u64` number. -/
theorem LookupsExact.mapping_lt (h : LookupsExact layout) (hbase : base < 2 ^ 256)
    (hsome : (layout.mappingAtBaseExact base).isSome) : base < 2 ^ 64 := by
  have hexact := h.mappings (BitVec.ofNat 256 base)
  rw [toUsize, BitVec.toNat_ofNat, Nat.mod_eq_of_lt hbase] at hexact
  rw [← hexact] at hsome
  split at hsome
  · assumption
  · contradiction

theorem LookupsExact.fitsU64 (h : LookupsExact layout) (hlayout : WithoutOverlap layout) :
    FitsU64 layout where
  members hplaced hentries hm ho := by
    obtain ⟨found, hfound⟩ := lookup_of_exactAt h.members (hlayout.within hplaced hentries hm ho)
      (hplaced.structMemberAtExact hentries hm ho)
    obtain ⟨e', m', hmember, -⟩ := structMemberAt_spec hfound
    exact hmember.slot_lt
  arrays hplaced helem htotal hcount := by
    refine hplaced.endsBelow hlayout (.inr helem) htotal hcount fun slot hslot hle hlt => ?_
    obtain ⟨found, hfound⟩ := lookup_of_exactAt h.elements hslot
      (hplaced.arrayElementAtExact helem htotal hle hlt)
    obtain ⟨e', base', harray, -⟩ := arrayElementAt_spec hfound
    obtain ⟨ti', total', hti', -, -, htotal', -⟩ := harray.info
    exact ⟨harray.below, e', ti', total', harray.inSlots, hti', htotal'⟩
  compounds hplaced hcompound htotal hcount := by
    refine hplaced.endsBelow hlayout hcompound htotal (Nat.zero_lt_of_lt hcount)
      fun slot hslot hle hlt => ?_
    obtain ⟨⟨e', ti', count'⟩, hfound⟩ := lookup_of_exactAt h.compounds hslot
      (hplaced.containingCompoundExact hcompound htotal hcount hle hlt)
    obtain ⟨base', hat⟩ := compoundAt_of_containingCompound hfound
    obtain ⟨total', htotal', -⟩ := hat.bytes
    have hend := hat.lt
    have hfits := hat.fits
    exact ⟨by omega, e', ti', total', hat.inSlots, hat.info, htotal'⟩
  mappings he hbase hti hmapping hkey :=
    h.mapping_lt (lt_of_parseU256 hbase) (isSome_mappingAtBaseExact he hbase hti hmapping hkey)

end Converse

end EvmRecorder
