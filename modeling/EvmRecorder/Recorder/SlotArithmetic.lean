import EvmRecorder.Model.RecorderParts
import EvmRecorder.StorageLayout.ExactLookups

/-!
# Slot arithmetic of a storage write

A storage write looks its slot up for a name and for a snapshot of the compound around it, and
a KECCAK256 its base slot for a mapping. These are what they are over the integers exactly when
the slots of all structs, arrays and mappings are `u64` numbers and no array has too many
records to allocate. A variable further up is not found, or found at the last `u64` slot.
-/

namespace EvmRecorder

open Bytes Numeral

/-! ## §1  Writes over the integers -/

/-- `storageVarName` over the integers. -/
def storageVarNameExact (layout : StorageLayout) (names : MappingSlotNames) (slot : U256) :
    String :=
  let slotDecimal := Nat.repr slot.toNat
  (((layout.resolveSlot slotDecimal).map (·.label)).orElse fun _ =>
    (names.lookup slot).orElse fun _ =>
      ((layout.structMemberAtExact slot.toNat).map fun (parent, member) =>
        parent ++ "." ++ member).orElse fun _ =>
          (layout.arrayElementAtExact slot.toNat).map fun (parent, idx) =>
            indexedName parent (toString idx)).getD ("storage[" ++ slotDecimal ++ "]")

/-- `buildCompoundValue` over the integers. -/
def buildCompoundValueExact (parentTi : StorageTypeInfo) (baseSlot slotCount : Nat)
    (slotValues : SlotValues) : List TraceEvent × Option ValueRecord :=
  match parentTi.members with
  | some members =>
      let typeId : TypeId := ⟨.struct, parentTi.label⟩
      ([.ensureTypeId uint256TypeId, .ensureTypeId typeId],
        (members.mapM fun member => (parseU256 member.slot).map fun memberOffset =>
          slotValueOrZero slotValues (baseSlot + memberOffset)).map (ValueRecord.struct · typeId))
  | none =>
      if parentTi.base.isSome then
        let typeId : TypeId := ⟨.array, parentTi.label⟩
        ([.ensureTypeId uint256TypeId, .ensureTypeId typeId],
          some (.sequence ((List.range slotCount).map fun offset =>
            slotValueOrZero slotValues (baseSlot + offset)) false typeId))
      else ([.ensureTypeId uint256TypeId], none)

/-- `derivedSlotName` over the integers. -/
def derivedSlotNameExact (layout : StorageLayout) (names : MappingSlotNames)
    (input : List UInt8) : Option String :=
  let keyBytes := input.take 32
  let baseSlot := wordOfBytes (input.drop 32)
  match layout.mappingAtBaseExact baseSlot.toNat with
  | some (mappingLabel, keyTypeLabel) =>
      some (indexedName mappingLabel (formatMappingKey keyTypeLabel keyBytes))
  | none => (names.lookup baseSlot).map fun parentName =>
      indexedName parentName (formatMappingKey "address" keyBytes)

/-- `recordMappingSlot` over the integers. -/
def recordMappingSlotExact (keccak256 : List UInt8 → U256) (layout : StorageLayout)
    (log : StructLog) (names : MappingSlotNames) : MappingSlotNames :=
  match keccakInput log with
  | some input =>
      match derivedSlotNameExact layout names input with
      | some name => names.insert (keccak256 input) name
      | none => names
  | none => names

/-- Lookups, the names of mapping slots and of writes, and the values of compounds are as over
the integers, and no vector is too large for its records of `recordSize` bytes. -/
structure SlotArithmeticExact (recordSize : Nat) (layout : StorageLayout) : Prop where
  lookups : LookupsExact layout
  mappingSlots : ∀ keccak256 log names, recordMappingSlot keccak256 (some layout) log names =
    recordMappingSlotExact keccak256 layout log names
  names : ∀ names slot, storageVarName (some layout) names slot =
    storageVarNameExact layout names slot
  values : ∀ {slot : U256} {parent ti count},
    layout.containingCompoundExact slot.toNat = some (parent, ti, count) → ∀ slotValues,
      buildCompoundValueChecked recordSize ti ((parseU64 parent.slot).getD 0) count slotValues =
        some (buildCompoundValueExact ti ((parseU256 parent.slot).getD 0) count slotValues)

/-- The layout is one in `u64`, and the records of each array and struct of more than one slot
take less than `2^63` bytes. -/
structure SlotsFit (recordSize : Nat) (layout : StorageLayout) : Prop extends FitsU64 layout where
  capacity : ∀ {e ti base total}, InPlaceAt layout e ti base →
    ti.members.isSome ∨ ti.base.isSome → parseU256 ti.numberOfBytes = some total →
    1 < slotCountOf total → compoundCapacity ti (slotCountOf total) * recordSize < 2 ^ 63

/-! ## §2  Layouts in `u64` -/

theorem mapM_congr_mem {α β : Type} {f g : α → Option β} {l : List α}
    (h : ∀ a ∈ l, f a = g a) : l.mapM f = l.mapM g := by
  induction l with
  | nil => rfl
  | cons a l ih =>
      have htail := ih fun b hb => h b (List.mem_cons_of_mem a hb)
      rw [List.mapM_cons, List.mapM_cons, h a List.mem_cons_self, htail]

section

variable {layout : StorageLayout}

/-- Names depend on the layout by the lookups alone. -/
theorem LookupsExact.storageVarName (h : LookupsExact layout) (names : MappingSlotNames)
    (slot : U256) :
    storageVarName (some layout) names slot = storageVarNameExact layout names slot := by
  have hmember := h.members slot
  have helement := h.elements slot
  rw [ExactAt] at hmember helement
  unfold EvmRecorder.storageVarName storageVarNameExact
  simp only [Option.bind_some]
  rw [hmember, helement]

theorem FitsU64.buildCompoundValue (h : FitsU64 layout) {parent : StorageEntry}
    {ti : StorageTypeInfo} {base count slot : Nat}
    (hat : CompoundAt layout parent ti base count slot) (slotValues : SlotValues) :
    buildCompoundValue ti base count slotValues =
      buildCompoundValueExact ti base count slotValues := by
  unfold EvmRecorder.buildCompoundValue buildCompoundValueExact
  cases hmembers : ti.members with
  | some entries =>
      have hfields : entries.mapM (fun m => (parseU64 m.slot).map fun o =>
            slotValueOrZero slotValues (wrappingAddU64 base o)) =
          entries.mapM fun m => (parseU256 m.slot).map fun o =>
            slotValueOrZero slotValues (base + o) := by
        refine mapM_congr_mem fun m hm => ?_
        have hfits : ∀ {o}, parseU256 m.slot = some o → base + o < 2 ^ 64 :=
          h.members hat.inPlaceAt hmembers hm
        rw [parseU64_congr fun o ho => (Nat.le_add_left o base).trans_lt (hfits ho)]
        refine Option.map_congr fun o ho => ?_
        rw [wrappingAddU64_of_lt (hfits ho)]
      simp only [hfields]
  | none =>
      have helements : ((List.range count).map fun o =>
            slotValueOrZero slotValues (wrappingAddU64 base o)) =
          (List.range count).map fun o => slotValueOrZero slotValues (base + o) := by
        refine List.map_congr_left fun o ho => ?_
        have hend := hat.fits
        rw [List.mem_range] at ho
        rw [wrappingAddU64_of_lt (by omega)]
      simp only [helements]

theorem LookupsExact.recordMappingSlot (h : LookupsExact layout)
    (keccak256 : List UInt8 → U256) (log : StructLog) (names : MappingSlotNames) :
    recordMappingSlot keccak256 (some layout) log names =
      recordMappingSlotExact keccak256 layout log names := by
  have hderived : ∀ input, derivedSlotName layout names input =
      derivedSlotNameExact layout names input := by
    intro input
    unfold derivedSlotName derivedSlotNameExact
    cases hfound : layout.mappingAtBaseExact (wordOfBytes (input.drop 32)).toNat with
    | none => simp only [h.mappings, hfound]
    | some found => simp only [h.mappings, hfound]
  unfold EvmRecorder.recordMappingSlot recordMappingSlotExact
  cases keccakInput log with
  | none => rfl
  | some input =>
      cases hname : derivedSlotNameExact layout names input with
      | none => simp only [hderived, hname]
      | some name => simp only [hderived, hname]

/-- What is found over the integers is an array or struct around the slot. -/
theorem containingCompoundExact_spec {slot : Nat} {parent : StorageEntry} {ti : StorageTypeInfo}
    {count : Nat} (h : layout.containingCompoundExact slot = some (parent, ti, count)) :
    ∃ base total, InPlaceAt layout parent ti base ∧ (ti.members.isSome ∨ ti.base.isSome) ∧
      parseU256 ti.numberOfBytes = some total ∧ count = slotCountOf total ∧
        1 < slotCountOf total ∧ base ≤ slot ∧ slot < base + slotCountOf total := by
  obtain ⟨e, he, hentry⟩ := List.exists_of_findSome?_eq_some h
  simp only [Option.bind_eq_bind, Option.bind_eq_some_iff, Option.ite_none_left_eq_some,
    Option.ite_none_right_eq_some, not_not, Option.some.injEq, Prod.mk.injEq] at hentry
  obtain ⟨base, hbase, ti', hti, total, htotal, hcount, hinplace, hcompound, hrange, rfl, rfl, rfl⟩ :=
    hentry
  exact ⟨base, total, ⟨he, hbase, hti, hinplace⟩, isCompound_iff.mp hcompound, htotal, rfl,
    Nat.lt_of_not_le hcount, hrange.1, hrange.2⟩

theorem buildCompoundValueChecked_eq_some_iff {recordSize base count : Nat} {ti : StorageTypeInfo}
    {slotValues : SlotValues} {built : List TraceEvent × Option ValueRecord} :
    buildCompoundValueChecked recordSize ti base count slotValues = some built ↔
      compoundCapacity ti count * recordSize < 2 ^ 63 ∧
        buildCompoundValue ti base count slotValues = built := by
  rw [buildCompoundValueChecked, Option.ite_none_right_eq_some, Option.some_inj]

variable {recordSize : Nat}

theorem SlotsFit.slotArithmeticExact (h : SlotsFit recordSize layout) :
    SlotArithmeticExact recordSize layout where
  lookups := h.lookupsExact
  mappingSlots := h.lookupsExact.recordMappingSlot
  names := h.lookupsExact.storageVarName
  values := by
    intro slot parent ti count hfound slotValues
    obtain ⟨base, total, hplaced, hcompound, htotal, rfl, hcount, -, -⟩ :=
      containingCompoundExact_spec hfound
    rw [buildCompoundValueChecked_eq_some_iff]
    refine ⟨h.capacity hplaced hcompound htotal hcount, ?_⟩
    rw [← containingCompound_exact h.toFitsU64] at hfound
    obtain ⟨base, hat⟩ := compoundAt_of_containingCompound hfound
    rw [hat.starts, hat.inPlaceAt.starts, Option.getD_some]
    exact h.toFitsU64.buildCompoundValue hat slotValues

theorem SlotArithmeticExact.slotsFit (h : SlotArithmeticExact recordSize layout)
    (hlayout : WithoutOverlap layout) : SlotsFit recordSize layout where
  toFitsU64 := h.lookups.fitsU64 hlayout
  capacity := by
    intro e ti base total hplaced hcompound htotal hcount
    -- at its first slot the variable itself is found
    have hbase := lt_of_parseU256 hplaced.starts
    have hslot : (BitVec.ofNat 256 base).toNat = base := by
      rw [BitVec.toNat_ofNat, Nat.mod_eq_of_lt hbase]
    obtain ⟨⟨parent, ti', count⟩, hfound⟩ := Option.isSome_iff_exists.mp
      (hplaced.containingCompoundExact hcompound htotal hcount le_rfl (by omega))
    obtain ⟨base', total', hplaced', hcompound', htotal', rfl, -, hle, hlt⟩ :=
      containingCompoundExact_spec hfound
    have hself : InSlots layout e base :=
      ⟨ti, base, total, hplaced, hcompound, htotal, le_rfl, by omega⟩
    obtain rfl := hlayout.apart hself ⟨ti', base', total', hplaced', hcompound', htotal', hle, hlt⟩
    obtain rfl := Option.some.inj (hplaced.info.symm.trans hplaced'.info)
    obtain rfl := Option.some.inj (htotal.symm.trans htotal')
    have hbuilt := h.values (hslot.symm ▸ hfound) ∅
    exact (buildCompoundValueChecked_eq_some_iff.mp hbuilt).1

end

/-- Slot arithmetic is exact for layouts in `u64` with records that fit, and without overlap
for no others. -/
theorem slotArithmetic_exact (recordSize : Nat) (layout : StorageLayout) :
    (SlotsFit recordSize layout → SlotArithmeticExact recordSize layout) ∧
      (WithoutOverlap layout → SlotArithmeticExact recordSize layout →
        SlotsFit recordSize layout) :=
  ⟨SlotsFit.slotArithmeticExact, fun hlayout h => h.slotsFit hlayout⟩

/-! ### A struct across the end of `u64` -/

/-- `struct S { uint256[3] a; uint256 y; }`. -/
def edgeType : StorageTypeInfo where
  encoding := "inplace"
  label := "struct S"
  numberOfBytes := "128"
  members := some [⟨"a", "0", 0, "uint256[3]"⟩, ⟨"y", "3", 0, "uint256"⟩]

/-- `mapping(address => uint256)`. -/
def edgeMapping : StorageTypeInfo where
  encoding := "mapping"
  label := "mapping(address => uint256)"
  numberOfBytes := "32"
  key := some "address"

/-- `S s;` in the slots from `slot` on, and a mapping `m` based at `base`. -/
def structLayout (slot base : String) : StorageLayout where
  storage := [⟨"s", slot, 0, "S"⟩, ⟨"m", base, 0, "M"⟩]
  types := [("S", edgeType), ("M", edgeMapping),
    ("uint256[3]",
      { encoding := "inplace", label := "uint256[3]", numberOfBytes := "96",
        base := some "uint256" }),
    ("uint256", { encoding := "inplace", label := "uint256", numberOfBytes := "32" }),
    ("address", { encoding := "inplace", label := "address", numberOfBytes := "20" })]

/-- `s` in the slots from `2^64 - 3` on and `m` behind it. -/
def edgeLayout : StorageLayout := structLayout "18446744073709551613" "18446744073709551617"

/-- The last `u64` slot is the third of `a` and named after `y`; `y` is in the next one, where
nothing is found, and the slots of `m` have no name. -/
theorem structLayout_not_exact :
    edgeLayout.structMemberAt (2 ^ 64 - 1) = some ("s", "y") ∧
    edgeLayout.structMemberAtExact (2 ^ 64 - 1) = none ∧
    edgeLayout.structMemberAtExact (2 ^ 64) = some ("s", "y") ∧
    storageVarName (some edgeLayout) ∅ (2 ^ 64) = "storage[18446744073709551616]" ∧
    edgeLayout.containingCompoundExact (2 ^ 64 - 1) ≠ none ∧
    edgeLayout.containingCompound (2 ^ 64 - 1) = none ∧
    edgeLayout.mappingAtBaseExact (2 ^ 64 + 1) = some ("m", "address") ∧
    derivedSlotName edgeLayout ∅ (wordBytes 5 ++ wordBytes (2 ^ 64 + 1)) = none ∧
    ¬ SlotArithmeticExact 40 edgeLayout := by
  have hfound : edgeLayout.structMemberAt (2 ^ 64 - 1) = some ("s", "y") := by
    decide +kernel
  have hexact : edgeLayout.structMemberAtExact (2 ^ 64 - 1) = none := by
    decide +kernel
  refine ⟨hfound, hexact, by decide +kernel, by decide +kernel, by decide +kernel, by decide +kernel,
    by decide +kernel, by decide +kernel, fun h => ?_⟩
  have hslot := h.lookups.members (2 ^ 64 - 1)
  have htoNat : (2 ^ 64 - 1 : U256).toNat = 2 ^ 64 - 1 := by decide +kernel
  rw [ExactAt, htoNat, parseU64_repr, if_pos (by decide), Option.bind_some, hfound, hexact] at hslot
  contradiction

/-- From slot 0 on. -/
theorem structLayout_exact :
    SlotArithmeticExact 40 (structLayout "0" "4") ∧ SlotsFit 40 (structLayout "0" "4") := by
  have honly : ∀ {e ti base}, InPlaceAt (structLayout "0" "4") e ti base →
      e = ⟨"s", "0", 0, "S"⟩ ∧ ti = edgeType ∧ base = 0 := by
    intro e ti base h
    rcases List.mem_cons.mp h.mem with rfl | hmem
    · have hbase : parseU256 "0" = some 0 := by decide
      exact ⟨rfl, (Option.some.inj h.info).symm, Option.some.inj (h.starts.symm.trans hbase)⟩
    · obtain rfl := List.mem_singleton.mp hmem
      obtain rfl : edgeMapping = ti := Option.some.inj h.info
      exact absurd h.inplace (by decide)
  have htotal : ∀ {total}, parseU256 "128" = some total → total = 128 := by
    intro total htotal
    have hbytes : parseU256 "128" = some 128 := by decide
    exact (Option.some.inj (hbytes.symm.trans htotal)).symm
  have hmember : ∀ {e ti base entries m o}, InPlaceAt (structLayout "0" "4") e ti base →
      ti.members = some entries → m ∈ entries → parseU256 m.slot = some o → base + o < 2 ^ 64 := by
    intro e ti base entries m o h hentries hm ho
    obtain ⟨rfl, rfl, rfl⟩ := honly h
    obtain rfl := Option.some.inj hentries
    have hslots : ∀ m ∈ edgeType.members.getD [], parseU256 m.slot = some 0 ∨
        parseU256 m.slot = some 3 := by decide
    rcases hslots m hm with hzero | hthree
    · rw [← Option.some.inj (hzero.symm.trans ho)]
      decide
    · rw [← Option.some.inj (hthree.symm.trans ho)]
      decide
  have hfits : SlotsFit 40 (structLayout "0" "4") := by
    refine ⟨⟨hmember, ?_, ?_, ?_⟩, ?_⟩
    · intro e ti base total h _ hbytes _
      obtain ⟨rfl, rfl, rfl⟩ := honly h
      obtain rfl := htotal hbytes
      exact ⟨by decide, by decide⟩
    · intro e ti base total h _ hbytes _
      obtain ⟨rfl, rfl, rfl⟩ := honly h
      obtain rfl := htotal hbytes
      exact ⟨by decide, by decide⟩
    · intro e ti base he hbase hti hmapping hkey
      rcases List.mem_cons.mp he with rfl | hmem
      · obtain rfl : edgeType = ti := Option.some.inj hti
        exact absurd hmapping (by decide)
      · obtain rfl := List.mem_singleton.mp hmem
        have hfour : parseU256 "4" = some 4 := by decide
        rw [← Option.some.inj (hfour.symm.trans hbase)]
        decide
    · intro e ti base total h _ _ _
      obtain ⟨rfl, rfl, rfl⟩ := honly h
      show 2 * 40 < 2 ^ 63
      decide
  have hlayout : WithoutOverlap (structLayout "0" "4") := by
    refine ⟨?_, ?_⟩
    · rintro e e' slot ⟨ti, base, total, h, -⟩ ⟨ti', base', total', h', -⟩
      exact (honly h).1.trans (honly h').1.symm
    · intro e ti base entries m o h hentries hm ho
      exact (hmember h hentries hm ho).trans (by decide)
  have hexact := (slotArithmetic_exact 40 (structLayout "0" "4")).1 hfits
  exact ⟨hexact, (slotArithmetic_exact 40 (structLayout "0" "4")).2 hlayout hexact⟩

end EvmRecorder
