import EvmRecorder.Model.RecorderParts
import EvmRecorder.StorageLayout.Lookups

/-!
# Variables that fill a slot

Under which name a storage write is cached. A state variable that fills its slot
is cached under its own label by every write to its slot and by no other write,
because every other name is another label, or has a character no identifier has.
-/

namespace EvmRecorder

/-- `e` is the variable of the whole slot `slot`. Labels are identifiers. -/
structure WholeSlot (layout : StorageLayout) (e : StorageEntry) (slot : U256) : Prop where
  mem : e ∈ layout.storage
  slot_eq : e.slot = Nat.repr slot.toNat
  slot_unique : ∀ e' ∈ layout.storage, e'.slot = e.slot → e' = e
  label_unique : ∀ e' ∈ layout.storage, e'.label = e.label → e' = e
  fills : ∃ ti, layout.typeInfo e = some ti ∧ ti.numberOfBytes = "32"
  identifier : '[' ∉ e.label.toList ∧ '.' ∉ e.label.toList

/-- Names of mapping slots have an index. -/
def Indexed (names : MappingSlotNames) : Prop :=
  ∀ slot name, names.lookup slot = some name → '[' ∈ name.toList

theorem bracket_mem_indexedName (name key : String) : '[' ∈ (indexedName name key).toList := by
  simp [indexedName]

theorem indexed_empty : Indexed ∅ := by
  intro slot name h
  cases h

/-- The KECCAK256 block adds indexed names only. -/
theorem Indexed.recordMappingSlot {names : MappingSlotNames} (h : Indexed names)
    (keccak256 : List UInt8 → U256) (layout : Option StorageLayout) (log : StructLog) :
    Indexed (recordMappingSlot keccak256 layout log names) := by
  unfold EvmRecorder.recordMappingSlot
  split
  · next _ _ _ input _ =>
      split
      · next derived hname =>
          have hbracket : '[' ∈ derived.toList := by
            unfold derivedSlotName at hname
            dsimp only at hname
            split at hname
            · cases hname
              exact bracket_mem_indexedName _ _
            · obtain ⟨parent, -, rfl⟩ := Option.map_eq_some_iff.mp hname
              exact bracket_mem_indexedName _ _
          intro slot name hlookup
          by_cases hslot : slot = keccak256 input
          · subst hslot
            rw [AList.lookup_insert, Option.some.injEq] at hlookup
            rw [← hlookup]
            exact hbracket
          · rw [AList.lookup_insert_ne hslot] at hlookup
            exact h slot name hlookup
      · exact h
  · exact h

/-- Where the name of a write comes from: the first of the five sources that has one. -/
inductive NamedBy (layout : StorageLayout) (names : MappingSlotNames) (slot : U256) :
    String → Prop
  | entry {e : StorageEntry} (hentry : layout.resolveSlot (Nat.repr slot.toNat) = some e) :
      NamedBy layout names slot e.label
  | mapping {name : String} (hentry : layout.resolveSlot (Nat.repr slot.toNat) = none)
      (hmapping : names.lookup slot = some name) : NamedBy layout names slot name
  | member {parent field : String} (hentry : layout.resolveSlot (Nat.repr slot.toNat) = none)
      (hmapping : names.lookup slot = none)
      (hmember : (parseU64 (Nat.repr slot.toNat)).bind layout.structMemberAt =
        some (parent, field)) : NamedBy layout names slot (parent ++ "." ++ field)
  | element {parent : String} {i : Nat}
      (hentry : layout.resolveSlot (Nat.repr slot.toNat) = none)
      (hmapping : names.lookup slot = none)
      (hmember : (parseU64 (Nat.repr slot.toNat)).bind layout.structMemberAt = none)
      (helement : (parseU64 (Nat.repr slot.toNat)).bind layout.arrayElementAt = some (parent, i)) :
      NamedBy layout names slot (indexedName parent (toString i))
  | placeholder (hentry : layout.resolveSlot (Nat.repr slot.toNat) = none)
      (hmapping : names.lookup slot = none)
      (hmember : (parseU64 (Nat.repr slot.toNat)).bind layout.structMemberAt = none)
      (helement : (parseU64 (Nat.repr slot.toNat)).bind layout.arrayElementAt = none) :
      NamedBy layout names slot ("storage[" ++ Nat.repr slot.toNat ++ "]")

theorem namedBy_storageVarName (layout : StorageLayout) (names : MappingSlotNames) (slot : U256) :
    NamedBy layout names slot (storageVarName (some layout) names slot) := by
  unfold storageVarName
  dsimp only [Option.bind_some]
  cases hentry : layout.resolveSlot (Nat.repr slot.toNat) with
  | some e => exact .entry hentry
  | none =>
      rw [Option.map_none, Option.orElse_none]
      cases hmapping : names.lookup slot with
      | some name => exact .mapping hentry hmapping
      | none =>
          rw [Option.orElse_none]
          cases hmember : (parseU64 (Nat.repr slot.toNat)).bind layout.structMemberAt with
          | some found => exact .member hentry hmapping hmember
          | none =>
              rw [Option.map_none, Option.orElse_none]
              cases helement : (parseU64 (Nat.repr slot.toNat)).bind layout.arrayElementAt with
              | some found => exact .element hentry hmapping hmember helement
              | none => exact .placeholder hentry hmapping hmember helement

section Names

variable {layout : StorageLayout} {e : StorageEntry} {slot : U256} {names : MappingSlotNames}

theorem WholeSlot.resolveSlot (he : WholeSlot layout e slot) :
    layout.resolveSlot (Nat.repr slot.toNat) = some e := by
  unfold StorageLayout.resolveSlot
  cases hfind : layout.storage.find? (·.slot = Nat.repr slot.toNat) with
  | none =>
      have hnone := List.find?_eq_none.mp hfind e he.mem
      simp [he.slot_eq] at hnone
  | some e' =>
      have hslot : e'.slot = Nat.repr slot.toNat := by simpa using List.find?_some hfind
      rw [he.slot_unique e' (List.mem_of_find?_eq_some hfind) (hslot.trans he.slot_eq.symm)]

/-- Writes to the slot are named by the label. -/
theorem WholeSlot.storageVarName_self (he : WholeSlot layout e slot) (names : MappingSlotNames) :
    storageVarName (some layout) names slot = e.label := by
  simp [storageVarName, he.resolveSlot]

/-- Writes to other slots are not. -/
theorem WholeSlot.storageVarName_ne (he : WholeSlot layout e slot) (hnames : Indexed names)
    {other : U256} (hother : other ≠ slot) :
    storageVarName (some layout) names other ≠ e.label := by
  have hbracket : ∀ name : String, '[' ∈ name.toList → name ≠ e.label := by
    rintro name hname rfl
    exact he.identifier.1 hname
  have hnamed := namedBy_storageVarName layout names other
  generalize storageVarName (some layout) names other = name at hnamed ⊢
  cases hnamed with
  | @entry e' hresolve =>
      intro hlabel
      have hmem : e' ∈ layout.storage := List.mem_of_find?_eq_some hresolve
      have hslot : e'.slot = Nat.repr other.toNat := by simpa using List.find?_some hresolve
      rw [he.label_unique e' hmem hlabel, he.slot_eq] at hslot
      exact hother (BitVec.eq_of_toNat_eq (Numeral.repr_inj.mp hslot).symm)
  | mapping _ hmapping => exact hbracket name (hnames other name hmapping)
  | member _ _ _ =>
      intro hlabel
      have hdot : '.' ∈ e.label.toList := by
        rw [← hlabel]
        simp
      exact he.identifier.2 hdot
  | element _ _ _ _ => exact hbracket _ (bracket_mem_indexedName _ _)
  | placeholder _ _ _ _ => exact hbracket _ (by simp)

/-- A compound is an entry of more than one slot. -/
theorem containingCompound_spec {slotU64 slotCount : Nat} {parent : StorageEntry}
    {parentTi : StorageTypeInfo}
    (h : layout.containingCompound slotU64 = some (parent, parentTi, slotCount)) :
    parent ∈ layout.storage ∧ layout.typeInfo parent = some parentTi ∧
      ∃ bytes, parseU64 parentTi.numberOfBytes = some bytes ∧ 1 < slotCountOf bytes := by
  obtain ⟨base, hcompound⟩ := compoundAt_of_containingCompound h
  obtain ⟨bytes, hbytes, hcount⟩ := hcompound.bytes
  exact ⟨hcompound.mem, hcompound.info, bytes, hbytes, hcount ▸ hcompound.more⟩

/-- No compound snapshot has the label: compounds take more than one slot. -/
theorem WholeSlot.snapshot_ne (he : WholeSlot layout e slot) {other : U256}
    {slotValues : SlotValues} {label : String} {compound : ValueRecord}
    (h : (writeSnapshot (some layout) other slotValues).2 = some (label, compound)) :
    label ≠ e.label := by
  unfold writeSnapshot at h
  split at h
  · next slotU64 layout' _ hlayout =>
      obtain rfl : layout = layout' := Option.some.inj hlayout
      unfold compoundSnapshot at h
      split at h
      · next parent parentTi slotCount hcompound =>
          obtain ⟨value, -, hpair⟩ := Option.map_eq_some_iff.mp h
          obtain ⟨rfl, -⟩ := Prod.mk.inj hpair
          intro hlabel
          -- the parent would be `e`, which takes one slot
          obtain ⟨hmem, hti, bytes, hbytes, hcount⟩ := containingCompound_spec hcompound
          obtain ⟨ti, hti', hfills⟩ := he.fills
          rw [he.label_unique parent hmem hlabel, hti', Option.some.injEq] at hti
          rw [← hti, hfills] at hbytes
          have hthirtytwo : parseU64 "32" = some 32 := by decide
          rw [hthirtytwo, Option.some.injEq] at hbytes
          rw [← hbytes] at hcount
          exact absurd hcount (by decide)
      · cases h
  · cases h

/-- The value cached under the label after a write. -/
theorem WholeSlot.lookup_recordStorageWrite (he : WholeSlot layout e slot)
    (hnames : Indexed names) (other value : U256) (storageState : NamedValues)
    (slotValues : SlotValues) :
    (recordStorageWrite (some layout) names other value storageState slotValues).1.lookup e.label =
      if other = slot then some (slotRecord (some layout) slot value)
      else storageState.lookup e.label := by
  have hname : (storageState.insert (storageVarName (some layout) names other)
      (slotRecord (some layout) other value)).lookup e.label =
        if other = slot then some (slotRecord (some layout) slot value)
        else storageState.lookup e.label := by
    by_cases hslot : other = slot
    · subst hslot
      rw [if_pos rfl, he.storageVarName_self, AList.lookup_insert]
    · rw [if_neg hslot, AList.lookup_insert_ne (he.storageVarName_ne hnames hslot).symm]
  unfold recordStorageWrite
  dsimp only
  split
  · next label compound hsnapshot =>
      rw [AList.lookup_insert_ne (he.snapshot_ne hsnapshot).symm, hname]
  · exact hname

end Names

end EvmRecorder
