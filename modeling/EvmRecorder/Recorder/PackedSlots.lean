import EvmRecorder.Model.MapOrders
import EvmRecorder.Recorder.CompoundSnapshots
import EvmRecorder.Recorder.MappingSlots

/-!
# Packed slots

Variables smaller than a word share slots: a layout gives each its byte offset
and its size. The recorder reads neither. A write is recorded once, as the whole
word, under the name of the first variable of its slot, and a recording is the
same for all layouts that differ in offsets only.
-/

namespace EvmRecorder

open Bytes Numeral

/-! ## §1  Layouts without offsets -/

def StorageEntry.withoutOffset (self : StorageEntry) : StorageEntry := { self with offset := 0 }

def StorageTypeInfo.withoutOffsets (self : StorageTypeInfo) : StorageTypeInfo :=
  { self with members := self.members.map (·.map (·.withoutOffset)) }

def StorageLayout.withoutOffsets (self : StorageLayout) : StorageLayout where
  storage := self.storage.map (·.withoutOffset)
  types := self.types.map fun t => (t.1, t.2.withoutOffsets)

theorem lookup_map_snd {α β γ : Type} [BEq α] (f : β → γ) (x : α) :
    ∀ entries : List (α × β),
      (entries.map fun e => (e.1, f e.2)).lookup x = (entries.lookup x).map f
  | [] => rfl
  | (y, b) :: entries => by
      rw [List.map_cons, List.lookup_cons, List.lookup_cons, lookup_map_snd f x entries]
      cases x == y <;> rfl

namespace StorageLayout

variable (self : StorageLayout)

theorem typeInfo_withoutOffsets (entry : StorageEntry) :
    self.withoutOffsets.typeInfo entry.withoutOffset =
      (self.typeInfo entry).map (·.withoutOffsets) :=
  lookup_map_snd _ _ _

theorem resolveSlot_withoutOffsets (slot : String) :
    self.withoutOffsets.resolveSlot slot = (self.resolveSlot slot).map (·.withoutOffset) :=
  List.find?_map

theorem structMemberAt_withoutOffsets (slot : Nat) :
    self.withoutOffsets.structMemberAt slot = self.structMemberAt slot := by
  unfold structMemberAt withoutOffsets
  rw [List.findSome?_map]
  congr 1
  funext entry
  have hti := self.typeInfo_withoutOffsets entry
  unfold withoutOffsets at hti
  rw [Function.comp_apply, hti]
  cases self.typeInfo entry with
  | none => rfl
  | some ti =>
      cases hmembers : ti.members with
      | none => simp [StorageTypeInfo.withoutOffsets, StorageEntry.withoutOffset, hmembers]
      | some members =>
          simp only [Option.bind_eq_bind, Option.bind_some, Option.map_some, hmembers,
            StorageTypeInfo.withoutOffsets, List.findSome?_map]
          rfl

theorem arrayElementAt_withoutOffsets (slot : Nat) :
    self.withoutOffsets.arrayElementAt slot = self.arrayElementAt slot := by
  unfold arrayElementAt withoutOffsets
  rw [List.findSome?_map]
  congr 1
  funext entry
  have hti := self.typeInfo_withoutOffsets entry
  unfold withoutOffsets at hti
  rw [Function.comp_apply, hti]
  cases self.typeInfo entry <;> rfl

theorem mappingAtBase_withoutOffsets (baseSlot : Nat) :
    self.withoutOffsets.mappingAtBase baseSlot = self.mappingAtBase baseSlot := by
  have htypes : ∀ id, ((self.types.map fun t => (t.1, t.2.withoutOffsets)).lookup id).map (·.label) =
      (self.types.lookup id).map (·.label) := by
    intro id
    rw [lookup_map_snd, Option.map_map]
    rfl
  unfold mappingAtBase withoutOffsets
  rw [List.findSome?_map]
  congr 1
  funext entry
  have hti := self.typeInfo_withoutOffsets entry
  unfold withoutOffsets at hti
  rw [Function.comp_apply, hti]
  simp only [htypes]
  cases self.typeInfo entry <;> rfl

theorem containingCompound_withoutOffsets (slot : Nat) :
    self.withoutOffsets.containingCompound slot = (self.containingCompound slot).map
      fun (entry, ti, slotCount) => (entry.withoutOffset, ti.withoutOffsets, slotCount) := by
  unfold containingCompound withoutOffsets
  rw [List.findSome?_map, List.map_findSome?]
  congr 1
  funext entry
  have hti := self.typeInfo_withoutOffsets entry
  unfold withoutOffsets at hti
  rw [Function.comp_apply, Function.comp_apply, hti]
  have hmembers : ∀ ti : StorageTypeInfo, ti.withoutOffsets.members.isNone = ti.members.isNone :=
    fun ti => Option.isNone_map
  have hslot : entry.withoutOffset.slot = entry.slot := rfl
  rw [hslot]
  cases parseU64 entry.slot with
  | none => rfl
  | some base =>
      cases self.typeInfo entry with
      | none => rfl
      | some ti =>
          have hbytes : ti.withoutOffsets.numberOfBytes = ti.numberOfBytes := rfl
          have hencoding : ti.withoutOffsets.encoding = ti.encoding := rfl
          have helement : ti.withoutOffsets.base = ti.base := rfl
          simp only [Option.bind_eq_bind, Option.bind_some, Option.map_some, hbytes, hencoding,
            helement, hmembers]
          cases parseU64 ti.numberOfBytes with
          | none => rfl
          | some bytes =>
              simp only [Option.bind_some]
              split_ifs <;> rfl

end StorageLayout

theorem buildCompoundValue_withoutOffsets (ti : StorageTypeInfo) (baseSlot slotCount : Nat)
    (slotValues : SlotValues) :
    buildCompoundValue ti.withoutOffsets baseSlot slotCount slotValues =
      buildCompoundValue ti baseSlot slotCount slotValues := by
  cases hmembers : ti.members with
  | none => simp [buildCompoundValue, StorageTypeInfo.withoutOffsets, hmembers]
  | some members =>
      simp only [buildCompoundValue, StorageTypeInfo.withoutOffsets, hmembers, Option.map_some,
        List.mapM_map]
      rfl

/-! ## §2  The blocks do not see offsets -/

section Blocks

variable (layout : StorageLayout)

theorem recordMappingSlot_withoutOffsets (keccak256 : List UInt8 → U256) (log : StructLog)
    (names : MappingSlotNames) :
    recordMappingSlot keccak256 (some layout.withoutOffsets) log names =
      recordMappingSlot keccak256 (some layout) log names := by
  have hlookup : layout.withoutOffsets.mappingAtBase = layout.mappingAtBase :=
    funext layout.mappingAtBase_withoutOffsets
  cases hinput : keccakInput log with
  | none => simp only [recordMappingSlot, hinput]
  | some input => simp only [recordMappingSlot, derivedSlotName, hinput, hlookup]

theorem storageVarName_withoutOffsets (names : MappingSlotNames) (slot : U256) :
    storageVarName (some layout.withoutOffsets) names slot =
      storageVarName (some layout) names slot := by
  have hmember : layout.withoutOffsets.structMemberAt = layout.structMemberAt :=
    funext layout.structMemberAt_withoutOffsets
  have harray : layout.withoutOffsets.arrayElementAt = layout.arrayElementAt :=
    funext layout.arrayElementAt_withoutOffsets
  simp only [storageVarName, Option.bind_some, layout.resolveSlot_withoutOffsets, Option.map_map,
    hmember, harray]
  rfl

theorem storageTypeName_withoutOffsets (slot : U256) :
    storageTypeName (some layout.withoutOffsets) slot = storageTypeName (some layout) slot := by
  simp only [storageTypeName, Option.bind_some, layout.resolveSlot_withoutOffsets]
  cases layout.resolveSlot (Nat.repr slot.toNat) with
  | none => rfl
  | some entry =>
      rw [Option.map_some, Option.bind_some, Option.bind_some, layout.typeInfo_withoutOffsets,
        Option.map_map]
      rfl

theorem compoundSnapshot_withoutOffsets (slotU64 : Nat) (slotValues : SlotValues) :
    compoundSnapshot layout.withoutOffsets slotU64 slotValues =
      compoundSnapshot layout slotU64 slotValues := by
  unfold compoundSnapshot
  rw [layout.containingCompound_withoutOffsets]
  cases layout.containingCompound slotU64 with
  | none => rfl
  | some found =>
      obtain ⟨parent, ti, slotCount⟩ := found
      simp only [Option.map_some, buildCompoundValue_withoutOffsets]
      rfl

theorem recordStorageWrite_withoutOffsets (names : MappingSlotNames) (slot value : U256)
    (storageState : NamedValues) (slotValues : SlotValues) :
    recordStorageWrite (some layout.withoutOffsets) names slot value storageState slotValues =
      recordStorageWrite (some layout) names slot value storageState slotValues := by
  have hcache : cacheSlotValue (some layout.withoutOffsets) slot value slotValues =
      cacheSlotValue (some layout) slot value slotValues := by
    unfold cacheSlotValue
    cases parseU64 (Nat.repr slot.toNat) <;> rfl
  have hsnapshot : ∀ values, writeSnapshot (some layout.withoutOffsets) slot values =
      writeSnapshot (some layout) slot values := by
    intro values
    unfold writeSnapshot
    cases parseU64 (Nat.repr slot.toNat) with
    | none => rfl
    | some slotU64 => exact compoundSnapshot_withoutOffsets layout slotU64 values
  unfold recordStorageWrite slotRecord
  simp only [storageVarName_withoutOffsets, storageTypeName_withoutOffsets, hcache, hsnapshot]

end Blocks

namespace Recorder

/-- Two layouts that agree up to offsets give one recording, in whatever order the cache
is walked. -/
theorem recordFromStructlogIn_withoutOffsets (orders : Nat → MapOrder)
    (keccak256 : List UInt8 → U256) (registered : List Path) (a : Artifacts)
    (layout : StorageLayout) (structLogs : List StructLog) :
    recordFromStructlogIn orders keccak256 registered
        { a with storageLayout := some layout.withoutOffsets } structLogs =
      recordFromStructlogIn orders keccak256 registered { a with storageLayout := some layout }
        structLogs := by
  have hstep : step keccak256 { a with storageLayout := some layout.withoutOffsets }
        (mainPathOf a.sourcePaths) structLogs =
      step keccak256 { a with storageLayout := some layout } (mainPathOf a.sourcePaths)
        structLogs := by
    funext i log s
    have hlocated : handleLocation { a with storageLayout := some layout.withoutOffsets }
          (mainPathOf a.sourcePaths) structLogs i log (enterDepth log s) =
        handleLocation { a with storageLayout := some layout } (mainPathOf a.sourcePaths)
          structLogs i log (enterDepth log s) := rfl
    have hstored : ∀ s', handleStorage keccak256
          { a with storageLayout := some layout.withoutOffsets } log s' =
        handleStorage keccak256 { a with storageLayout := some layout } log s' := by
      intro s'
      simp only [handleStorage, recordMappingSlot_withoutOffsets,
        recordStorageWrite_withoutOffsets]
    unfold step
    dsimp only
    rw [hlocated, hstored]
    rfl
  unfold recordFromStructlogIn stepIn
  dsimp only
  rw [hstep]
  rfl

end Recorder

/-! ## §3  What a write records -/

/-- The variables registered with a word as their value. -/
def rawVariables (events : List TraceEvent) : List (String × RawValue) :=
  events.filterMap fun
    | .registerVariableWithFullValue name (.raw value) => some (name, value)
    | _ => none

section Names

variable {layout : StorageLayout}

/-- A slot with entries is named after the first of them. -/
theorem storageVarName_entry {names : MappingSlotNames} {slot : U256}
    {pre post : List StorageEntry} {e : StorageEntry} (hstorage : layout.storage = pre ++ e :: post)
    (hslot : e.slot = Nat.repr slot.toNat) (hfirst : ∀ e' ∈ pre, e'.slot ≠ e.slot) :
    storageVarName (some layout) names slot = e.label := by
  have hresolve : layout.resolveSlot (Nat.repr slot.toNat) = some e := by
    rw [StorageLayout.resolveSlot, List.find?_eq_some_iff_append]
    refine ⟨by simpa using hslot, pre, post, hstorage, fun e' he' => ?_⟩
    simpa [← hslot] using hfirst e' he'
  simp [storageVarName, hresolve]

/-- Without entry or mapping name, a slot is named after a struct member in it. -/
theorem storageVarName_member {names : MappingSlotNames} {slot : U256} {e m : StorageEntry}
    (hentries : ∀ e ∈ layout.storage, e.slot ≠ Nat.repr slot.toNat) (hnames : slot ∉ names)
    (h : MemberAt layout e m slot.toNat) :
    ∃ e m, MemberAt layout e m slot.toNat ∧
      storageVarName (some layout) names slot = e.label ++ "." ++ m.label := by
  have hresolve : layout.resolveSlot (Nat.repr slot.toNat) = none := by
    rw [StorageLayout.resolveSlot, List.find?_eq_none]
    intro e he
    simpa using hentries e he
  have hlookup : names.lookup slot = none := AList.lookup_eq_none.mpr hnames
  obtain ⟨found, hfound⟩ := Option.isSome_iff_exists.mp h.structMemberAt_isSome
  obtain ⟨e', m', hmember, rfl⟩ := structMemberAt_spec hfound
  have hparse := parseU64_repr_eq_some_iff.mpr ⟨rfl, h.slot_lt⟩
  refine ⟨e', m', hmember, ?_⟩
  simp [storageVarName, hresolve, hlookup, hparse, hfound]

end Names

theorem compoundSnapshot_elements {layout : Option StorageLayout} {slot : U256}
    {slotValues : SlotValues} {label : String} {record : ValueRecord}
    (h : (writeSnapshot layout slot slotValues).2 = some (label, record)) :
    record.elements?.isSome := by
  unfold writeSnapshot at h
  split at h
  · unfold compoundSnapshot at h
    split at h
    · obtain ⟨compound, hbuilt, hpair⟩ := Option.map_eq_some_iff.mp h
      obtain ⟨-, rfl⟩ := Prod.mk.inj hpair
      unfold buildCompoundValue at hbuilt
      split at hbuilt
      · obtain ⟨fields, -, rfl⟩ := Option.map_eq_some_iff.mp hbuilt
        rfl
      · split at hbuilt
        · obtain rfl := Option.some.inj hbuilt
          rfl
        · cases hbuilt
    · cases h
  · cases h

/-- One variable is registered with a word, and it is the whole word. -/
theorem rawVariables_recordStorageWrite (layout : Option StorageLayout) (names : MappingSlotNames)
    (slot value : U256) (storageState : NamedValues) (slotValues : SlotValues) :
    rawVariables (recordStorageWrite layout names slot value storageState slotValues).2.2 =
      [(storageVarName layout names slot,
        ⟨hexWord value, ⟨.int, storageTypeName layout slot⟩⟩)] := by
  have hsetup : ∀ values, rawVariables (writeSnapshot layout slot values).1 = [] := fun values =>
    (issues_writeSnapshot layout slot values).filterMap_eq_nil (by
      intro e he
      cases e <;> first | rfl | cases List.mem_singleton.mp he)
  unfold recordStorageWrite
  dsimp only
  split
  · next label record hsnapshot =>
      have helements := compoundSnapshot_elements hsnapshot
      have hrecord : rawVariables [.registerVariableWithFullValue label record] = [] := by
        cases record with
        | raw value => cases helements
        | _ => rfl
      simp only [rawVariables, List.filterMap_append] at hrecord hsetup ⊢
      rw [hsetup, hrecord]
      rfl
  · simp only [rawVariables, List.filterMap_append] at hsetup ⊢
    rw [hsetup]
    rfl

open Recorder

/-- A write is recorded as one variable with the whole word, under the name of the
first entry of its slot or of a struct member in it, and no recording depends
on offsets, in whatever order its cache is walked. -/
theorem slot_recorded_whole (keccak256 : List UInt8 → U256) (registered : List Path)
    (a : Artifacts) (structLogs : List StructLog) {layout : StorageLayout}
    (hlayout : a.storageLayout = some layout) :
    (∀ k log slot word, structLogs[k]? = some log → storageWrite log = some (slot, word) →
      ∃ name typeId,
        rawVariables (writeEventsAt keccak256 registered a structLogs k) =
          [(name, ⟨hexWord word, typeId⟩)] ∧
        (∀ pre e post, layout.storage = pre ++ e :: post → e.slot = Nat.repr slot.toNat →
          (∀ e' ∈ pre, e'.slot ≠ e.slot) → name = e.label) ∧
        ((∀ e ∈ layout.storage, e.slot ≠ Nat.repr slot.toNat) →
          slot ∉ namesBefore keccak256 registered a structLogs (k + 1) →
          (∃ e m, MemberAt layout e m slot.toNat) →
            ∃ e m, MemberAt layout e m slot.toNat ∧ name = e.label ++ "." ++ m.label)) ∧
    ∀ layout', layout'.withoutOffsets = layout.withoutOffsets → ∀ orders : Nat → MapOrder,
      recordFromStructlogIn orders keccak256 registered { a with storageLayout := some layout' }
          structLogs =
        recordFromStructlogIn orders keccak256 registered a structLogs := by
  constructor
  · intro k log slot word hlog hwrite
    refine ⟨storageVarName (some layout)
      (namesBefore keccak256 registered a structLogs (k + 1)) slot,
      ⟨.int, storageTypeName (some layout) slot⟩, ?_, ?_, ?_⟩
    · rw [writeEventsAt, hlog, Option.elim_some, handleStorage, hwrite, hlayout,
        namesBefore_succ hlayout hlog]
      exact rawVariables_recordStorageWrite _ _ _ _ _ _
    · intro pre e post hstorage hslot hfirst
      exact storageVarName_entry hstorage hslot hfirst
    · rintro hentries hnames ⟨e, m, hmember⟩
      exact storageVarName_member hentries hnames hmember
  · intro layout' hoffsets orders
    have hself : a = { a with storageLayout := some layout } := by
      rw [← hlayout]
    rw [hself]
    have hleft := recordFromStructlogIn_withoutOffsets orders keccak256 registered a layout'
      structLogs
    have hright := recordFromStructlogIn_withoutOffsets orders keccak256 registered a layout
      structLogs
    rw [hoffsets] at hleft
    exact hleft.symm.trans hright

/-! ## §4  Two halves of a slot -/

/-- `uint128 low; uint128 high;` in slot 0. -/
def packedLayout : StorageLayout where
  storage := [⟨"low", "0", 0, "t_uint128"⟩, ⟨"high", "0", 16, "t_uint128"⟩]
  types := [("t_uint128", { encoding := "inplace", label := "uint128", numberOfBytes := "16" })]

/-- `low` is 5 and `high` is 3. -/
def packedWord : U256 := 3 * 2 ^ 128 + 5

def packedWrite : List StructLog :=
  [{ pc := 0, op := "SSTORE", depth := 1, stack := some [packedWord, 0] }]

/-- `size` bytes of a word, from `offset` bytes above its low end. -/
def packedValue (word : U256) (offset size : Nat) : U256 :=
  BitVec.ofNat 256 (word.toNat / 256 ^ offset % 256 ^ size)

/-- Each variable of the slot is registered with its own bytes of the word. -/
def RecordsPacked (layout : StorageLayout) (events : List TraceEvent) (slot word : U256) : Prop :=
  ∀ e ∈ layout.storage, e.slot = Nat.repr slot.toNat → ∀ ti size, layout.typeInfo e = some ti →
    parseU64 ti.numberOfBytes = some size → ∃ typeId,
      (e.label, ⟨hexWord (packedValue word e.offset size), typeId⟩) ∈ rawVariables events

theorem slot_recorded_whole_packedWrite :
    ∃ name typeId,
      rawVariables (writeEventsAt (fun _ => 0) [] { storageLayout := some packedLayout }
        packedWrite 0) = [(name, ⟨hexWord packedWord, typeId⟩)] ∧ name = "low" := by
  obtain ⟨hwrites, -⟩ := slot_recorded_whole (fun _ => 0) []
    { storageLayout := some packedLayout } packedWrite rfl
  obtain ⟨name, typeId, hrecorded, hentry, -⟩ := hwrites 0 _ 0 packedWord rfl rfl
  refine ⟨name, typeId, hrecorded, ?_⟩
  exact hentry [] ⟨"low", "0", 0, "t_uint128"⟩ [⟨"high", "0", 16, "t_uint128"⟩] rfl rfl (by simp)

/-- `high` is not recorded. -/
theorem packed_unrecorded :
    storageWrite ({ pc := 0, op := "SSTORE", depth := 1, stack := some [packedWord, 0] }) =
        some (0, packedWord) ∧
      ¬ RecordsPacked packedLayout (writeEventsAt (fun _ => 0) []
        { storageLayout := some packedLayout } packedWrite 0) 0 packedWord := by
  refine ⟨rfl, fun h => ?_⟩
  obtain ⟨typeId, hmem⟩ := h ⟨"high", "0", 16, "t_uint128"⟩ (by decide) rfl _ 16 rfl (by decide)
  have hrecorded : (rawVariables (writeEventsAt (fun _ => 0) []
      { storageLayout := some packedLayout } packedWrite 0)).map (·.1) = ["low"] := by
    decide +kernel
  have hname : "high" ∈ ["low"] := by
    rw [← hrecorded]
    exact List.mem_map.mpr ⟨_, hmem, rfl⟩
  exact absurd hname (by decide)

end EvmRecorder
