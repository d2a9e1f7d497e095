import EvmRecorder.Recorder.CarryForward
import EvmRecorder.Recorder.Events
import EvmRecorder.StorageLayout.Lookups

/-!
# Snapshots of arrays and structs

A write to a fixed-size array or an in-place struct is followed by a snapshot of
the whole variable. It is put together from the slots the trace has written so
far; every other element is shown as zero, whatever the contract held there
before the trace.
-/

namespace EvmRecorder

open Bytes Numeral Stack

/-! ## §1  Elements and their slots -/

/-- What a snapshot shows, element by element; other records are none. -/
def ValueRecord.elements? : ValueRecord → Option (List RawValue)
  | .struct fieldValues _ => some fieldValues
  | .sequence elements _ _ => some elements
  | _ => none

/-- The member fills the slot at offset `o` of its struct. -/
def MemberFillsSlot (layout : StorageLayout) (ti : StorageTypeInfo) (member : StorageEntry)
    (o : Nat) : Prop :=
  member.offset = 0 ∧ parseU64 member.slot = some o ∧
    (∃ bytes, parseU64 ti.numberOfBytes = some bytes ∧ o < slotCountOf bytes) ∧
    ∃ memberTi, layout.typeInfo member = some memberTi ∧ memberTi.numberOfBytes = "32"

/-- A compound of type `ti` at the slot `base` has its elements in these slots, each
filling its own. -/
inductive ElementSlots (layout : StorageLayout) (ti : StorageTypeInfo) (base : Nat) :
    List Nat → Prop
  | array {elementType : String} {elementTi : StorageTypeInfo} {n : Nat}
      (hmembers : ti.members = none) (hbase : ti.base = some elementType)
      (helement : layout.types.lookup elementType = some elementTi)
      (hfills : elementTi.numberOfBytes = "32")
      (hbytes : parseU64 ti.numberOfBytes = some (32 * n)) :
      ElementSlots layout ti base ((List.range n).map (base + ·))
  | struct {members : List StorageEntry} {offsets : List Nat}
      (hmembers : ti.members = some members)
      (hfills : List.Forall₂ (MemberFillsSlot layout ti) members offsets) :
      ElementSlots layout ti base (offsets.map (base + ·))

/-- Log `k` writes into the compound `parent`, whose elements fill `slots`. -/
def WritesCompound (structLogs : List StructLog) (layout : StorageLayout) (k : Nat)
    (parent : StorageEntry) (slots : List Nat) : Prop :=
  ∃ log slot value ti slotCount base, structLogs[k]? = some log ∧
    storageWrite log = some (slot, value) ∧
    layout.containingCompound slot.toNat = some (parent, ti, slotCount) ∧
    parseU64 parent.slot = some base ∧ ElementSlots layout ti base slots

/-- The trace has written the slot before log `k`. -/
def WrittenBefore (structLogs : List StructLog) (slot k : Nat) : Prop :=
  ∃ j log value, j < k ∧ structLogs[j]? = some log ∧
    storageWrite log = some (BitVec.ofNat 256 slot, value)

/-- The slots a compound is found by are `u64` slots, up to its last one. -/
theorem containingCompound_range {layout : StorageLayout} {slot slotCount base : Nat}
    {parent : StorageEntry} {ti : StorageTypeInfo}
    (h : layout.containingCompound slot = some (parent, ti, slotCount))
    (hbase : parseU64 parent.slot = some base) :
    layout.typeInfo parent = some ti ∧ slot < 2 ^ 64 ∧ base + slotCount ≤ 2 ^ 64 ∧
      ∃ bytes, parseU64 ti.numberOfBytes = some bytes ∧ slotCount = slotCountOf bytes := by
  obtain ⟨base', hcompound⟩ := compoundAt_of_containingCompound h
  obtain rfl := Option.some.inj (hcompound.starts.symm.trans hbase)
  have hlt := hcompound.lt
  have hfits := hcompound.fits
  exact ⟨hcompound.info, by omega, hfits.le, hcompound.bytes⟩

theorem ElementSlots.lt {layout : StorageLayout} {ti : StorageTypeInfo} {base slotCount : Nat}
    {slots : List Nat} (h : ElementSlots layout ti base slots)
    (hcount : ∃ bytes, parseU64 ti.numberOfBytes = some bytes ∧ slotCount = slotCountOf bytes) :
    ∀ s ∈ slots, s < base + slotCount := by
  obtain ⟨bytes, hbytes, rfl⟩ := hcount
  intro s hs
  cases h with
  | array _ _ _ _ hbytes' =>
      obtain ⟨i, hi, rfl⟩ := List.mem_map.mp hs
      rw [List.mem_range] at hi
      rw [hbytes, Option.some.injEq] at hbytes'
      unfold slotCountOf
      omega
  | struct _ hfills =>
      obtain ⟨o, ho, rfl⟩ := List.mem_map.mp hs
      obtain ⟨i, hi⟩ := List.mem_iff_getElem?.mp ho
      obtain ⟨member, -, -, -, ⟨bytes', hbytes', hlt⟩, -⟩ := getElem?_of_forall₂ hfills.flip hi
      rw [hbytes, Option.some.injEq] at hbytes'
      subst hbytes'
      exact Nat.add_lt_add_left hlt base

/-- A snapshot shows one word for each element, in order. -/
theorem ElementSlots.snapshot {layout : StorageLayout} {ti : StorageTypeInfo}
    {base slotCount : Nat} {slots : List Nat} (h : ElementSlots layout ti base slots)
    (hcount : ∃ bytes, parseU64 ti.numberOfBytes = some bytes ∧ slotCount = slotCountOf bytes)
    (hend : base + slotCount ≤ 2 ^ 64) (values : SlotValues) :
    ∃ record, (buildCompoundValue ti base slotCount values).2 = some record ∧
      record.elements? = some (slots.map (slotValueOrZero values)) := by
  have hslots := h.lt hcount
  have hwrap : ∀ o, base + o ∈ slots → wrappingAddU64 base o = base + o := by
    intro o ho
    have hlt := hslots _ ho
    exact wrappingAddU64_of_lt (by omega)
  unfold buildCompoundValue
  cases h with
  | @array elementType elementTi n hmembers hbase helement hfills hbytes =>
      obtain ⟨bytes, hbytes', rfl⟩ := hcount
      rw [hbytes, Option.some.injEq] at hbytes'
      have hn : slotCountOf bytes = n := by
        unfold slotCountOf
        omega
      rw [hn]
      simp only [hmembers, hbase, Option.isSome_some, if_true]
      refine ⟨_, rfl, ?_⟩
      rw [ValueRecord.elements?, List.map_map, Option.some.injEq]
      refine List.map_congr_left fun o ho => ?_
      rw [Function.comp_apply, hwrap o (List.mem_map.mpr ⟨o, ho, rfl⟩)]
  | @struct members offsets hmembers hfills =>
      have hfields : members.mapM (fun member => (parseU64 member.slot).map fun memberOffset =>
          slotValueOrZero values (wrappingAddU64 base memberOffset)) =
            some (offsets.map fun o => slotValueOrZero values (wrappingAddU64 base o)) := by
        refine mapM_of_forall₂ ?_
        rw [List.forall₂_map_right_iff]
        refine hfills.imp fun member o hmember => ?_
        rw [hmember.2.1, Option.map_some]
      simp only [hmembers, hfields, Option.map_some]
      refine ⟨_, rfl, ?_⟩
      rw [ValueRecord.elements?, List.map_map, Option.some.injEq]
      refine List.map_congr_left fun o ho => ?_
      rw [Function.comp_apply, hwrap o (List.mem_map.mpr ⟨o, ho, rfl⟩)]

/-! ## §2  Slot values and EVM storage -/

theorem toNat_eq_iff {slot : U256} {n : Nat} (hn : n < 2 ^ 64) :
    slot.toNat = n ↔ slot = BitVec.ofNat 256 n := by
  constructor
  · rintro rfl
    rw [BitVec.ofNat_toNat, BitVec.setWidth_eq]
  · rintro rfl
    rw [BitVec.toNat_ofNat, Nat.mod_eq_of_lt (by omega)]

theorem lookup_cacheSlotValue_eq {layout : StorageLayout} (slot value : U256)
    (slotValues : SlotValues) {n : Nat} (hn : n < 2 ^ 64) :
    (cacheSlotValue (some layout) slot value slotValues).lookup n =
      if slot = BitVec.ofNat 256 n then some value else slotValues.lookup n := by
  unfold cacheSlotValue
  rw [parseU64_repr]
  by_cases hslot : slot.toNat = n
  · rw [if_pos (hslot.symm ▸ hn), if_pos ((toNat_eq_iff hn).mp hslot), hslot]
    exact AList.lookup_insert slotValues
  · rw [if_neg (mt (toNat_eq_iff hn).mpr hslot)]
    split
    · next slotU64 _ hparse _ =>
        split at hparse
        · obtain rfl := Option.some.inj hparse
          exact AList.lookup_insert_ne (Ne.symm hslot)
        · cases hparse
    · rfl

/-! ## §3  Runs -/

open Recorder

section Run

variable {keccak256 : List UInt8 → U256} {registered : List Path} {a : Artifacts}
  {structLogs : List StructLog} {layout : StorageLayout} {initial : U256 → U256}
  {failed : Nat → Nat → Bool} {k : Nat}

/-- Before log `k` of a single frame: a slot that is cached has been written, and
holds what is cached; any other slot holds its initial value. -/
structure CachesStorage (structLogs : List StructLog) (initial : U256 → U256) (k : Nat)
    (evm : Nat × Journal U256 U256) (values : SlotValues) : Prop where
  outermost : evm.1 = 1
  current : ∀ n, n < 2 ^ 64 →
    evm.2.current (BitVec.ofNat 256 n) = (values.lookup n).getD (initial (BitVec.ofNat 256 n))
  written : ∀ n, n < 2 ^ 64 → ((values.lookup n).isSome ↔ WrittenBefore structLogs n k)

theorem writtenBefore_succ {log : StructLog} (hlog : structLogs[k]? = some log) (n : Nat) :
    WrittenBefore structLogs n (k + 1) ↔
      (∃ value, storageWrite log = some (BitVec.ofNat 256 n, value)) ∨
        WrittenBefore structLogs n k := by
  constructor
  · rintro ⟨j, log', value, hj, hlog', hwrite⟩
    rcases Nat.lt_succ_iff_lt_or_eq.mp hj with hj | rfl
    · exact .inr ⟨j, log', value, hj, hlog', hwrite⟩
    · rw [hlog, Option.some.injEq] at hlog'
      subst hlog'
      exact .inl ⟨value, hwrite⟩
  · rintro (⟨value, hwrite⟩ | ⟨j, log', value, hj, hlog', hwrite⟩)
    · exact ⟨k, log, value, Nat.lt_succ_self k, hlog, hwrite⟩
    · exact ⟨j, log', value, Nat.lt_succ_of_lt hj, hlog', hwrite⟩

/-- One log: a write goes to the cache and to EVM storage. -/
theorem CachesStorage.step {log : StructLog} (hlog : structLogs[k]? = some log)
    (hdepth : log.depth = 1) {evm : Nat × Journal U256 U256} {values : SlotValues}
    (h : CachesStorage structLogs initial k evm values) :
    CachesStorage structLogs initial (k + 1) (storageStep failed k log evm).1
      (match storageWrite log with
        | some (slot, value) => cacheSlotValue (some layout) slot value values
        | none => values) := by
  have hstay : evm.2.moveTo (failed k) evm.1 log.depth = evm.2 := by
    rw [h.outermost, hdepth]
    rfl
  cases hwrite : storageWrite log with
  | none =>
      refine ⟨hdepth, ?_, ?_⟩
      · intro n hn
        simp only [storageStep, hwrite, hstay]
        exact h.current n hn
      · intro n hn
        rw [writtenBefore_succ hlog, hwrite]
        simpa using h.written n hn
  | some write =>
      obtain ⟨slot, value⟩ := write
      refine ⟨hdepth, ?_, ?_⟩
      · intro n hn
        dsimp only
        rw [lookup_cacheSlotValue_eq slot value values hn]
        simp only [storageStep, hwrite, hstay, Journal.write]
        by_cases hslot : slot = BitVec.ofNat 256 n
        · rw [if_pos hslot, hslot, Function.update_self, Option.getD_some]
        · rw [if_neg hslot, Function.update_of_ne (Ne.symm hslot)]
          exact h.current n hn
      · intro n hn
        dsimp only
        rw [lookup_cacheSlotValue_eq slot value values hn, writtenBefore_succ hlog, hwrite]
        by_cases hslot : slot = BitVec.ofNat 256 n
        · simp [hslot]
        · rw [if_neg hslot, h.written n hn]
          simp [hslot]

theorem cachesStorage_stateBefore (hlayout : a.storageLayout = some layout)
    (hframe : ∀ log ∈ structLogs, log.depth = 1) (hk : k ≤ structLogs.length) :
    CachesStorage structLogs initial k (evmBefore structLogs initial failed k)
      (stateBefore keccak256 registered a structLogs k).slotValues := by
  induction k with
  | zero =>
      refine ⟨rfl, fun n _ => rfl, fun n _ => ?_⟩
      constructor
      · intro h
        cases h
      · rintro ⟨j, -, -, hj, -⟩
        exact absurd hj (Nat.not_lt_zero j)
  | succ k ih =>
      have hlog : structLogs[k]? = some structLogs[k] := List.getElem?_eq_getElem hk
      have hdepth := hframe structLogs[k] (List.mem_of_getElem? hlog)
      rw [evmBefore, Machine.stateBefore_succ hlog, slotValues_stateBefore_succ hlog, hlayout]
      exact (ih (Nat.le_of_lt hk)).step hlog hdepth

/-- The compound a write registers is the snapshot. -/
theorem mem_recordStorageWrite_iff {layout : Option StorageLayout} {names : MappingSlotNames}
    {slot value : U256} {storageState : NamedValues} {slotValues : SlotValues} {label : String}
    {record : ValueRecord} (hrecord : record.elements?.isSome) :
    .registerVariableWithFullValue label record ∈
        (recordStorageWrite layout names slot value storageState slotValues).2.2 ↔
      (writeSnapshot layout slot (cacheSlotValue layout slot value slotValues)).2 =
        some (label, record) := by
  have hsetup : ∀ values,
      .registerVariableWithFullValue label record ∉ (writeSnapshot layout slot values).1 := by
    intro values hmem
    have hkind := issues_writeSnapshot layout slot values _ hmem
    rw [List.mem_singleton] at hkind
    cases hkind
  have hraw : ∀ value', record ≠ .raw value' := by
    rintro value' rfl
    cases hrecord
  unfold recordStorageWrite
  dsimp only
  split
  · next label' compound hsnapshot =>
      rw [hsnapshot]
      simp [hsetup, slotRecord, hraw, eq_comm]
  · next hsnapshot =>
      rw [hsnapshot]
      simp [hsetup, slotRecord, hraw]

/-- A write into a compound registers its elements, each as cached or zero. -/
theorem snapshot_iff (hlayout : a.storageLayout = some layout) {parent : StorageEntry}
    {slots : List Nat} (h : WritesCompound structLogs layout k parent slots)
    {elements : List RawValue} :
    (∃ record, .registerVariableWithFullValue parent.label record ∈
        writeEventsAt keccak256 registered a structLogs k ∧ record.elements? = some elements) ↔
      elements = slots.map (slotValueOrZero
        (stateBefore keccak256 registered a structLogs (k + 1)).slotValues) := by
  obtain ⟨log, slot, value, ti, slotCount, base, hlog, hwrite, hfound, hbase, hslots⟩ := h
  obtain ⟨-, hslot, hend, hcount⟩ := containingCompound_range hfound hbase
  obtain ⟨compound, hbuilt, helements⟩ := hslots.snapshot hcount hend
    (stateBefore keccak256 registered a structLogs (k + 1)).slotValues
  rw [slotValues_stateBefore_succ hlog, hwrite, hlayout] at hbuilt helements ⊢
  dsimp only at hbuilt helements ⊢
  have hsnapshot : (writeSnapshot (some layout) slot (cacheSlotValue (some layout) slot value
      (stateBefore keccak256 registered a structLogs k).slotValues)).2 =
        some (parent.label, compound) := by
    unfold writeSnapshot
    rw [parseU64_repr, if_pos hslot]
    simp only [compoundSnapshot, hfound, hbase, Option.getD_some, hbuilt, Option.map_some]
  have hevents : ∀ record : ValueRecord, record.elements?.isSome →
      (.registerVariableWithFullValue parent.label record ∈
        writeEventsAt keccak256 registered a structLogs k ↔ record = compound) := by
    intro record hrecord
    have hmem := @mem_recordStorageWrite_iff (some layout)
      (recordMappingSlot keccak256 (some layout) log
        (stateBefore keccak256 registered a structLogs k).mappingSlotNames) slot value
      (stateBefore keccak256 registered a structLogs k).storageState
      (stateBefore keccak256 registered a structLogs k).slotValues parent.label record hrecord
    rw [hsnapshot] at hmem
    rw [writeEventsAt, hlog, Option.elim_some, handleStorage, hwrite, hlayout]
    dsimp only
    rw [hmem]
    simp [eq_comm]
  constructor
  · rintro ⟨record, hmem, hrecord⟩
    obtain rfl := (hevents record (hrecord ▸ rfl)).mp hmem
    rw [helements, Option.some.injEq] at hrecord
    exact hrecord.symm
  · rintro rfl
    exact ⟨compound, (hevents compound (helements ▸ rfl)).mpr rfl, helements⟩

/-- The SSTORE block of log `k` registers a compound with these elements, whose slots
are `slots`. -/
def SnapshotAt (keccak256 : List UInt8 → U256) (registered : List Path) (a : Artifacts)
    (structLogs : List StructLog) (layout : StorageLayout) (k : Nat) (slots : List Nat)
    (elements : List RawValue) : Prop :=
  ∃ parent record, WritesCompound structLogs layout k parent slots ∧
    .registerVariableWithFullValue parent.label record ∈
      writeEventsAt keccak256 registered a structLogs k ∧
    record.elements? = some elements

/-- What a snapshot of the elements in `slots` shows when storage holds `storage`. -/
def shownElements (storage : U256 → U256) (slots : List Nat) : List RawValue :=
  slots.map fun s => ⟨hexWord (storage (BitVec.ofNat 256 s)), uint256TypeId⟩

theorem slotValueOrZero_eq_iff {evm : Nat × Journal U256 U256} {values : SlotValues}
    (h : CachesStorage structLogs initial k evm values) {n : Nat} (hn : n < 2 ^ 64) :
    slotValueOrZero values n =
        ⟨hexWord (evm.2.current (BitVec.ofNat 256 n)), uint256TypeId⟩ ↔
      WrittenBefore structLogs n k ∨ initial (BitVec.ofNat 256 n) = 0 := by
  rw [slotValueOrZero, RawValue.mk.injEq, hexWord_injective.eq_iff, h.current n hn,
    ← h.written n hn]
  cases values.lookup n with
  | none =>
      rw [Option.getD_none, Option.getD_none]
      constructor
      · rintro ⟨hzero, -⟩
        exact .inr hzero.symm
      · rintro (hsome | hzero)
        · cases hsome
        · exact ⟨hzero.symm, rfl⟩
  | some value => exact ⟨fun _ => .inl rfl, fun _ => ⟨rfl, rfl⟩⟩

/-- In a single frame all snapshots show EVM storage right after their write, exactly
when every write into a compound finds each of its elements written by the trace
or zero from the start. -/
theorem snapshots_show_storage_iff (hlayout : a.storageLayout = some layout)
    (hframe : ∀ log ∈ structLogs, log.depth = 1) :
    (∀ k slots elements,
      SnapshotAt keccak256 registered a structLogs layout k slots elements →
        elements = shownElements (evmBefore structLogs initial failed (k + 1)).2.current slots) ↔
      ∀ k parent slots, WritesCompound structLogs layout k parent slots → ∀ s ∈ slots,
        WrittenBefore structLogs s (k + 1) ∨ initial (BitVec.ofNat 256 s) = 0 := by
  have hshown : ∀ {k parent slots}, WritesCompound structLogs layout k parent slots →
      (slots.map (slotValueOrZero
          (stateBefore keccak256 registered a structLogs (k + 1)).slotValues) =
        shownElements (evmBefore structLogs initial failed (k + 1)).2.current slots ↔
      ∀ s ∈ slots, WrittenBefore structLogs s (k + 1) ∨ initial (BitVec.ofNat 256 s) = 0) := by
    rintro k parent slots ⟨log, slot, value, ti, slotCount, base, hlog, -, hfound, hbase, hslots⟩
    obtain ⟨-, -, hend, hcount⟩ := containingCompound_range hfound hbase
    have hk : k + 1 ≤ structLogs.length := (List.getElem?_eq_some_iff.mp hlog).1
    have hcache : CachesStorage structLogs initial (k + 1)
        (evmBefore structLogs initial failed (k + 1))
        (stateBefore keccak256 registered a structLogs (k + 1)).slotValues :=
      cachesStorage_stateBefore hlayout hframe hk
    rw [shownElements, List.map_inj_left]
    refine forall₂_congr fun s hs => ?_
    exact slotValueOrZero_eq_iff hcache ((hslots.lt hcount s hs).trans_le hend)
  constructor
  · intro h k parent slots hwrites
    obtain ⟨record, hmem, hrecord⟩ :=
      (@snapshot_iff keccak256 registered a structLogs layout k hlayout parent slots hwrites _).mpr
        rfl
    exact (hshown hwrites).mp (h k slots _ ⟨parent, record, hwrites, hmem, hrecord⟩)
  · rintro h k slots elements ⟨parent, record, hwrites, hmem, hrecord⟩
    rw [(snapshot_iff hlayout hwrites).mp ⟨record, hmem, hrecord⟩]
    exact (hshown hwrites).mpr (h k parent slots hwrites)

end Run

/-! ## §4  An element from before the trace -/

/-- `uint256[3] xs` at slot 0. -/
def arrayLayout : StorageLayout where
  storage := [⟨"xs", "0", 0, "t_array(t_uint256)3_storage"⟩]
  types := [("t_uint256", { encoding := "inplace", label := "uint256", numberOfBytes := "32" }),
    ("t_array(t_uint256)3_storage",
      { encoding := "inplace", label := "uint256[3]", numberOfBytes := "96"
        base := some "t_uint256" })]

/-- `xs[0] = 7`. -/
def arrayWrite : List StructLog :=
  [{ pc := 0, op := "SSTORE", depth := 1, stack := some [7, 0] }]

/-- `xs[1]` is 5 before the trace. -/
def arrayStorage (slot : U256) : U256 := if slot = 1 then 5 else 0

theorem writesCompound_arrayWrite :
    WritesCompound arrayWrite arrayLayout 0 ⟨"xs", "0", 0, "t_array(t_uint256)3_storage"⟩
      ((List.range 3).map (0 + ·)) :=
  ⟨_, 0, 7, _, 3, 0, rfl, rfl, rfl, rfl, .array rfl rfl rfl rfl (by decide)⟩

theorem snapshots_show_storage_iff_arrayWrite :
    (∀ k slots elements,
      SnapshotAt (fun _ => 0) [] { storageLayout := some arrayLayout } arrayWrite arrayLayout k
        slots elements →
      elements = shownElements
        (evmBefore arrayWrite arrayStorage (fun _ _ => false) (k + 1)).2.current slots) ↔
      ∀ k parent slots, WritesCompound arrayWrite arrayLayout k parent slots → ∀ s ∈ slots,
        WrittenBefore arrayWrite s (k + 1) ∨ arrayStorage (BitVec.ofNat 256 s) = 0 :=
  snapshots_show_storage_iff rfl (by decide)

/-- The snapshot of `xs` shows 7, 0, 0, and storage holds 7, 5, 0. -/
theorem snapshot_arrayWrite :
    (∀ log ∈ arrayWrite, log.depth = 1) ∧
      ∃ slots elements,
        SnapshotAt (fun _ => 0) [] { storageLayout := some arrayLayout } arrayWrite arrayLayout 0
          slots elements ∧
        elements ≠ shownElements
          (evmBefore arrayWrite arrayStorage (fun _ _ => false) 1).2.current slots := by
  obtain ⟨record, hmem, hrecord⟩ := (@snapshot_iff (fun _ => 0) []
    { storageLayout := some arrayLayout } arrayWrite arrayLayout 0 rfl _ _
    writesCompound_arrayWrite _).mpr rfl
  refine ⟨by decide, _, _, ⟨_, record, writesCompound_arrayWrite, hmem, hrecord⟩, ?_⟩
  decide

end EvmRecorder
