import EvmRecorder.Recorder.MappingSlots

/-!
# Mapping slots told apart by their names

The storage cache is keyed by name, so two slots with one name share an entry. A
name can be read back from its last bracket on, and keys printed in full are
told apart; a key printed as an address shows 20 of its 32 bytes. Names are
therefore injective exactly when no two keys hashed with one slot differ in the
12 bytes that are left out.
-/

namespace EvmRecorder

open Bytes Numeral

/-! ## §1  Reading a name back -/

theorem toList_indexedName (name key : String) :
    (indexedName name key).toList = (name.toList ++ '[' :: key.toList) ++ [']'] := by
  simp [indexedName]

/-- The last bracket splits a list. -/
theorem append_cons_inj_right {α : Type} {c : α} {xs xs' ys ys' : List α}
    (h : xs ++ c :: ys = xs' ++ c :: ys') (hys : c ∉ ys) (hys' : c ∉ ys') :
    xs = xs' ∧ ys = ys' := by
  rcases List.append_eq_append_iff.mp h with ⟨zs, rfl, hzs⟩ | ⟨zs, rfl, hzs⟩
  · cases zs with
    | nil => exact ⟨(List.append_nil xs).symm, (List.cons.inj hzs).2⟩
    | cons z zs =>
        obtain ⟨-, rfl⟩ := List.cons.inj hzs
        exact absurd (List.mem_append_right zs List.mem_cons_self) hys
  · cases zs with
    | nil => exact ⟨List.append_nil xs', (List.cons.inj hzs).2.symm⟩
    | cons z zs =>
        obtain ⟨-, rfl⟩ := List.cons.inj hzs
        exact absurd (List.mem_append_right zs List.mem_cons_self) hys'

theorem indexedName_inj {name name' key key' : String} (hkey : '[' ∉ key.toList)
    (hkey' : '[' ∉ key'.toList) (h : indexedName name key = indexedName name' key') :
    name = name' ∧ key = key' := by
  have hchars := congrArg String.toList h
  rw [toList_indexedName, toList_indexedName] at hchars
  obtain ⟨hchars, -⟩ := List.append_singleton_inj.mp hchars
  obtain ⟨hname, hkeys⟩ := append_cons_inj_right hchars hkey hkey'
  exact ⟨String.toList_inj.mp hname, String.toList_inj.mp hkeys⟩

/-- Keys of this type are printed by their low 20 bytes. -/
def IsAddressType (keyType : String) : Prop := keyType = "address" ∨ keyType = "address payable"

instance (keyType : String) : Decidable (IsAddressType keyType) :=
  inferInstanceAs (Decidable (_ ∨ _))

theorem isAddressType_address : IsAddressType "address" := .inl rfl

theorem bracket_not_mem_formatMappingKey (keyType : String) (key : List UInt8) :
    '[' ∉ (formatMappingKey keyType key).toList := by
  have hdigits : ∀ d < 16, '[' ≠ Nat.digitChar d := by decide
  have hx : '[' ≠ 'x' := by decide
  unfold formatMappingKey
  split
  · exact not_mem_hexDump hx hdigits _
  · split
    · exact not_mem_hexWord hx hdigits _
    · exact not_mem_hexDump hx hdigits _

/-- A name under brackets shows the name it is put on and the printed key. -/
theorem indexedKey_inj {name name' keyType keyType' : String} {key key' : List UInt8}
    (h : indexedName name (formatMappingKey keyType key) =
      indexedName name' (formatMappingKey keyType' key')) :
    name = name' ∧ formatMappingKey keyType key = formatMappingKey keyType' key' :=
  indexedName_inj (bracket_not_mem_formatMappingKey _ _) (bracket_not_mem_formatMappingKey _ _) h

theorem formatMappingKey_address {keyType : String} {key key' : List UInt8}
    (h : IsAddressType keyType) :
    formatMappingKey keyType key = formatMappingKey keyType key' ↔ key.drop 12 = key'.drop 12 := by
  unfold IsAddressType at h
  rw [formatMappingKey, formatMappingKey, if_pos h, if_pos h]
  constructor
  · exact hexDump_inj
  · intro hdrop
    rw [hdrop]

/-- Keys of any other type are printed in full. -/
theorem formatMappingKey_full {keyType : String} {key key' : List UInt8}
    (h : ¬ IsAddressType keyType) (hkey : key.length = 32) (hkey' : key'.length = 32)
    (hformat : formatMappingKey keyType key = formatMappingKey keyType key') : key = key' := by
  unfold IsAddressType at h
  rw [formatMappingKey, formatMappingKey, if_neg h, if_neg h] at hformat
  split at hformat
  · have hword := hexWord_injective hformat
    rw [← wordBytes_wordOfBytes hkey, ← wordBytes_wordOfBytes hkey', hword]
  · exact hexDump_inj hformat

/-! ## §2  Chains -/

section Chains

variable {keccak256 : List UInt8 → U256} {layout : StorageLayout} {structLogs : List StructLog}
  {k k' : Nat} {slot slot' : U256} {m m' : String × String} {keys keys' : List (List UInt8)}

/-- The inputs the trace hashes do not collide. -/
def NoCollision (keccak256 : List UInt8 → U256) (structLogs : List StructLog) : Prop :=
  ∀ log ∈ structLogs, ∀ log' ∈ structLogs, ∀ input input', Hashes log input →
    Hashes log' input' → keccak256 input = keccak256 input' → input = input'

/-- A key hashed with `base` at log `k` is printed as an address: it is a key of an
address-keyed mapping, or of a mapping inside a mapping. -/
def PrintedAsAddress (keccak256 : List UInt8 → U256) (layout : StorageLayout)
    (structLogs : List StructLog) (k : Nat) (base : U256) : Prop :=
  match declaredAt layout base with
  | some (_, keyType) => IsAddressType keyType
  | none => ∃ m keys, MappingSlot keccak256 layout structLogs k base m keys

/-- Keys hashed with one slot and printed as addresses differ in the 20 bytes of
an address. -/
def AddressKeysDiffer (keccak256 : List UInt8 → U256) (layout : StorageLayout)
    (structLogs : List StructLog) : Prop :=
  ∀ i j key key' base, HashedAt structLogs i key base → HashedAt structLogs j key' base →
    PrintedAsAddress keccak256 layout structLogs i base →
    PrintedAsAddress keccak256 layout structLogs j base →
    key.drop 12 = key'.drop 12 → key = key'

theorem NoCollision.hashedAt (h : NoCollision keccak256 structLogs) {i j : Nat}
    {key key' : List UInt8} {base base' : U256} (hkey : HashedAt structLogs i key base)
    (hkey' : HashedAt structLogs j key' base')
    (hdigest : keccak256 (key ++ wordBytes base) = keccak256 (key' ++ wordBytes base')) :
    key = key' ∧ base = base' := by
  obtain ⟨hlength, log, hlog, hhash⟩ := hkey
  obtain ⟨hlength', log', hlog', hhash'⟩ := hkey'
  have hinputs := h log (List.mem_of_getElem? hlog) log' (List.mem_of_getElem? hlog') _ _
    hhash hhash' hdigest
  obtain ⟨hkeys, hbases⟩ := List.append_inj hinputs (hlength.trans hlength'.symm)
  exact ⟨hkeys, wordBytes_injective hbases⟩

/-- A slot has one chain. -/
theorem MappingSlot.unique (hkeccak : NoCollision keccak256 structLogs)
    (h : MappingSlot keccak256 layout structLogs k slot m keys)
    (h' : MappingSlot keccak256 layout structLogs k' slot m' keys') : m = m' ∧ keys = keys' := by
  generalize hslot : slot = slot' at h'
  induction h generalizing k' slot' m' keys' with
  | direct hjk hhash hdeclared =>
      cases h' with
      | direct hjk' hhash' hdeclared' =>
          obtain ⟨rfl, rfl⟩ := hkeccak.hashedAt hhash hhash' hslot
          rw [hdeclared, Option.some.injEq] at hdeclared'
          exact ⟨hdeclared', rfl⟩
      | nested hjk' hhash' hdeclared' hparent' =>
          obtain ⟨rfl, rfl⟩ := hkeccak.hashedAt hhash hhash' hslot
          rw [hdeclared] at hdeclared'
          cases hdeclared'
  | nested hjk hhash hdeclared hparent ih =>
      cases h' with
      | direct hjk' hhash' hdeclared' =>
          obtain ⟨rfl, rfl⟩ := hkeccak.hashedAt hhash hhash' hslot
          rw [hdeclared] at hdeclared'
          cases hdeclared'
      | nested hjk' hhash' hdeclared' hparent' =>
          obtain ⟨rfl, rfl⟩ := hkeccak.hashedAt hhash hhash' hslot
          obtain ⟨rfl, rfl⟩ := ih _ rfl hparent'
          exact ⟨rfl, rfl⟩

/-- Labels are distinct identifiers. -/
structure DistinctLabels (layout : StorageLayout) : Prop where
  nodup : (layout.storage.map (·.label)).Nodup
  identifiers : ∀ e ∈ layout.storage, '[' ∉ e.label.toList

/-- A label is declared at one slot, with one key type. -/
theorem DistinctLabels.declaredAt_inj (h : DistinctLabels layout) {base base' : U256}
    {label keyType keyType' : String} (hbase : declaredAt layout base = some (label, keyType))
    (hbase' : declaredAt layout base' = some (label, keyType')) :
    base = base' ∧ keyType = keyType' := by
  obtain ⟨e, he, hlabel⟩ := declaredAt_spec hbase
  obtain ⟨e', he', hlabel'⟩ := declaredAt_spec hbase'
  obtain rfl : e = e' :=
    List.inj_on_of_nodup_map h.nodup he.mem he'.mem (hlabel.trans hlabel'.symm)
  have hslots := he.slot_eq.symm.trans he'.slot_eq
  obtain rfl : base = base' := BitVec.eq_of_toNat_eq (Option.some.inj hslots)
  rw [hbase, Option.some.injEq] at hbase'
  exact ⟨rfl, (Prod.mk.inj hbase').2⟩

theorem DistinctLabels.not_indexed (h : DistinctLabels layout) {base : U256}
    (hdeclared : declaredAt layout base = some m) (name key : String) :
    m.1 ≠ indexedName name key := by
  obtain ⟨e, he, hlabel⟩ := declaredAt_spec hdeclared
  intro hname
  apply h.identifiers e he.mem
  rw [hlabel, hname, toList_indexedName]
  simp

theorem MappingSlot.exists_indexedName
    (h : MappingSlot keccak256 layout structLogs k slot m keys) :
    ∃ name key, mappingName m.1 m.2 keys = indexedName name key := by
  cases h with
  | direct => exact ⟨_, _, rfl⟩
  | nested _ _ _ hparent => exact ⟨_, _, mappingName_concat hparent.keys_ne_nil _⟩

/-- The name of a slot determines the slot. The brackets are taken off one by one;
under each of them the slots are equal, and the keys are printed alike. -/
theorem MappingSlot.slot_eq_of_name (hlabels : DistinctLabels layout)
    (hdiffer : AddressKeysDiffer keccak256 layout structLogs)
    (h : MappingSlot keccak256 layout structLogs k slot m keys)
    (h' : MappingSlot keccak256 layout structLogs k' slot' m' keys')
    (hname : mappingName m.1 m.2 keys = mappingName m'.1 m'.2 keys') : slot = slot' := by
  induction h generalizing k' slot' m' keys' with
  | @direct i k key base m hjk hhash hdeclared =>
      obtain ⟨label, keyType⟩ := m
      cases h' with
      | @direct j k' key' base' m' hjk' hhash' hdeclared' =>
          obtain ⟨label', keyType'⟩ := m'
          obtain ⟨rfl, hkeys⟩ := indexedKey_inj hname
          obtain ⟨rfl, rfl⟩ := hlabels.declaredAt_inj hdeclared hdeclared'
          have hkey : key = key' := by
            by_cases haddress : IsAddressType keyType
            · have hprinted : ∀ n,
                  PrintedAsAddress keccak256 layout structLogs n base := by
                intro n
                rw [PrintedAsAddress, hdeclared]
                exact haddress
              exact hdiffer i j key key' base hhash hhash' (hprinted i) (hprinted j)
                ((formatMappingKey_address haddress).mp hkeys)
            · exact formatMappingKey_full haddress hhash.1 hhash'.1 hkeys
          rw [hkey]
      | nested hjk' hhash' hdeclared' hparent' =>
          rw [mappingName_concat hparent'.keys_ne_nil] at hname
          obtain ⟨hparents, -⟩ := indexedKey_inj hname
          -- the parent's name is a label without brackets
          obtain ⟨name, key, hindexed⟩ := hparent'.exists_indexedName
          exact absurd (hparents.trans hindexed) (hlabels.not_indexed hdeclared name key)
  | @nested i k key base m keys hjk hhash hdeclared hparent ih =>
      rw [mappingName_concat hparent.keys_ne_nil] at hname
      cases h' with
      | direct hjk' hhash' hdeclared' =>
          obtain ⟨hparents, -⟩ := indexedKey_inj hname
          obtain ⟨name, key, hindexed⟩ := hparent.exists_indexedName
          exact absurd (hparents.symm.trans hindexed) (hlabels.not_indexed hdeclared' name key)
      | @nested j k' key' base' m' keys' hjk' hhash' hdeclared' hparent' =>
          rw [mappingName_concat hparent'.keys_ne_nil] at hname
          obtain ⟨hparents, hkeys⟩ := indexedKey_inj hname
          obtain rfl : base = base' := ih hparent' hparents
          have hprinted : ∀ {n m keys}, MappingSlot keccak256 layout structLogs n base m keys →
              PrintedAsAddress keccak256 layout structLogs n base := by
            intro n m keys hbase
            rw [PrintedAsAddress, hdeclared]
            exact ⟨m, keys, hbase⟩
          rw [hdiffer i j key key' base hhash hhash' (hprinted hparent) (hprinted hparent')
            ((formatMappingKey_address isAddressType_address).mp hkeys)]

/-- Two keys printed alike name two slots alike. -/
theorem AddressKeysDiffer.of_names (hkeccak : NoCollision keccak256 structLogs)
    (h : ∀ {i j slot slot' m m' keys keys'},
      MappingSlot keccak256 layout structLogs i slot m keys → i ≤ structLogs.length →
      MappingSlot keccak256 layout structLogs j slot' m' keys' → j ≤ structLogs.length →
      mappingName m.1 m.2 keys = mappingName m'.1 m'.2 keys' → slot = slot') :
    AddressKeysDiffer keccak256 layout structLogs := by
  intro i j key key' base hhash hhash' hprinted hprinted' hdrop
  have hbound : ∀ {n key}, HashedAt structLogs n key base → n + 1 ≤ structLogs.length := by
    rintro n key ⟨-, log, hlog, -⟩
    exact (List.getElem?_eq_some_iff.mp hlog).1
  suffices hslots : keccak256 (key ++ wordBytes base) = keccak256 (key' ++ wordBytes base) from
    (hkeccak.hashedAt hhash hhash' hslots).1
  unfold PrintedAsAddress at hprinted hprinted'
  cases hdeclared : declaredAt layout base with
  | some m =>
      rw [hdeclared] at hprinted
      refine h (.direct (Nat.lt_succ_self i) hhash hdeclared) (hbound hhash)
        (.direct (Nat.lt_succ_self j) hhash' hdeclared) (hbound hhash') ?_
      exact congrArg (indexedName m.1) ((formatMappingKey_address hprinted).mpr hdrop)
  | none =>
      rw [hdeclared] at hprinted hprinted'
      obtain ⟨m, keys, hbase⟩ := hprinted
      obtain ⟨m', keys', hbase'⟩ := hprinted'
      obtain ⟨rfl, rfl⟩ := hbase.unique hkeccak hbase'
      refine h (.nested (Nat.lt_succ_self i) hhash hdeclared hbase) (hbound hhash)
        (.nested (Nat.lt_succ_self j) hhash' hdeclared hbase') (hbound hhash') ?_
      rw [mappingName_concat hbase.keys_ne_nil, mappingName_concat hbase.keys_ne_nil]
      exact congrArg (indexedName _)
        ((formatMappingKey_address isAddressType_address).mpr hdrop)

end Chains

/-! ## §3  Runs -/

section Run

variable {keccak256 : List UInt8 → U256} {registered : List Path} {a : Artifacts}
  {structLogs : List StructLog} {layout : StorageLayout}

theorem MappingSlot.lookup (hfit : SnapshotsFit structLogs)
    (hlayout : a.storageLayout = some layout) (hkeccak : NoCollision keccak256 structLogs)
    {k n : Nat} (hkn : k ≤ n) (hn : n ≤ structLogs.length) {slot : U256} {m : String × String}
    {keys : List (List UInt8)} (h : MappingSlot keccak256 layout structLogs k slot m keys) :
    (namesBefore keccak256 registered a structLogs n).lookup slot =
      some (mappingName m.1 m.2 keys) := by
  have hmem : slot ∈ namesBefore keccak256 registered a structLogs n :=
    mem_namesBefore_mono hlayout hkn hn (h.named hfit hlayout (hkn.trans hn))
  obtain ⟨name, hlookup⟩ := Option.isSome_iff_exists.mp (AList.lookup_isSome.mpr hmem)
  obtain ⟨m', keys', h', rfl⟩ := mappingSlot_of_named hfit hlayout hn hlookup
  obtain ⟨rfl, rfl⟩ := h.unique hkeccak h'
  exact hlookup

/-- Before every log different slots have different names, exactly when the keys
printed as addresses are told apart by 20 bytes. -/
theorem mappingNames_injective_iff (hfit : SnapshotsFit structLogs)
    (hlayout : a.storageLayout = some layout) (hkeccak : NoCollision keccak256 structLogs)
    (hlabels : DistinctLabels layout) :
    (∀ k, k ≤ structLogs.length → ∀ slot slot' name,
      (namesBefore keccak256 registered a structLogs k).lookup slot = some name →
      (namesBefore keccak256 registered a structLogs k).lookup slot' = some name →
        slot = slot') ↔
      AddressKeysDiffer keccak256 layout structLogs := by
  constructor
  · intro hinjective
    refine AddressKeysDiffer.of_names hkeccak ?_
    intro i j slot slot' m m' keys keys' h hi h' hj hname
    refine hinjective structLogs.length le_rfl slot slot' (mappingName m.1 m.2 keys) ?_ ?_
    · exact h.lookup hfit hlayout hkeccak hi le_rfl
    · rw [hname]
      exact h'.lookup hfit hlayout hkeccak hj le_rfl
  · intro hdiffer k hk slot slot' name hlookup hlookup'
    obtain ⟨m, keys, h, rfl⟩ := mappingSlot_of_named hfit hlayout hk hlookup
    obtain ⟨m', keys', h', hname⟩ := mappingSlot_of_named hfit hlayout hk hlookup'
    exact h.slot_eq_of_name hlabels hdiffer h' hname

end Run

/-! ## §4  Samples -/

theorem noCollision_hashLogs {keccak256 : List UInt8 → U256} {inputs : List (U256 × U256)}
    (h : (inputs.map fun input => keccak256 (wordBytes input.1 ++ wordBytes input.2)).Nodup) :
    NoCollision keccak256 (inputs.map fun input => hashLog input.1 input.2) := by
  intro log hlog log' hlog' input input' hhash hhash' hdigest
  obtain ⟨x, hx, rfl⟩ := List.mem_map.mp hlog
  obtain ⟨y, hy, rfl⟩ := List.mem_map.mp hlog'
  have hinput := hhash.unique (hashes_hashLog x.1 x.2)
  have hinput' := hhash'.unique (hashes_hashLog y.1 y.2)
  rw [hinput, hinput'] at hdigest
  rw [hinput, hinput', List.inj_on_of_nodup_map h hx hy hdigest]

theorem distinctLabels_gridLayout : DistinctLabels gridLayout where
  nodup := by decide
  identifiers := by decide

/-- `grid[1][5]` and `grid[1][2^160 + 5]`. -/
def clashingLogs : List StructLog :=
  [(1, 0), (5, gridRow), (2 ^ 160 + 5, gridRow)].map fun input => hashLog input.1 input.2

theorem noCollision_clashingLogs : NoCollision sampleKeccak clashingLogs :=
  noCollision_hashLogs (by decide +kernel)

theorem mappingNames_injective_iff_clashingLogs :
    (∀ k, k ≤ 3 → ∀ slot slot' name,
      (namesBefore sampleKeccak [] { storageLayout := some gridLayout } clashingLogs k).lookup
        slot = some name →
      (namesBefore sampleKeccak [] { storageLayout := some gridLayout } clashingLogs k).lookup
        slot' = some name → slot = slot') ↔
      AddressKeysDiffer sampleKeccak gridLayout clashingLogs :=
  mappingNames_injective_iff (snapshotsFit_hashLogs _) rfl noCollision_clashingLogs
    distinctLabels_gridLayout

theorem mappingSlot_gridCell (j : Nat) {key : U256} (hj : 0 < j)
    (hlog : clashingLogs[j]? = some (hashLog key gridRow)) :
    MappingSlot sampleKeccak gridLayout clashingLogs (j + 1)
      (sampleKeccak (wordBytes key ++ wordBytes gridRow)) ("grid", "uint256")
      [wordBytes 1, wordBytes key] := by
  have hrow : sampleKeccak (wordBytes 1 ++ wordBytes 0) = gridRow := if_pos rfl
  have hroot : HashedAt clashingLogs 0 (wordBytes 1) 0 :=
    ⟨length_wordBytes 1, hashLog 1 0, rfl, hashes_hashLog 1 0⟩
  have hparent : MappingSlot sampleKeccak gridLayout clashingLogs j gridRow
      ("grid", "uint256") [wordBytes 1] := hrow ▸ .direct hj hroot (by decide +kernel)
  exact .nested (Nat.lt_succ_self j)
    ⟨length_wordBytes key, hashLog key gridRow, hlog, hashes_hashLog key gridRow⟩
    (by decide +kernel) hparent

/-- Inner keys that are no addresses share a name. -/
theorem mappingNames_clash :
    NoCollision sampleKeccak clashingLogs ∧ DistinctLabels gridLayout ∧
      ∃ slot slot' name, slot ≠ slot' ∧
        (namesBefore sampleKeccak [] { storageLayout := some gridLayout } clashingLogs 3).lookup
          slot = some name ∧
        (namesBefore sampleKeccak [] { storageLayout := some gridLayout } clashingLogs 3).lookup
          slot' = some name := by
  have hsame : mappingName "grid" "uint256" [wordBytes 1, wordBytes 5] =
      mappingName "grid" "uint256" [wordBytes 1, wordBytes (2 ^ 160 + 5)] :=
    congrArg (indexedName _)
      ((formatMappingKey_address isAddressType_address).mpr (by decide +kernel))
  refine ⟨noCollision_clashingLogs, distinctLabels_gridLayout,
    sampleKeccak (wordBytes 5 ++ wordBytes gridRow),
    sampleKeccak (wordBytes (2 ^ 160 + 5) ++ wordBytes gridRow),
    mappingName "grid" "uint256" [wordBytes 1, wordBytes 5], by decide +kernel, ?_, ?_⟩
  · exact (mappingSlot_gridCell 1 (by decide) rfl).lookup (snapshotsFit_hashLogs _) rfl
      noCollision_clashingLogs (by decide) le_rfl
  · rw [hsame]
    exact (mappingSlot_gridCell 2 (by decide) rfl).lookup (snapshotsFit_hashLogs _) rfl
      noCollision_clashingLogs le_rfl le_rfl

end EvmRecorder
