import EvmRecorder.Recorder.CompoundNames
import EvmRecorder.Recorder.MappingNames

/-!
# All slots told apart by their names

A write is cached under the name of its slot: a variable's label, the name of a mapping's
slot, a struct's member, an array's element or a placeholder. An identifier has no dot and
no bracket, so that a name shows which of them it is and which variable it belongs to, and
two slots of one name are two slots of one mapping.
-/

namespace EvmRecorder

open Bytes Numeral

/-! ## §1  Names in two parts -/

/-- Labels are Solidity's identifiers, different in a contract and in a struct; `storage`
is a keyword. -/
structure Identified (layout : StorageLayout) : Prop extends DistinctLabels layout where
  dots : ∀ e ∈ layout.storage, '.' ∉ e.label.toList
  keyword : ∀ e ∈ layout.storage, e.label ≠ "storage"
  members : ∀ e ∈ layout.storage, ∀ ti members, layout.typeInfo e = some ti →
    ti.members = some members → (members.map (·.label)).Nodup

/-- The characters before the first dot or bracket. -/
def stem (cs : List Char) : List Char := cs.takeWhile fun c => c ≠ '.' ∧ c ≠ '['

/-- What follows them. -/
def tail (cs : List Char) : List Char := cs.dropWhile fun c => c ≠ '.' ∧ c ≠ '['

theorem stem_tail_of_head {front back : List Char} (hdot : '.' ∉ front) (hbracket : '[' ∉ front)
    (hback : ∀ c, back.head? = some c → c = '.' ∨ c = '[') :
    stem (front ++ back) = front ∧ tail (front ++ back) = back := by
  have hfront : ∀ c ∈ front, decide (c ≠ '.' ∧ c ≠ '[') = true := by
    intro c hc
    rw [decide_eq_true_iff]
    exact ⟨fun h => hdot (h ▸ hc), fun h => hbracket (h ▸ hc)⟩
  rw [stem, tail, List.takeWhile_append_of_pos hfront, List.dropWhile_append_of_pos hfront]
  rcases back with _ | ⟨c, back⟩
  · exact ⟨List.append_nil front, rfl⟩
  · rcases hback c rfl with rfl | rfl
    · exact ⟨List.append_nil front, rfl⟩
    · exact ⟨List.append_nil front, rfl⟩

/-- How a name goes on behind the label of `e`. -/
inductive EntryName (layout : StorageLayout) (names : MappingSlotNames) (slot : U256)
    (e : StorageEntry) (rest : List Char) : Prop where
  | whole (hslot : e.slot = Nat.repr slot.toNat) (hrest : rest = [])
  | member {m : StorageEntry} (hmember : MemberAt layout e m slot.toNat)
      (hrest : rest = '.' :: m.label.toList)
  | element {base : Nat} (helement : ArrayAt layout e base slot.toNat)
      (hrest : rest = '[' :: ((Nat.repr (slot.toNat - base)).toList ++ [']']))
  | mapping {ti : StorageTypeInfo} {name : String} (hinfo : layout.typeInfo e = some ti)
      (hencoding : ti.encoding = "mapping") (hlookup : names.lookup slot = some name)
      (hname : name.toList = e.label.toList ++ rest) (hrest : rest.head? = some '[')

/-- A placeholder is shown under a keyword. -/
inductive SlotName (layout : StorageLayout) (names : MappingSlotNames) (slot : U256)
    (name : String) : Prop where
  | entry {e : StorageEntry} {rest : List Char} (hmem : e ∈ layout.storage)
      (hname : name.toList = e.label.toList ++ rest) (hrest : EntryName layout names slot e rest)
  | placeholder (hname : name.toList =
      "storage".toList ++ '[' :: ((Nat.repr slot.toNat).toList ++ [']']))

section Names

variable {layout : StorageLayout} {names : MappingSlotNames} {slot slot' : U256}

theorem EntryName.head {e : StorageEntry} {rest : List Char}
    (h : EntryName layout names slot e rest) : ∀ c, rest.head? = some c → c = '.' ∨ c = '[' := by
  intro c hc
  cases h with
  | whole _ hrest =>
      rw [hrest] at hc
      cases hc
  | member _ hrest =>
      rw [hrest] at hc
      exact .inl (Option.some.inj hc).symm
  | element _ hrest =>
      rw [hrest] at hc
      exact .inr (Option.some.inj hc).symm
  | mapping _ _ _ _ hrest => exact .inr (Option.some.inj (hc.symm.trans hrest))

/-- Names in the cache are those of mappings. -/
def FromMappings (layout : StorageLayout) (names : MappingSlotNames) : Prop :=
  ∀ slot name, names.lookup slot = some name → ∃ e ∈ layout.storage, ∃ ti rest,
    layout.typeInfo e = some ti ∧ ti.encoding = "mapping" ∧
      name.toList = e.label.toList ++ '[' :: rest

theorem slotName_storageVarName (hnames : FromMappings layout names) (slot : U256) :
    SlotName layout names slot (storageVarName (some layout) names slot) := by
  have hnamed := namedBy_storageVarName layout names slot
  generalize storageVarName (some layout) names slot = name at hnamed ⊢
  cases hnamed with
  | @entry e hentry =>
      have hslot : e.slot = Nat.repr slot.toNat := by simpa using List.find?_some hentry
      exact .entry (List.mem_of_find?_eq_some hentry) (List.append_nil _).symm (.whole hslot rfl)
  | mapping _ hmapping =>
      obtain ⟨e, hmem, ti, rest, hinfo, hencoding, hname⟩ := hnames slot name hmapping
      exact .entry hmem hname (.mapping hinfo hencoding hmapping hname rfl)
  | member _ _ hmember =>
      obtain ⟨s, hs, hmember⟩ := Option.bind_eq_some_iff.mp hmember
      obtain ⟨rfl, -⟩ := parseU64_repr_eq_some_iff.mp hs
      obtain ⟨e, m, hat, hlabels⟩ := structMemberAt_spec hmember
      obtain ⟨rfl, rfl⟩ := Prod.mk.inj hlabels
      refine .entry hat.mem ?_ (.member hat rfl)
      simp [String.toList_append]
  | element _ _ _ helement =>
      obtain ⟨s, hs, helement⟩ := Option.bind_eq_some_iff.mp helement
      obtain ⟨rfl, -⟩ := parseU64_repr_eq_some_iff.mp hs
      obtain ⟨e, base, hat, rfl, rfl⟩ := arrayElementAt_spec helement
      refine .entry hat.mem ?_ (.element hat rfl)
      rw [toList_indexedName, List.append_assoc]
      rfl
  | placeholder =>
      refine .placeholder ?_
      rw [String.toList_append, String.toList_append, List.append_assoc]
      rfl

/-! ## §2  The slot of a name -/

theorem Identified.stem_tail (hids : Identified layout) {e : StorageEntry}
    (he : e ∈ layout.storage) {rest : List Char} (hrest : EntryName layout names slot e rest) :
    stem (e.label.toList ++ rest) = e.label.toList ∧ tail (e.label.toList ++ rest) = rest :=
  stem_tail_of_head (hids.dots e he) (hids.identifiers e he) hrest.head

/-- An array is in place and a mapping is not. -/
theorem ArrayAt.encoding_ne {e : StorageEntry} {base s : Nat} (h : ArrayAt layout e base s)
    {ti : StorageTypeInfo} (hinfo : layout.typeInfo e = some ti) : ti.encoding ≠ "mapping" := by
  obtain ⟨ti', total, hinfo', hencoding, -⟩ := h.info
  obtain rfl := Option.some.inj (hinfo.symm.trans hinfo')
  rw [hencoding]
  decide

/-- A struct has one member of a label, at one offset. -/
theorem MemberAt.slot_unique (hids : Identified layout) {e m m' : StorageEntry} {s s' : Nat}
    (h : MemberAt layout e m s) (h' : MemberAt layout e m' s') (hlabel : m.label = m'.label) :
    s = s' := by
  obtain ⟨ti, members, hinfo, -, hmembers, hm⟩ := h.inplace
  obtain ⟨ti', members', hinfo', -, hmembers', hm'⟩ := h'.inplace
  obtain rfl := Option.some.inj (hinfo.symm.trans hinfo')
  obtain rfl := Option.some.inj (hmembers.symm.trans hmembers')
  have hnodup := hids.members e h.mem ti members hinfo hmembers
  obtain rfl := List.inj_on_of_nodup_map hnodup hm hm' hlabel
  obtain ⟨base, o, hbase, ho, hslot⟩ := h.slot_eq
  obtain ⟨base', o', hbase', ho', hslot'⟩ := h'.slot_eq
  obtain rfl := Option.some.inj (hbase.symm.trans hbase')
  obtain rfl := Option.some.inj (ho.symm.trans ho')
  exact hslot.symm.trans hslot'

/-- Under one variable, what follows the label gives the slot. -/
theorem EntryName.slot_eq (hids : Identified layout)
    (hdiffer : ∀ slot slot' name, names.lookup slot = some name →
      names.lookup slot' = some name → slot = slot')
    {e : StorageEntry} {rest : List Char} (h : EntryName layout names slot e rest)
    (h' : EntryName layout names slot' e rest) : slot = slot' := by
  apply BitVec.eq_of_toNat_eq
  cases h with
  | whole hslot hrest =>
      cases h' with
      | whole hslot' _ => exact repr_inj.mp (hslot.symm.trans hslot')
      | member _ hrest' => cases hrest.symm.trans hrest'
      | element _ hrest' => cases hrest.symm.trans hrest'
      | mapping _ _ _ _ hrest' => cases hrest ▸ hrest'
  | member hmember hrest =>
      cases h' with
      | whole _ hrest' => cases hrest.symm.trans hrest'
      | member hmember' hrest' =>
          have hlabel := String.toList_inj.mp (List.cons.inj (hrest.symm.trans hrest')).2
          exact hmember.slot_unique hids hmember' hlabel
      | element _ hrest' => cases hrest.symm.trans hrest'
      | mapping _ _ _ _ hrest' => cases hrest ▸ hrest'
  | element helement hrest =>
      cases h' with
      | whole _ hrest' => cases hrest.symm.trans hrest'
      | member _ hrest' => cases hrest.symm.trans hrest'
      | element helement' hrest' =>
          obtain ⟨-, hindex⟩ := List.cons.inj (hrest.symm.trans hrest')
          have hindex := repr_inj.mp (String.toList_inj.mp (List.append_cancel_right hindex))
          obtain rfl := Option.some.inj (helement.starts.symm.trans helement'.starts)
          have hle := helement.le
          have hle' := helement'.le
          omega
      | mapping hinfo' hencoding' _ _ _ => exact absurd hencoding' (helement.encoding_ne hinfo')
  | mapping hinfo hencoding hlookup hname hrest =>
      cases h' with
      | whole _ hrest' => cases hrest' ▸ hrest
      | member _ hrest' => cases hrest' ▸ hrest
      | element helement' _ => exact absurd hencoding (helement'.encoding_ne hinfo)
      | mapping _ _ hlookup' hname' _ =>
          obtain rfl := String.toList_inj.mp (hname.trans hname'.symm)
          rw [hdiffer slot slot' _ hlookup hlookup']

theorem stem_placeholder (cs : List Char) :
    stem ("storage".toList ++ '[' :: cs) = "storage".toList := by
  refine (stem_tail_of_head (by decide) (by decide) ?_).1
  intro c hc
  exact .inr (Option.some.inj hc).symm

/-- A name has one stem, which is the label of one variable or the keyword. -/
theorem SlotName.slot_eq (hids : Identified layout)
    (hdiffer : ∀ slot slot' name, names.lookup slot = some name →
      names.lookup slot' = some name → slot = slot')
    {name : String} (h : SlotName layout names slot name)
    (h' : SlotName layout names slot' name) : slot = slot' := by
  cases h with
  | @entry e rest he hname hrest =>
      obtain ⟨hstem, htail⟩ := hids.stem_tail he hrest
      rw [← hname] at hstem htail
      cases h' with
      | @entry e' rest' he' hname' hrest' =>
          obtain ⟨hstem', htail'⟩ := hids.stem_tail he' hrest'
          rw [← hname'] at hstem' htail'
          have hlabel := String.toList_inj.mp (hstem.symm.trans hstem')
          obtain rfl := List.inj_on_of_nodup_map hids.nodup he he' hlabel
          obtain rfl := htail.symm.trans htail'
          exact hrest.slot_eq hids hdiffer hrest'
      | placeholder hname' =>
          rw [hname', stem_placeholder] at hstem
          exact absurd (String.toList_inj.mp hstem).symm (hids.keyword e he)
  | placeholder hname =>
      cases h' with
      | @entry e' rest' he' hname' hrest' =>
          obtain ⟨hstem', -⟩ := hids.stem_tail he' hrest'
          rw [← hname', hname, stem_placeholder] at hstem'
          exact absurd (String.toList_inj.mp hstem').symm (hids.keyword e' he')
      | placeholder hname' =>
          have hrest := List.append_cancel_left (hname.symm.trans hname')
          obtain ⟨-, hdigits⟩ := List.cons.inj hrest
          exact BitVec.eq_of_toNat_eq
            (repr_inj.mp (String.toList_inj.mp (List.append_cancel_right hdigits)))

end Names

/-! ## §3  Runs -/

section Run

variable {keccak256 : List UInt8 → U256} {registered : List Path} {a : Artifacts}
  {structLogs : List StructLog} {layout : StorageLayout} {k : Nat}

/-- Keys are put behind the label. -/
theorem exists_toList_mappingName {keys : List (List UInt8)} (hkeys : keys ≠ [])
    (label keyType : String) :
    ∃ rest, (mappingName label keyType keys).toList = label.toList ++ '[' :: rest := by
  induction keys using List.reverseRecOn with
  | nil => exact absurd rfl hkeys
  | append_singleton keys key ih =>
      cases keys with
      | nil =>
          refine ⟨(formatMappingKey keyType key).toList ++ [']'], ?_⟩
          exact (toList_indexedName _ _).trans (List.append_assoc _ _ _)
      | cons first keys =>
          have hne := List.cons_ne_nil first keys
          obtain ⟨rest, hrest⟩ := ih hne
          refine ⟨rest ++ ('[' :: (formatMappingKey "address" key).toList ++ [']']), ?_⟩
          rw [mappingName_concat hne, toList_indexedName, hrest, List.append_assoc,
            List.append_assoc, List.cons_append]

theorem fromMappings_namesBefore (hfit : SnapshotsFit structLogs)
    (hlayout : a.storageLayout = some layout) (hk : k ≤ structLogs.length) :
    FromMappings layout (namesBefore keccak256 registered a structLogs k) := by
  intro slot name hlookup
  obtain ⟨⟨label, keyType⟩, keys, hslot, rfl⟩ := mappingSlot_of_named hfit hlayout hk hlookup
  obtain ⟨base, hdeclared, -, -⟩ := hslot.chain
  obtain ⟨e, hmapping, rfl⟩ := declaredAt_spec hdeclared
  obtain ⟨ti, -, hinfo, hencoding, -, -⟩ := hmapping.encoding
  obtain ⟨rest, hname⟩ := exists_toList_mappingName hslot.keys_ne_nil e.label keyType
  exact ⟨e, hmapping.mem, ti, rest, hinfo, hencoding, hname⟩

/-- The hashes of the trace are no slots of variables. -/
def HashesUndeclared (keccak256 : List UInt8 → U256) (layout : StorageLayout)
    (structLogs : List StructLog) : Prop :=
  ∀ log ∈ structLogs, ∀ input, Hashes log input →
    layout.resolveSlot (Nat.repr (keccak256 input).toNat) = none

theorem MappingSlot.storageVarName (hfit : SnapshotsFit structLogs)
    (hlayout : a.storageLayout = some layout) (hkeccak : NoCollision keccak256 structLogs)
    (hundeclared : HashesUndeclared keccak256 layout structLogs) {slot : U256}
    {m : String × String} {keys : List (List UInt8)} (hk : k ≤ structLogs.length)
    (h : MappingSlot keccak256 layout structLogs k slot m keys) :
    storageVarName (some layout) (namesBefore keccak256 registered a structLogs structLogs.length)
      slot = mappingName m.1 m.2 keys := by
  have hlookup : (namesBefore keccak256 registered a structLogs structLogs.length).lookup slot =
      some (mappingName m.1 m.2 keys) := h.lookup hfit hlayout hkeccak hk le_rfl
  have hresolve : layout.resolveSlot (Nat.repr slot.toNat) = none := by
    cases h with
    | direct _ hhash _ =>
        obtain ⟨-, log, hlog, hhash⟩ := hhash
        exact hundeclared log (List.mem_of_getElem? hlog) _ hhash
    | nested _ hhash _ _ =>
        obtain ⟨-, log, hlog, hhash⟩ := hhash
        exact hundeclared log (List.mem_of_getElem? hlog) _ hhash
  simp [EvmRecorder.storageVarName, hresolve, hlookup]

/-- Before every log all slots have different names, exactly when the keys printed as
addresses are told apart by 20 bytes. -/
theorem storageVarNames_injective_iff (hfit : SnapshotsFit structLogs)
    (hlayout : a.storageLayout = some layout) (hkeccak : NoCollision keccak256 structLogs)
    (hundeclared : HashesUndeclared keccak256 layout structLogs) (hids : Identified layout) :
    (∀ k, k ≤ structLogs.length → Function.Injective
      (storageVarName a.storageLayout (namesBefore keccak256 registered a structLogs k))) ↔
      AddressKeysDiffer keccak256 layout structLogs := by
  rw [hlayout]
  constructor
  · intro hinjective
    refine AddressKeysDiffer.of_names hkeccak ?_
    intro i j slot slot' m m' keys keys' h hi h' hj hname
    apply hinjective structLogs.length le_rfl
    rw [h.storageVarName hfit hlayout hkeccak hundeclared hi,
      h'.storageVarName hfit hlayout hkeccak hundeclared hj, hname]
  · intro hdiffer k hk slot slot' hname
    have hnames : FromMappings layout (namesBefore keccak256 registered a structLogs k) :=
      fromMappings_namesBefore hfit hlayout hk
    have hslot := slotName_storageVarName hnames slot
    rw [hname] at hslot
    refine hslot.slot_eq hids ?_ (slotName_storageVarName hnames slot')
    intro base base' name hlookup hlookup'
    obtain ⟨m, keys, h, rfl⟩ := mappingSlot_of_named hfit hlayout hk hlookup
    obtain ⟨m', keys', h', hname⟩ := mappingSlot_of_named hfit hlayout hk hlookup'
    exact h.slot_eq_of_name hids.toDistinctLabels hdiffer h' hname

end Run

/-! ## §4  Samples -/

/-- A `grid`, a struct `corner` behind it and an array `row` behind that. -/
def boardLayout : StorageLayout where
  storage := gridLayout.storage ++ [⟨"corner", "1", 0, "t_struct(Point)1_storage"⟩,
    ⟨"row", "3", 0, "t_array(t_uint256)3_storage"⟩]
  types := mappingTypes ++
    [("t_struct(Point)1_storage",
      { encoding := "inplace", label := "struct Board.Point", numberOfBytes := "64"
        members := some [⟨"x", "0", 0, "t_uint256"⟩, ⟨"y", "1", 0, "t_uint256"⟩] }),
    ("t_array(t_uint256)3_storage",
      { encoding := "inplace", label := "uint256[3]", numberOfBytes := "96"
        base := some "t_uint256" })]

theorem identified_boardLayout : Identified boardLayout where
  nodup := by decide
  identifiers := by decide
  dots := by decide
  keyword := by decide
  members := by
    have hmembers : ∀ e ∈ boardLayout.storage, ∀ ms ∈ (boardLayout.typeInfo e).bind (·.members),
        (ms.map (·.label)).Nodup := by
      decide
    intro e he ti ms hinfo hms
    exact hmembers e he ms (Option.bind_eq_some_iff.mpr ⟨ti, hinfo, hms⟩)

theorem hashesUndeclared_hashLogs {keccak256 : List UInt8 → U256} {layout : StorageLayout}
    {inputs : List (U256 × U256)}
    (h : inputs.all fun input => (layout.resolveSlot
      (Nat.repr (keccak256 (wordBytes input.1 ++ wordBytes input.2)).toNat)).isNone) :
    HashesUndeclared keccak256 layout (inputs.map fun input => hashLog input.1 input.2) := by
  intro log hlog input hhash
  obtain ⟨x, hx, rfl⟩ := List.mem_map.mp hlog
  rw [hhash.unique (hashes_hashLog x.1 x.2)]
  exact Option.isNone_iff_eq_none.mp (List.all_eq_true.mp h x hx)

theorem HashedAt.mem_inputs {inputs : List (U256 × U256)} {i : Nat} {key : List UInt8}
    {base : U256} (h : HashedAt (inputs.map fun input => hashLog input.1 input.2) i key base) :
    ∃ x ∈ inputs, key = wordBytes x.1 ∧ base = x.2 := by
  obtain ⟨hlength, log, hlog, hhash⟩ := h
  obtain ⟨x, hx, rfl⟩ := List.mem_map.mp (List.mem_of_getElem? hlog)
  obtain ⟨hkey, hbase⟩ := List.append_inj (hhash.unique (hashes_hashLog x.1 x.2))
    (hlength.trans (length_wordBytes x.1).symm)
  exact ⟨x, hx, hkey, wordBytes_injective hbase⟩

theorem addressKeysDiffer_hashLogs {keccak256 : List UInt8 → U256} {layout : StorageLayout}
    {inputs : List (U256 × U256)}
    (h : (inputs.map fun input => (input.2, (wordBytes input.1).drop 12)).Nodup) :
    AddressKeysDiffer keccak256 layout (inputs.map fun input => hashLog input.1 input.2) := by
  intro i j key key' base hhash hhash' _ _ hdrop
  obtain ⟨x, hx, hkey, hbase⟩ := hhash.mem_inputs
  obtain ⟨y, hy, hkey', hbase'⟩ := hhash'.mem_inputs
  rw [hkey, hkey'] at hdrop ⊢
  have hsame : (x.2, (wordBytes x.1).drop 12) = (y.2, (wordBytes y.1).drop 12) := by
    rw [← hbase, hbase', hdrop]
  rw [List.inj_on_of_nodup_map h hx hy hsame]

/-- Beside `grid[1][5]` the members and elements keep names of their own. -/
theorem storageVarNames_injective_gridLogs :
    storageVarName (some boardLayout)
        (namesBefore sampleKeccak [] { storageLayout := some boardLayout } gridLogs 2) 2 =
      "corner.y" ∧
      ∀ k, k ≤ 2 → Function.Injective (storageVarName (some boardLayout)
        (namesBefore sampleKeccak [] { storageLayout := some boardLayout } gridLogs k)) :=
  ⟨by decide +kernel,
    (@storageVarNames_injective_iff sampleKeccak [] { storageLayout := some boardLayout } gridLogs
      boardLayout (snapshotsFit_hashLogs _) rfl (noCollision_hashLogs (by decide +kernel))
      (hashesUndeclared_hashLogs (by decide +kernel)) identified_boardLayout).mpr
      (addressKeysDiffer_hashLogs (by decide +kernel))⟩

end EvmRecorder
