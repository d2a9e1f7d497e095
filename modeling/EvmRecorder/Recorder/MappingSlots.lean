import EvmRecorder.Recorder.Storage
import EvmRecorder.StructLog.MemoryDump

/-!
# Names of mapping slots

A mapping keeps the value of a key at the hash of the key and of its own slot, a
mapping of mappings repeats this with the slot so obtained. The recorder names
slots while the trace computes their hashes. Here the slots of a layout's
mappings are described from the trace and the layout alone, as chains of hashed
inputs, and compared with the names the recorder has given.
-/

namespace EvmRecorder

open Bytes Numeral

/-! ## §1  Hashed inputs -/

/-- The log hashes the 64 bytes `input`, and its memory snapshot captures all of
them. -/
structure Hashes (log : StructLog) (input : List UInt8) : Prop where
  mnemonic : log.op = "KECCAK256" ∨ log.op = "SHA3"
  length_eq : input.length = 64
  captured : ∃ stack offset pre post, log.stack = some stack ∧
    topTwo stack = some (offset, 64) ∧
    decodeStructLogMemory log.memory = pre ++ input ++ post ∧ pre.length = offset.toNat

/-- No `Vec<u8>` holds more than `isize::MAX` bytes. -/
def SnapshotsFit (structLogs : List StructLog) : Prop :=
  ∀ log ∈ structLogs, (decodeStructLogMemory log.memory).length < 2 ^ 63

/-- A range that is read is a part of the snapshot. -/
theorem memoryRange_eq_some_iff {memory : Option (List String)} {off size : Nat}
    {input : List UInt8} (hfit : (decodeStructLogMemory memory).length < 2 ^ 63) :
    memoryRange memory off size = some input ↔
      ∃ pre post, decodeStructLogMemory memory = pre ++ input ++ post ∧ pre.length = off ∧
        input.length = size := by
  rw [memoryRange_eq off size hfit]
  constructor
  · intro h
    split at h
    · next hle =>
        obtain rfl := Option.some.inj h
        refine ⟨(decodeStructLogMemory memory).take off,
          ((decodeStructLogMemory memory).drop off).drop size, ?_, ?_, ?_⟩
        · rw [List.append_assoc, List.take_append_drop, List.take_append_drop]
        · rw [List.length_take]
          omega
        · rw [List.length_take, List.length_drop]
          omega
    · cases h
  · rintro ⟨pre, post, hbytes, rfl, rfl⟩
    have htotal : (decodeStructLogMemory memory).length =
        pre.length + input.length + post.length := by
      rw [hbytes, List.length_append, List.length_append]
    rw [if_pos (by omega), hbytes, List.append_assoc, List.drop_left, List.take_left]

/-- What the KECCAK256 block reads is what the log hashes. -/
theorem keccakInput_eq_some_iff {log : StructLog} {input : List UInt8}
    (hfit : (decodeStructLogMemory log.memory).length < 2 ^ 63) :
    keccakInput log = some input ↔ Hashes log input := by
  constructor
  · intro h
    unfold keccakInput at h
    split at h
    · next hop =>
        simp only [Option.bind_eq_bind, Option.bind_eq_some_iff] at h
        obtain ⟨stack, hstack, ⟨offset, size⟩, htop, h⟩ := h
        dsimp only at h
        split at h
        · next hsize =>
            obtain ⟨off, hoff, h⟩ := Option.bind_eq_some_iff.mp h
            obtain ⟨pre, post, hbytes, hpre, hlength⟩ := (memoryRange_eq_some_iff hfit).mp h
            unfold toUsize at hoff
            split at hoff
            · obtain rfl := Option.some.inj hoff
              rw [hsize] at htop
              exact ⟨hop, hlength, stack, offset, pre, post, hstack, htop, hbytes, hpre⟩
            · cases hoff
        · cases h
    · cases h
  · rintro ⟨hop, hlength, stack, offset, pre, post, hstack, htop, hbytes, hpre⟩
    have hsmall : offset.toNat < 2 ^ 64 := by
      have hsnapshot := hfit
      rw [hbytes, List.length_append, List.length_append, hpre] at hsnapshot
      omega
    have hoff : toUsize offset = some offset.toNat := if_pos hsmall
    have hread := (memoryRange_eq_some_iff hfit).mpr ⟨pre, post, hbytes, hpre, hlength⟩
    rw [keccakInput, if_pos hop]
    simp [hstack, htop, hoff, hread]

theorem Hashes.unique {log : StructLog} {input input' : List UInt8} (h : Hashes log input)
    (h' : Hashes log input') : input = input' := by
  obtain ⟨stack, offset, pre, post, hstack, htop, hbytes, hpre⟩ := h.captured
  obtain ⟨stack', offset', pre', post', hstack', htop', hbytes', hpre'⟩ := h'.captured
  rw [hstack, Option.some.injEq] at hstack'
  subst hstack'
  rw [htop, Option.some.injEq, Prod.mk.injEq] at htop'
  obtain ⟨rfl, -⟩ := htop'
  rw [hbytes, List.append_assoc, List.append_assoc] at hbytes'
  obtain ⟨-, htail⟩ := List.append_inj hbytes' (hpre.trans hpre'.symm)
  exact (List.append_inj htail (h.length_eq.trans h'.length_eq.symm)).1

/-- An input is a key and a slot. -/
theorem Hashes.exists_key {log : StructLog} {input : List UInt8} (h : Hashes log input) :
    ∃ key base, key.length = 32 ∧ input = key ++ wordBytes base := by
  have hlength := h.length_eq
  have hkey : (input.take 32).length = 32 := by
    rw [List.length_take]
    omega
  have hbase : (input.drop 32).length = 32 := by
    rw [List.length_drop]
    omega
  refine ⟨input.take 32, wordOfBytes (input.drop 32), hkey, ?_⟩
  rw [wordBytes_wordOfBytes hbase, List.take_append_drop]

theorem secondWord {key : List UInt8} (hkey : key.length = 32) (base : U256) :
    wordOfBytes ((key ++ wordBytes base).drop 32) = base := by
  rw [← hkey, List.drop_left, wordOfBytes_wordBytes]

/-! ## §2  Mappings of a layout -/

section Layout

variable (layout : StorageLayout)

/-- `e` declares a mapping with keys of type `keyType` at the slot `base`. -/
structure IsMapping (e : StorageEntry) (keyType : String) (base : U256) : Prop where
  mem : e ∈ layout.storage
  slot_eq : parseUnsigned (2 ^ 256) e.slot.toList = some base.toNat
  encoding : ∃ ti keyTypeId, layout.typeInfo e = some ti ∧ ti.encoding = "mapping" ∧
    ti.key = some keyTypeId ∧
    keyType = ((layout.types.lookup keyTypeId).map (·.label)).getD "uint256"

/-- Label and key type of the mapping the recorder finds at a slot. -/
def declaredAt (base : U256) : Option (String × String) :=
  (toUsize base).bind layout.mappingAtBase

end Layout

section Declared

variable {layout : StorageLayout} {base : U256}

theorem declaredAt_spec {label keyType : String}
    (h : declaredAt layout base = some (label, keyType)) :
    ∃ e, IsMapping layout e keyType base ∧ e.label = label := by
  obtain ⟨n, hn, hfound⟩ := Option.bind_eq_some_iff.mp h
  unfold toUsize at hn
  split at hn
  · obtain rfl := Option.some.inj hn
    obtain ⟨e, hmem, hentry⟩ := List.exists_of_findSome?_eq_some hfound
    simp only [Option.bind_eq_bind, Option.bind_eq_some_iff] at hentry
    obtain ⟨entrySlot, hparse, hentry⟩ := hentry
    split at hentry
    · cases hentry
    · next hslot =>
        obtain ⟨ti, hti, hentry⟩ := Option.bind_eq_some_iff.mp hentry
        split at hentry
        · cases hentry
        · next hencoding =>
            obtain ⟨keyTypeId, hkey, hpair⟩ := Option.bind_eq_some_iff.mp hentry
            obtain ⟨hlabel, hkeyType⟩ := Prod.mk.inj (Option.some.inj hpair)
            rw [not_not.mp hslot] at hparse
            refine ⟨e, ⟨hmem, ?_, ti, keyTypeId, hti, not_not.mp hencoding, hkey,
              hkeyType.symm⟩, hlabel⟩
            exact parseUnsigned_eq_some_iff.mpr
              ⟨(parseUnsigned_eq_some_iff.mp hparse).1, base.isLt⟩
  · cases hn

/-- Base slots are looked up as `u64`. -/
theorem IsMapping.exists_declaredAt {e : StorageEntry} {keyType : String}
    (h : IsMapping layout e keyType base) (hsmall : base.toNat < 2 ^ 64) :
    ∃ m, declaredAt layout base = some m := by
  obtain ⟨ti, keyTypeId, hti, hencoding, hkey, -⟩ := h.encoding
  have hparse : parseU64 e.slot = some base.toNat :=
    parseUnsigned_eq_some_iff.mpr ⟨(parseUnsigned_eq_some_iff.mp h.slot_eq).1, hsmall⟩
  rw [← Option.isSome_iff_exists, declaredAt, toUsize, if_pos hsmall, Option.bind_some,
    StorageLayout.mappingAtBase, List.findSome?_isSome_iff]
  refine ⟨e, h.mem, ?_⟩
  simp [hparse, hti, hencoding, hkey]

end Declared

/-! ## §3  Chains of hashed inputs -/

section Chains

variable (keccak256 : List UInt8 → U256) (layout : StorageLayout) (structLogs : List StructLog)

/-- Log `j` hashes `key . base`. -/
def HashedAt (j : Nat) (key : List UInt8) (base : U256) : Prop :=
  key.length = 32 ∧ ∃ log, structLogs[j]? = some log ∧ Hashes log (key ++ wordBytes base)

/-- The slot of the value under `keys`, outermost key first, in a mapping at
`base`. -/
def mappingSlot (base : U256) (keys : List (List UInt8)) : U256 :=
  keys.foldl (fun slot key => keccak256 (key ++ wordBytes slot)) base

/-- `label[k₁][k₂]…`: the first key is printed as a `keyType`, the others as
addresses. -/
def mappingName (label keyType : String) : List (List UInt8) → String
  | [] => label
  | key :: inner => inner.foldl
      (fun name key => indexedName name (formatMappingKey "address" key))
      (indexedName label (formatMappingKey keyType key))

/-- The logs before `k` compute the slot under `keys` in the mapping `m`, hash
after hash. A slot that is itself the base of a mapping is taken for that
mapping. -/
inductive MappingSlot : Nat → U256 → String × String → List (List UInt8) → Prop
  | direct {j k : Nat} {key : List UInt8} {base : U256} {m : String × String} (hjk : j < k)
      (hhash : HashedAt structLogs j key base) (hdeclared : declaredAt layout base = some m) :
      MappingSlot k (keccak256 (key ++ wordBytes base)) m [key]
  | nested {j k : Nat} {key : List UInt8} {base : U256} {m : String × String}
      {keys : List (List UInt8)} (hjk : j < k) (hhash : HashedAt structLogs j key base)
      (hdeclared : declaredAt layout base = none) (hparent : MappingSlot j base m keys) :
      MappingSlot k (keccak256 (key ++ wordBytes base)) m (keys ++ [key])

end Chains

section Chains

variable {keccak256 : List UInt8 → U256} {layout : StorageLayout} {structLogs : List StructLog}
  {k : Nat} {slot : U256} {m : String × String} {keys : List (List UInt8)}

theorem mappingSlot_concat (base : U256) (keys : List (List UInt8)) (key : List UInt8) :
    mappingSlot keccak256 base (keys ++ [key]) =
      keccak256 (key ++ wordBytes (mappingSlot keccak256 base keys)) := by
  rw [mappingSlot, List.foldl_append]
  rfl

theorem mappingName_concat {label keyType : String} (hne : keys ≠ []) (key : List UInt8) :
    mappingName label keyType (keys ++ [key]) =
      indexedName (mappingName label keyType keys) (formatMappingKey "address" key) := by
  cases keys with
  | nil => exact absurd rfl hne
  | cons first inner =>
      rw [List.cons_append, mappingName, List.foldl_append]
      rfl

theorem MappingSlot.mono {n : Nat} (h : MappingSlot keccak256 layout structLogs k slot m keys)
    (hkn : k ≤ n) : MappingSlot keccak256 layout structLogs n slot m keys := by
  cases h with
  | direct hjk hhash hdeclared => exact .direct (hjk.trans_le hkn) hhash hdeclared
  | nested hjk hhash hdeclared hparent => exact .nested (hjk.trans_le hkn) hhash hdeclared hparent

theorem MappingSlot.keys_ne_nil (h : MappingSlot keccak256 layout structLogs k slot m keys) :
    keys ≠ [] := by
  cases h with
  | direct => exact List.cons_ne_nil _ _
  | nested => exact List.append_ne_nil_of_right_ne_nil _ (List.cons_ne_nil _ _)

/-- The chain, link by link: every key was hashed with the slot under the keys
before it. -/
theorem MappingSlot.chain (h : MappingSlot keccak256 layout structLogs k slot m keys) :
    ∃ base, declaredAt layout base = some m ∧ slot = mappingSlot keccak256 base keys ∧
      ∀ pre key post, keys = pre ++ key :: post →
        ∃ j, j < k ∧ HashedAt structLogs j key (mappingSlot keccak256 base pre) := by
  induction h with
  | @direct j k key base m hjk hhash hdeclared =>
      refine ⟨base, hdeclared, rfl, ?_⟩
      intro pre key' post hsplit
      obtain ⟨rfl, rfl, -⟩ : pre = [] ∧ key = key' ∧ post = [] := by
        cases pre with
        | nil => simpa [eq_comm] using hsplit
        | cons => simp at hsplit
      exact ⟨j, hjk, hhash⟩
  | @nested j k key base m keys hjk hhash hdeclared hparent ih =>
      obtain ⟨root, hroot, hslot, hlinks⟩ := ih
      refine ⟨root, hroot, ?_, ?_⟩
      · rw [mappingSlot_concat, ← hslot]
      · intro pre key' post hsplit
        rcases List.eq_nil_or_concat post with rfl | ⟨post, last, rfl⟩
        · obtain ⟨rfl, rfl⟩ := List.append_singleton_inj.mp hsplit
          exact ⟨j, hjk, hslot ▸ hhash⟩
        · rw [List.concat_eq_append, ← List.cons_append, ← List.append_assoc] at hsplit
          obtain ⟨hsplit, -⟩ := List.append_singleton_inj.mp hsplit
          obtain ⟨i, hij, hlink⟩ := hlinks pre key' post hsplit
          exact ⟨i, hij.trans hjk, hlink⟩

end Chains

/-! ## §4  One log -/

section Step

variable {keccak256 : List UInt8 → U256} {layout : StorageLayout} {log : StructLog}
  {names : MappingSlotNames} {key : List UInt8} {base : U256}

theorem derivedSlotName_key (hkey : key.length = 32) :
    derivedSlotName layout names (key ++ wordBytes base) =
      match declaredAt layout base with
      | some (label, keyType) => some (indexedName label (formatMappingKey keyType key))
      | none => (names.lookup base).map fun parent =>
          indexedName parent (formatMappingKey "address" key) := by
  have htake : (key ++ wordBytes base).take 32 = key := by
    rw [← hkey, List.take_left]
  rw [derivedSlotName, htake, secondWord hkey]
  rfl

/-- A hash with a named base names its digest, any other log names nothing. -/
theorem lookup_recordMappingSlot
    (hfit : (decodeStructLogMemory log.memory).length < 2 ^ 63) (slot : U256) :
    (recordMappingSlot keccak256 (some layout) log names).lookup slot = names.lookup slot ∨
      ∃ key base name, key.length = 32 ∧ Hashes log (key ++ wordBytes base) ∧
        derivedSlotName layout names (key ++ wordBytes base) = some name ∧
        slot = keccak256 (key ++ wordBytes base) ∧
        (recordMappingSlot keccak256 (some layout) log names).lookup slot = some name := by
  unfold recordMappingSlot
  split
  · next _ _ _ input hlayout hinput =>
      obtain rfl := Option.some.inj hlayout
      have hhash := (keccakInput_eq_some_iff hfit).mp hinput
      obtain ⟨key, base, hkey, rfl⟩ := hhash.exists_key
      split
      · next name hname =>
          by_cases hslot : slot = keccak256 (key ++ wordBytes base)
          · subst hslot
            exact .inr ⟨key, base, name, hkey, hhash, hname, rfl, AList.lookup_insert _⟩
          · exact .inl (AList.lookup_insert_ne hslot)
      · exact .inl rfl
  · exact .inl rfl

theorem recordMappingSlot_hash (hfit : (decodeStructLogMemory log.memory).length < 2 ^ 63)
    (hhash : Hashes log (key ++ wordBytes base)) {name : String}
    (hname : derivedSlotName layout names (key ++ wordBytes base) = some name) :
    recordMappingSlot keccak256 (some layout) log names =
      names.insert (keccak256 (key ++ wordBytes base)) name := by
  have hinput := (keccakInput_eq_some_iff hfit).mpr hhash
  simp only [recordMappingSlot, hinput, hname]

theorem mem_recordMappingSlot {slot : U256} (hslot : slot ∈ names) :
    slot ∈ recordMappingSlot keccak256 (some layout) log names := by
  unfold recordMappingSlot
  split
  · split
    · exact (AList.mem_insert names).mpr (.inr hslot)
    · exact hslot
  · exact hslot

end Step

/-! ## §5  The names of a run -/

open Recorder

section Run

variable {keccak256 : List UInt8 → U256} {registered : List Path} {a : Artifacts}
  {structLogs : List StructLog} {layout : StorageLayout} {k : Nat} {slot : U256}

/-- The names before log `k`. -/
def namesBefore (keccak256 : List UInt8 → U256) (registered : List Path) (a : Artifacts)
    (structLogs : List StructLog) (k : Nat) : MappingSlotNames :=
  (stateBefore keccak256 registered a structLogs k).mappingSlotNames

theorem namesBefore_succ (hlayout : a.storageLayout = some layout) {log : StructLog}
    (hlog : structLogs[k]? = some log) :
    namesBefore keccak256 registered a structLogs (k + 1) =
      recordMappingSlot keccak256 (some layout) log
        (namesBefore keccak256 registered a structLogs k) := by
  rw [namesBefore, mappingSlotNames_stateBefore_succ hlog, hlayout]
  rfl

/-- Every named slot is a mapping slot, named after its chain. -/
theorem mappingSlot_of_named (hfit : SnapshotsFit structLogs)
    (hlayout : a.storageLayout = some layout) (hk : k ≤ structLogs.length) {name : String}
    (h : (namesBefore keccak256 registered a structLogs k).lookup slot = some name) :
    ∃ m keys, MappingSlot keccak256 layout structLogs k slot m keys ∧
      name = mappingName m.1 m.2 keys := by
  induction k generalizing slot name with
  | zero => cases h
  | succ k ih =>
      have hlog : structLogs[k]? = some structLogs[k] := List.getElem?_eq_getElem hk
      have hsmall := hfit structLogs[k] (List.mem_of_getElem? hlog)
      rw [namesBefore_succ hlayout hlog] at h
      rcases lookup_recordMappingSlot hsmall slot with hkept | hnamed
      · rw [hkept] at h
        obtain ⟨m, keys, hslot, hname⟩ := ih (Nat.le_of_lt hk) h
        exact ⟨m, keys, hslot.mono (Nat.le_succ k), hname⟩
      · obtain ⟨key, base, derived, hkey, hhash, hderived, rfl, hlookup⟩ := hnamed
        rw [hlookup, Option.some.injEq] at h
        subst h
        have hhashed : HashedAt structLogs k key base := ⟨hkey, structLogs[k], hlog, hhash⟩
        rw [derivedSlotName_key hkey] at hderived
        split at hderived
        · next label keyType hdeclared =>
            obtain rfl := Option.some.inj hderived
            exact ⟨(label, keyType), [key], .direct (Nat.lt_succ_self k) hhashed hdeclared, rfl⟩
        · next hdeclared =>
            obtain ⟨parent, hparent, rfl⟩ := Option.map_eq_some_iff.mp hderived
            obtain ⟨m, keys, hbase, rfl⟩ := ih (Nat.le_of_lt hk) hparent
            refine ⟨m, keys ++ [key], .nested (Nat.lt_succ_self k) hhashed hdeclared hbase, ?_⟩
            exact (mappingName_concat hbase.keys_ne_nil key).symm

/-- Named slots stay named. -/
theorem mem_namesBefore_mono (hlayout : a.storageLayout = some layout) {j : Nat} (hjk : j ≤ k)
    (hk : k ≤ structLogs.length)
    (h : slot ∈ namesBefore keccak256 registered a structLogs j) :
    slot ∈ namesBefore keccak256 registered a structLogs k := by
  induction k, hjk using Nat.le_induction with
  | base => exact h
  | succ k hjk ih =>
      have hlog : structLogs[k]? = some structLogs[k] := List.getElem?_eq_getElem hk
      rw [namesBefore_succ hlayout hlog]
      exact mem_recordMappingSlot (ih (Nat.le_of_lt hk))

/-- A hash whose base is a mapping or a named slot names its digest. -/
theorem named_of_hashedAt (hfit : SnapshotsFit structLogs)
    (hlayout : a.storageLayout = some layout) {j : Nat} (hjk : j < k)
    (hk : k ≤ structLogs.length) {key : List UInt8} {base : U256}
    (hhash : HashedAt structLogs j key base)
    (hbase : (∃ m, declaredAt layout base = some m) ∨
      base ∈ namesBefore keccak256 registered a structLogs j) :
    keccak256 (key ++ wordBytes base) ∈ namesBefore keccak256 registered a structLogs k := by
  obtain ⟨hkey, log, hlog, hhash⟩ := hhash
  have hname : ∃ name, derivedSlotName layout (namesBefore keccak256 registered a structLogs j)
      (key ++ wordBytes base) = some name := by
    rw [derivedSlotName_key hkey]
    cases hdeclared : declaredAt layout base with
    | some m => exact ⟨_, rfl⟩
    | none =>
        rcases hbase with ⟨m, hm⟩ | hnamed
        · rw [hdeclared] at hm
          cases hm
        · obtain ⟨parent, hparent⟩ := Option.isSome_iff_exists.mp (AList.lookup_isSome.mpr hnamed)
          exact ⟨_, by rw [hparent]; rfl⟩
  obtain ⟨name, hname⟩ := hname
  apply mem_namesBefore_mono hlayout hjk hk
  rw [namesBefore_succ hlayout hlog,
    recordMappingSlot_hash (hfit log (List.mem_of_getElem? hlog)) hhash hname]
  exact (AList.mem_insert _).mpr (.inl rfl)

/-- Every mapping slot is named. -/
theorem MappingSlot.named (hfit : SnapshotsFit structLogs)
    (hlayout : a.storageLayout = some layout) (hk : k ≤ structLogs.length) {m : String × String}
    {keys : List (List UInt8)} (h : MappingSlot keccak256 layout structLogs k slot m keys) :
    slot ∈ namesBefore keccak256 registered a structLogs k := by
  induction h with
  | direct hjk hhash hdeclared =>
      exact named_of_hashedAt hfit hlayout hjk hk hhash (.inl ⟨_, hdeclared⟩)
  | nested hjk hhash hdeclared hparent ih =>
      exact named_of_hashedAt hfit hlayout hjk hk hhash (.inr (ih (hjk.le.trans hk)))

/-- Names come from chains of hashes that start at a mapping of the layout, and
every hash on top of a mapping or of a named slot is named, provided that the
slot of the mapping is a `u64`. -/
theorem mappingNames_sound_complete (hfit : SnapshotsFit structLogs)
    (hlayout : a.storageLayout = some layout) (hk : k ≤ structLogs.length) :
    (∀ slot name, (namesBefore keccak256 registered a structLogs k).lookup slot = some name →
      ∃ e keyType base keys, IsMapping layout e keyType base ∧ keys ≠ [] ∧
        slot = mappingSlot keccak256 base keys ∧ name = mappingName e.label keyType keys ∧
        ∀ pre key post, keys = pre ++ key :: post →
          ∃ j, j < k ∧ HashedAt structLogs j key (mappingSlot keccak256 base pre)) ∧
    (∀ j log input, j < k → structLogs[j]? = some log → Hashes log input →
      (∃ e keyType, IsMapping layout e keyType (wordOfBytes (input.drop 32)) ∧
        (wordOfBytes (input.drop 32)).toNat < 2 ^ 64) ∨
      wordOfBytes (input.drop 32) ∈ namesBefore keccak256 registered a structLogs j →
        keccak256 input ∈ namesBefore keccak256 registered a structLogs k) := by
  constructor
  · intro slot name h
    obtain ⟨⟨label, keyType⟩, keys, hslot, rfl⟩ := mappingSlot_of_named hfit hlayout hk h
    obtain ⟨base, hdeclared, rfl, hlinks⟩ := hslot.chain
    obtain ⟨e, hmapping, rfl⟩ := declaredAt_spec hdeclared
    exact ⟨e, keyType, base, keys, hmapping, hslot.keys_ne_nil, rfl, rfl, hlinks⟩
  · intro j log input hjk hlog hhash hbase
    obtain ⟨key, base, hkey, rfl⟩ := hhash.exists_key
    rw [secondWord hkey] at hbase
    refine named_of_hashedAt hfit hlayout hjk hk ⟨hkey, log, hlog, hhash⟩ ?_
    rcases hbase with ⟨e, keyType, hmapping, hsmall⟩ | hnamed
    · exact .inl (hmapping.exists_declaredAt hsmall)
    · exact .inr hnamed

end Run

/-! ## §6  Samples -/

/-- A KECCAK256 of `key . base`. -/
def hashLog (key base : U256) : StructLog where
  pc := 0
  op := "KECCAK256"
  depth := 1
  stack := some [64, 0]
  memory := some [String.ofList (hexBytes (wordBytes key)), String.ofList (hexBytes (wordBytes base))]

/-- A word of a snapshot decodes to the bytes it shows. -/
theorem decodeMemoryWord_hexBytes (w : U256) :
    decodeMemoryWord (String.ofList (hexBytes (wordBytes w))) = wordBytes w :=
  (rendersWord_hexBytes (length_wordBytes w)).decode

theorem decodeStructLogMemory_hashLog (key base : U256) :
    decodeStructLogMemory (hashLog key base).memory = wordBytes key ++ wordBytes base := by
  simp [hashLog, decodeStructLogMemory, decodeMemoryWord_hexBytes]

theorem hashes_hashLog (key base : U256) :
    Hashes (hashLog key base) (wordBytes key ++ wordBytes base) where
  mnemonic := .inl rfl
  length_eq := by simp
  captured := ⟨[64, 0], 0, [], [], rfl, rfl, by simp [decodeStructLogMemory_hashLog], rfl⟩

theorem snapshotsFit_hashLogs (inputs : List (U256 × U256)) :
    SnapshotsFit (inputs.map fun input => hashLog input.1 input.2) := by
  intro log hlog
  obtain ⟨input, -, rfl⟩ := List.mem_map.mp hlog
  rw [decodeStructLogMemory_hashLog, List.length_append, length_wordBytes, length_wordBytes]
  decide

def mappingTypes : List (String × StorageTypeInfo) :=
  [("t_uint256", { encoding := "inplace", label := "uint256", numberOfBytes := "32" }),
    ("t_mapping(t_uint256,t_uint256)",
      { encoding := "mapping", label := "mapping(uint256 => uint256)", numberOfBytes := "32"
        key := some "t_uint256" }),
    ("t_mapping(t_uint256,t_mapping(t_uint256,t_uint256))",
      { encoding := "mapping", label := "mapping(uint256 => mapping(uint256 => uint256))"
        numberOfBytes := "32", key := some "t_uint256" })]

/-- `mapping(uint256 => mapping(uint256 => uint256)) grid` at slot 0. -/
def gridLayout : StorageLayout where
  storage := [⟨"grid", "0", 0, "t_mapping(t_uint256,t_mapping(t_uint256,t_uint256))"⟩]
  types := mappingTypes

/-- `mapping(uint256 => uint256) remote` at slot 2^64. -/
def remoteLayout : StorageLayout where
  storage := [⟨"remote", "18446744073709551616", 0, "t_mapping(t_uint256,t_uint256)"⟩]
  types := mappingTypes

def gridRow : U256 := 0xada5013122d395ba3c54772283fb069b10426056ef8ca54750cb9bb552a59e7d

/-- Keccak-256 of the inputs hashed below. -/
def sampleKeccak (input : List UInt8) : U256 :=
  if input = wordBytes 1 ++ wordBytes 0 then gridRow
  else if input = wordBytes 5 ++ wordBytes gridRow then
    0xf269ef9134fc688393fbd030bf02c2f70b285804ccf764f25da04990240817e7
  else if input = wordBytes (2 ^ 160 + 5) ++ wordBytes gridRow then
    0x9934d582a39092f2f55d901ea8026a5704a99850bdd9945ea88b35ca1a7ff5df
  else if input = wordBytes 1 ++ wordBytes (2 ^ 64) then
    0xb368123cb70a0216fc5d932cb6f97bacb78e7aed01cb4809c0bc76dfb700ac4b
  else 0

/-- `grid[1][5]`. -/
def gridLogs : List StructLog :=
  [(1, 0), (5, gridRow)].map fun input => hashLog input.1 input.2

/-- A hash of the sample adds its name. -/
theorem namesBefore_gridLogs_succ {k : ℕ} {key base slot : U256} {name : String}
    (hlog : gridLogs[k]? = some (hashLog key base))
    (hname : derivedSlotName gridLayout
      (namesBefore sampleKeccak [] { storageLayout := some gridLayout } gridLogs k)
      (wordBytes key ++ wordBytes base) = some name)
    (hslot : sampleKeccak (wordBytes key ++ wordBytes base) = slot) :
    namesBefore sampleKeccak [] { storageLayout := some gridLayout } gridLogs (k + 1) =
      (namesBefore sampleKeccak [] { storageLayout := some gridLayout } gridLogs k).insert
        slot name := by
  have hfit := snapshotsFit_hashLogs _ _ (List.mem_of_getElem? hlog)
  rw [namesBefore_succ rfl hlog, recordMappingSlot_hash hfit (hashes_hashLog key base) hname, hslot]

theorem namesBefore_gridLogs_one :
    namesBefore sampleKeccak [] { storageLayout := some gridLayout } gridLogs 1 =
      AList.insert gridRow "grid[0x1]" ∅ :=
  namesBefore_gridLogs_succ rfl (by decide +kernel) (by decide +kernel)

theorem namesBefore_gridLogs_two :
    namesBefore sampleKeccak [] { storageLayout := some gridLayout } gridLogs 2 =
      AList.insert 0xf269ef9134fc688393fbd030bf02c2f70b285804ccf764f25da04990240817e7
        "grid[0x1][0x0000000000000000000000000000000000000005]"
        (AList.insert gridRow "grid[0x1]" ∅) := by
  have hname : derivedSlotName gridLayout
      (namesBefore sampleKeccak [] { storageLayout := some gridLayout } gridLogs 1)
      (wordBytes 5 ++ wordBytes gridRow) =
        some "grid[0x1][0x0000000000000000000000000000000000000005]" := by
    rw [namesBefore_gridLogs_one]
    decide +kernel
  have hslot : sampleKeccak (wordBytes 5 ++ wordBytes gridRow) =
      0xf269ef9134fc688393fbd030bf02c2f70b285804ccf764f25da04990240817e7 := by
    decide +kernel
  rw [namesBefore_gridLogs_succ rfl hname hslot, namesBefore_gridLogs_one]

/-- The inner hash is named, and the name has its chain. -/
theorem mappingNames_sound_complete_gridLogs :
    sampleKeccak (wordBytes 5 ++ wordBytes gridRow) ∈
        namesBefore sampleKeccak [] { storageLayout := some gridLayout } gridLogs 2 ∧
      ∃ e keyType base keys, IsMapping gridLayout e keyType base ∧ keys ≠ [] ∧
        gridRow = mappingSlot sampleKeccak base keys ∧
        "grid[0x1]" = mappingName e.label keyType keys ∧
        ∀ pre key post, keys = pre ++ key :: post →
          ∃ j, j < 2 ∧ HashedAt gridLogs j key (mappingSlot sampleKeccak base pre) := by
  obtain ⟨hsound, hcomplete⟩ :=
    @mappingNames_sound_complete sampleKeccak [] { storageLayout := some gridLayout } gridLogs
      gridLayout 2 (snapshotsFit_hashLogs _) rfl (by decide)
  refine ⟨hcomplete 1 (hashLog 5 gridRow) _ (by decide) rfl (hashes_hashLog 5 gridRow) (.inr ?_),
    hsound gridRow "grid[0x1]" ?_⟩
  · rw [secondWord (length_wordBytes 5), namesBefore_gridLogs_one]
    exact (AList.mem_insert _).mpr (.inl rfl)
  · rw [namesBefore_gridLogs_two, AList.lookup_insert_ne (by decide), AList.lookup_insert]

/-- A mapping at slot 2^64 is not looked up. -/
theorem unnamed_remote :
    (∃ e keyType, IsMapping remoteLayout e keyType (2 ^ 64)) ∧
      Hashes (hashLog 1 (2 ^ 64)) (wordBytes 1 ++ wordBytes (2 ^ 64)) ∧
      sampleKeccak (wordBytes 1 ++ wordBytes (2 ^ 64)) ∉
        namesBefore sampleKeccak [] { storageLayout := some remoteLayout }
          [hashLog 1 (2 ^ 64)] 1 := by
  refine ⟨⟨⟨"remote", "18446744073709551616", 0, "t_mapping(t_uint256,t_uint256)"⟩, "uint256",
    by decide, by decide +kernel, _, "t_uint256", rfl, rfl, rfl, rfl⟩, ?_, ?_⟩
  · exact hashes_hashLog 1 (2 ^ 64)
  · rw [← AList.lookup_eq_none]
    decide +kernel

end EvmRecorder
