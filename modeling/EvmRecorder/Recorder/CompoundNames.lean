import EvmRecorder.Recorder.PackedSlots
import EvmRecorder.StorageLayout.ArrayElements

/-!
# Names of the slots of a compound

A write into an array or a struct is shown under a name of its own and with a snapshot of
the compound around it. Both are looked up by the slot alone: the snapshot by the range of
slots, the name of a struct's slot by the places of the members. A slot inside a member,
behind its first, has a snapshot but no name.
-/

namespace EvmRecorder

open Numeral StorageType

/-! ## §1  Layouts without overlap -/

/-- The entry is a variable of type `t` in the slot `base`. -/
structure Placed (layout : StorageLayout) (e : StorageEntry) (t : StorageType) (base : Nat) :
    Prop where
  wellFormed : t.WellFormed
  describes : Describes layout.types t e.typeName
  starts : e.slot = Nat.repr base
  fits : e.offset + t.storageBytes ≤ 32

/-- The byte of storage is one of the variable's. -/
def InBytes (layout : StorageLayout) (e : StorageEntry) (byte : Nat) : Prop :=
  ∃ t base, Placed layout e t base ∧ 32 * base + e.offset ≤ byte ∧
    byte < 32 * base + e.offset + t.numberOfBytes

/-- Variables of Solidity's types, no two of which share a byte; no identifier has a
bracket, and `storage` is a keyword. -/
structure LaidOut (layout : StorageLayout) : Prop where
  placed : ∀ e ∈ layout.storage, ∃ t base, Placed layout e t base
  apart : ∀ e ∈ layout.storage, ∀ e' ∈ layout.storage, ∀ byte,
    InBytes layout e byte → InBytes layout e' byte → e = e'
  labels : ∀ e ∈ layout.storage, '[' ∉ e.label.toList ∧ e.label ≠ "storage"

section Placed

variable {layout : StorageLayout} {e : StorageEntry} {t : StorageType} {base base' : Nat}

theorem Placed.base_eq (h : Placed layout e t base) (hbase : parseU64 e.slot = some base') :
    base' = base := by
  rw [h.starts] at hbase
  exact (parseU64_repr_eq_some_iff.mp hbase).1.symm

/-- A variable has a byte in its slot. -/
theorem Placed.inBytes_base (h : Placed layout e t base) :
    InBytes layout e (32 * base + e.offset) := by
  have hbytes := h.wellFormed.storageBytes_pos.1
  have hpos : 0 < t.numberOfBytes := Nat.mul_pos hbytes t.storageSize_pos
  exact ⟨t, base, h, le_rfl, by omega⟩

/-- A compound has all the bytes of its slots. -/
theorem Placed.inBytes_slot (h : Placed layout e t base) (hwhole : t.storageBytes = 32) {s k : Nat}
    (hle : base ≤ s) (hlt : s < base + t.storageSize) (hk : k < 32) :
    InBytes layout e (32 * s + k) := by
  have hfits := h.fits
  rw [hwhole] at hfits
  have hbytes : t.numberOfBytes = 32 * t.storageSize := by rw [StorageType.numberOfBytes, hwhole]
  refine ⟨t, base, h, by omega, ?_⟩
  rw [hbytes]
  omega

end Placed

/-! ## §2  Members -/

section Members

variable {types : List (String × StorageTypeInfo)}

/-- The members of a struct are placed inside it. -/
theorem slot_of_mem_members : ∀ {members : List StorageType} {start : Position}
    {entries : List StorageEntry}, DescribesMembers types start members entries →
    AllWellFormed members → ∀ m ∈ entries,
      ∃ o, m.slot = Nat.repr o ∧ o < (endPosition start members).usedSlots
  | [], start, entries, h, _, m, hm => by
      obtain rfl : entries = [] := h
      contradiction
  | t :: rest, start, entries, h, hwell, m, hm => by
      obtain ⟨e, entries', rfl, hslot, -, -, hrest⟩ := h
      rcases List.mem_cons.mp hm with rfl | hm
      · have hle : (t.placeAt start).slot + t.storageSize ≤ (endPosition start (t :: rest)).usedSlots :=
          placeAt_add_le hwell
        have hpos := t.storageSize_pos
        exact ⟨_, hslot, by omega⟩
      · rw [AllWellFormed] at hwell
        rw [endPosition_cons]
        exact slot_of_mem_members hrest hwell.2 m hm

/-- The first member is in the first slot. -/
theorem exists_first_member {members : List StorageType} {entries : List StorageEntry}
    (hne : members ≠ []) (hwell : AllWellFormed members)
    (h : DescribesMembers types ⟨0, 0⟩ members entries) :
    ∃ m ∈ entries, m.slot = Nat.repr 0 := by
  obtain ⟨t, rest, rfl⟩ := List.exists_cons_of_ne_nil hne
  obtain ⟨e, entries', rfl, hslot, -⟩ := h
  rw [AllWellFormed] at hwell
  rw [placeAt_zero hwell.1] at hslot
  exact ⟨e, List.mem_cons_self, hslot⟩

/-- Only structs have members and are kept in place. -/
theorem struct_of_describes {t : StorageType} {id : String} {ti : StorageTypeInfo}
    {entries : List StorageEntry} (h : Describes types t id) (hti : types.lookup id = some ti)
    (hinplace : ti.encoding = "inplace") (hentries : ti.members = some entries) :
    ti.base = none ∧ ∃ members, t = struct members ∧
      DescribesMembers types ⟨0, 0⟩ members entries := by
  cases t with
  | value bytes =>
      obtain ⟨ti', hti', -, hnone⟩ := h
      obtain rfl := Option.some.inj (hti'.symm.trans hti)
      rw [(hnone hinplace).2] at hentries
      contradiction
  | array elem length =>
      obtain ⟨ti', base, hti', -, -, -, hnone, -⟩ := h
      obtain rfl := Option.some.inj (hti'.symm.trans hti)
      rw [hnone] at hentries
      contradiction
  | struct members =>
      obtain ⟨ti', entries', hti', -, -, hbase, hentries', hmembers⟩ := h
      obtain rfl := Option.some.inj (hti'.symm.trans hti)
      obtain rfl := Option.some.inj (hentries'.symm.trans hentries)
      exact ⟨hbase, members, rfl, hmembers⟩

end Members

/-! ## §3  The owner of a slot -/

section Owner

variable {layout : StorageLayout} {e e' m : StorageEntry} {ti : StorageTypeInfo}
  {base count slot : Nat}

/-- A compound that is found is a struct or an array, of as many slots as its type takes. -/
theorem CompoundAt.placed (h : CompoundAt layout e ti base count slot) (hlayout : LaidOut layout) :
    ∃ t, Placed layout e t base ∧ t.storageBytes = 32 ∧ count = t.storageSize := by
  obtain ⟨t, base', hplaced⟩ := hlayout.placed e h.mem
  obtain rfl := hplaced.base_eq h.starts
  obtain ⟨total, htotal, rfl⟩ := h.bytes
  refine ⟨t, hplaced, ?_, slotCountOf_of_describes hplaced.describes hplaced.wellFormed h.info htotal⟩
  have hdescribes := hplaced.describes
  cases t with
  | value bytes =>
      obtain ⟨ti', hti', -, hnone⟩ := hdescribes
      obtain rfl := Option.some.inj (hti'.symm.trans h.info)
      have hcompound := h.compound
      rw [(hnone h.inplace).1, (hnone h.inplace).2] at hcompound
      simp at hcompound
  | array elem length => rfl
  | struct members => rfl

/-- Nothing else is in the slots of a compound. -/
theorem CompoundAt.owner (h : CompoundAt layout e ti base count slot) (hlayout : LaidOut layout)
    (he' : e' ∈ layout.storage) {k : Nat} (hk : k < 32) (hbyte : InBytes layout e' (32 * slot + k)) :
    e' = e := by
  obtain ⟨t, hplaced, hwhole, rfl⟩ := h.placed hlayout
  exact hlayout.apart e' he' e h.mem _ hbyte (hplaced.inBytes_slot hwhole h.le h.lt hk)

/-- A variable that is listed under the slot is in it. -/
theorem CompoundAt.eq_of_slot (h : CompoundAt layout e ti base count slot) (hlayout : LaidOut layout)
    (he' : e' ∈ layout.storage) (hslot : e'.slot = Nat.repr slot) : e' = e := by
  obtain ⟨t, base', hplaced⟩ := hlayout.placed e' he'
  obtain rfl : base' = slot := Numeral.repr_inj.mp (hplaced.starts.symm.trans hslot)
  have hbytes := hplaced.wellFormed.storageBytes_pos.1
  have hfits := hplaced.fits
  exact h.owner hlayout he' (by omega) hplaced.inBytes_base

/-- A struct whose member is found has the slot. -/
theorem CompoundAt.eq_of_memberAt (h : CompoundAt layout e ti base count slot)
    (hlayout : LaidOut layout) (hmember : MemberAt layout e' m slot) : e' = e := by
  obtain ⟨t, base', hplaced⟩ := hlayout.placed e' hmember.mem
  obtain ⟨ti', entries, hti', hinplace, hentries, hm⟩ := hmember.inplace
  obtain ⟨-, members, rfl, hmembers⟩ :=
    struct_of_describes hplaced.describes hti' hinplace hentries
  obtain ⟨base'', o, hbase, ho, hslot⟩ := hmember.slot_eq
  obtain rfl := hplaced.base_eq hbase
  have hwell := hplaced.wellFormed
  rw [WellFormed] at hwell
  obtain ⟨o', hslot', hlt⟩ := slot_of_mem_members hmembers hwell.2 m hm
  rw [hslot'] at ho
  obtain ⟨rfl, -⟩ := parseU64_repr_eq_some_iff.mp ho
  have hbaselt := (parseUnsigned_eq_some_iff.mp hbase).2
  -- a saturated sum is between the base and the member's place, so it is in the struct as well
  have hin : base'' ≤ slot ∧ slot < base'' + (struct members).storageSize := by
    rw [← hslot, saturatingAddU64, storageSize]
    omega
  exact h.owner hlayout hmember.mem (by decide : 0 < 32)
    (hplaced.inBytes_slot rfl hin.1 hin.2 (by decide))

/-- An array whose element is found has the slot. -/
theorem CompoundAt.eq_of_arrayAt (h : CompoundAt layout e ti base count slot)
    (hlayout : LaidOut layout) {base' : Nat} (harray : ArrayAt layout e' base' slot) : e' = e := by
  obtain ⟨t, base'', hplaced⟩ := hlayout.placed e' harray.mem
  obtain rfl := hplaced.base_eq harray.starts
  obtain ⟨ti', total, hti', hinplace, hbase, htotal, hlt⟩ := harray.info
  obtain ⟨elem, length, rfl⟩ := array_of_describes hplaced.describes hti' hinplace hbase
  rw [slotCountOf_of_describes hplaced.describes hplaced.wellFormed hti' htotal] at hlt
  exact h.owner hlayout harray.mem (by decide : 0 < 32)
    (hplaced.inBytes_slot rfl harray.le hlt (by decide))

/-- A compound with an element type is found as an array. -/
theorem CompoundAt.arrayElementAt_isSome (h : CompoundAt layout e ti base count slot)
    (helem : ti.base.isSome) : (layout.arrayElementAt slot).isSome := by
  obtain ⟨elem, helem⟩ := Option.isSome_iff_exists.mp helem
  obtain ⟨total, htotal, rfl⟩ := h.bytes
  unfold StorageLayout.arrayElementAt
  rw [List.findSome?_isSome_iff]
  refine ⟨e, h.mem, ?_⟩
  have hrange : base ≤ slot ∧ slot < wrappingAddU64 base (slotCountOf total) := by
    rw [wrappingAddU64_of_lt h.fits]
    exact ⟨h.le, h.lt⟩
  simp [h.starts, h.info, h.inplace, helem, htotal, hrange]

/-- A member is found where it starts. -/
theorem CompoundAt.memberAt_iff (h : CompoundAt layout e ti base count slot) :
    MemberAt layout e m slot ↔
      ∃ members, ti.members = some members ∧ m ∈ members ∧ parseU64 m.slot = some (slot - base) := by
  have hlt := h.lt
  have hle := h.le
  have hfits := h.fits
  constructor
  · rintro ⟨-, ⟨ti', members, hti', -, hmembers, hm⟩, base', o, hbase, ho, hslot⟩
    obtain rfl := Option.some.inj (h.info.symm.trans hti')
    obtain rfl := Option.some.inj (h.starts.symm.trans hbase)
    refine ⟨members, hmembers, hm, ?_⟩
    rw [ho, Option.some.injEq]
    rw [saturatingAddU64] at hslot
    omega
  · rintro ⟨members, hmembers, hm, ho⟩
    refine ⟨h.mem, ⟨ti, members, h.info, h.inplace, hmembers, hm⟩, base, slot - base, h.starts, ho, ?_⟩
    rw [saturatingAddU64]
    omega

/-- In every compound with members one of them starts in its first slot. -/
theorem CompoundAt.first_member (h : CompoundAt layout e ti base count slot)
    (hlayout : LaidOut layout) {entries : List StorageEntry} (hentries : ti.members = some entries) :
    ti.base = none ∧ ∃ m ∈ entries, m.slot = Nat.repr 0 := by
  obtain ⟨t, hplaced, -⟩ := h.placed hlayout
  obtain ⟨hbase, members, rfl, hmembers⟩ :=
    struct_of_describes hplaced.describes h.info h.inplace hentries
  have hwell := hplaced.wellFormed
  rw [WellFormed] at hwell
  exact ⟨hbase, exists_first_member hwell.1 hwell.2 hmembers⟩

/-- Of a slot for which nothing is found: it is not the first, no member starts in it, and the
compound is no array. -/
theorem CompoundAt.of_none (h : CompoundAt layout e ti base count slot) (hlayout : LaidOut layout)
    (hentry : layout.resolveSlot (Nat.repr slot) = none)
    (hmember : layout.structMemberAt slot = none) (helement : layout.arrayElementAt slot = none) :
    slot ≠ base ∧ (∀ m, ¬ MemberAt layout e m slot) ∧ ti.base = none := by
  obtain ⟨t, hplaced, -⟩ := h.placed hlayout
  refine ⟨?_, ?_, ?_⟩
  · intro heq
    rw [heq, ← hplaced.starts] at hentry
    have hnone := List.find?_eq_none.mp hentry e h.mem
    simp at hnone
  · intro m hm
    have hsome := hm.structMemberAt_isSome
    rw [hmember] at hsome
    contradiction
  · by_contra hbase
    have hsome := h.arrayElementAt_isSome (Option.isSome_iff_ne_none.mpr hbase)
    rw [helement] at hsome
    contradiction

end Owner

/-! ## §4  Names -/

/-- The label, alone or before a member or an index. -/
def NamedAfter (e : StorageEntry) (name : String) : Prop :=
  name = e.label ∨ (e.label ++ ".").toList <+: name.toList ∨ (e.label ++ "[").toList <+: name.toList

theorem namedAfter_member (e m : StorageEntry) : NamedAfter e (e.label ++ "." ++ m.label) := by
  right
  left
  have hname : (e.label ++ "." ++ m.label).toList = (e.label ++ ".").toList ++ m.label.toList :=
    String.toList_append
  rw [hname]
  exact List.prefix_append _ _

theorem namedAfter_indexedName (e : StorageEntry) (key : String) :
    NamedAfter e (indexedName e.label key) := by
  right
  right
  have hname : (indexedName e.label key).toList =
      (e.label ++ "[").toList ++ (key.toList ++ "]".toList) := by
    simp only [indexedName, String.toList_append, List.append_assoc]
  rw [hname]
  exact List.prefix_append _ _

/-- The placeholder is no variable's name. -/
theorem not_namedAfter_placeholder {layout : StorageLayout} (hlayout : LaidOut layout)
    {e : StorageEntry} (he : e ∈ layout.storage) (n : Nat) :
    ¬ NamedAfter e ("storage[" ++ Nat.repr n ++ "]") := by
  obtain ⟨hbracket, hkeyword⟩ := hlayout.labels e he
  have hdigits : (Nat.repr n).toList = printNat n := by
    rw [Nat.toList_repr]
    rfl
  have hplaceholder : ("storage[" ++ Nat.repr n ++ "]").toList =
      "storage".toList ++ '[' :: (printNat n ++ [']']) := by
    rw [String.toList_append, String.toList_append, hdigits, List.append_assoc]
    rfl
  have hrest : '[' ∉ printNat n ++ [']'] := by
    rw [List.mem_append, not_or]
    exact ⟨not_mem_printNat (by decide), by decide⟩
  rintro (hname | hdot | hindex)
  · rw [← hname, hplaceholder] at hbracket
    exact hbracket (List.mem_append_right _ List.mem_cons_self)
  · rw [hplaceholder, String.toList_append] at hdot
    have hmem : '.' ∈ "storage".toList ++ '[' :: (printNat n ++ [']']) :=
      hdot.subset (List.mem_append_right _ List.mem_cons_self)
    rw [List.mem_append, List.mem_cons, List.mem_append] at hmem
    rcases hmem with hmem | hmem | hmem | hmem
    · exact absurd hmem (by decide)
    · exact absurd hmem (by decide)
    · exact not_mem_printNat (by decide) hmem
    · exact absurd hmem (by decide)
  · obtain ⟨rest, hrest'⟩ := hindex
    rw [hplaceholder, String.toList_append, List.append_assoc] at hrest'
    -- the placeholder has one bracket, and the label would be what stands before it
    have hprefix : e.label.toList ++ '[' :: rest = "storage".toList ++ '[' :: (printNat n ++ [']']) :=
      hrest'
    obtain ⟨hlabel, -⟩ :=
      (List.append_cons_inj_of_notMem (by decide : '[' ∉ "storage".toList) hrest).mp hprefix.symm
    exact hkeyword (String.toList_inj.mp hlabel.symm)

/-! ## §5  The name of a compound's slot -/

section Names

variable {layout : StorageLayout} {e : StorageEntry} {ti : StorageTypeInfo} {base count : Nat}
  {names : MappingSlotNames} {slot : U256}

/-- The names that a compound's slot can get: the lookups find the compound or nothing. -/
theorem CompoundAt.storageVarName_cases (h : CompoundAt layout e ti base count slot.toNat)
    (hlayout : LaidOut layout) (hnames : slot ∉ names) :
    slot.toNat = base ∧ storageVarName (some layout) names slot = e.label ∨
    (∃ m, MemberAt layout e m slot.toNat ∧
      storageVarName (some layout) names slot = e.label ++ "." ++ m.label) ∨
    ti.base.isSome ∧ storageVarName (some layout) names slot =
      indexedName e.label (toString (slot.toNat - base)) ∨
    slot.toNat ≠ base ∧ (∀ m, ¬ MemberAt layout e m slot.toNat) ∧ ti.base = none ∧
      storageVarName (some layout) names slot = "storage[" ++ Nat.repr slot.toNat ++ "]" := by
  have hslot : slot.toNat < 2 ^ 64 := h.lt.trans h.fits
  have hparse := parseU64_repr_eq_some_iff.mpr ⟨rfl, hslot⟩
  have hlookup : names.lookup slot = none := AList.lookup_eq_none.mpr hnames
  obtain ⟨t, hplaced, -⟩ := h.placed hlayout
  have hnamed := namedBy_storageVarName layout names slot
  generalize storageVarName (some layout) names slot = name at hnamed ⊢
  cases hnamed with
  | @entry e' hentry =>
      left
      have hslot' : e'.slot = Nat.repr slot.toNat := by simpa using List.find?_some hentry
      obtain rfl := h.eq_of_slot hlayout (List.mem_of_find?_eq_some hentry) hslot'
      exact ⟨Numeral.repr_inj.mp (hslot'.symm.trans hplaced.starts), rfl⟩
  | mapping _ hmapping =>
      rw [hlookup] at hmapping
      contradiction
  | member _ _ hmember =>
      right
      left
      rw [hparse, Option.bind_some] at hmember
      obtain ⟨e', m, hm, hlabels⟩ := structMemberAt_spec hmember
      obtain ⟨rfl, rfl⟩ := Prod.mk.inj hlabels
      obtain rfl := h.eq_of_memberAt hlayout hm
      exact ⟨m, hm, rfl⟩
  | element _ _ _ helement =>
      right
      right
      left
      rw [hparse, Option.bind_some] at helement
      obtain ⟨e', base', hat, rfl, rfl⟩ := arrayElementAt_spec helement
      obtain rfl := h.eq_of_arrayAt hlayout hat
      obtain rfl := Option.some.inj (h.starts.symm.trans hat.starts)
      obtain ⟨ti', -, hti', -, hbase, -⟩ := hat.info
      obtain rfl := Option.some.inj (h.info.symm.trans hti')
      exact ⟨hbase, rfl⟩
  | placeholder hentry _ hmember helement =>
      right
      right
      right
      rw [hparse, Option.bind_some] at hmember helement
      -- each lookup that found nothing rules out one of the other names
      obtain ⟨hne, hno, hbase⟩ := h.of_none hlayout hentry hmember helement
      exact ⟨hne, hno, hbase, rfl⟩

/-- A slot of a compound is named after it exactly when it is not a struct's slot in which no
member starts. -/
theorem compound_named_iff (hlayout : LaidOut layout) (hnames : slot ∉ names)
    (hfound : layout.containingCompound slot.toNat = some (e, ti, count)) :
    NamedAfter e (storageVarName (some layout) names slot) ↔
      ∀ members base, ti.members = some members → parseU64 e.slot = some base →
        ∃ m ∈ members, parseU64 m.slot = some (slot.toNat - base) := by
  obtain ⟨base, h⟩ := compoundAt_of_containingCompound hfound
  have hiff : (∀ members base', ti.members = some members → parseU64 e.slot = some base' →
      ∃ m ∈ members, parseU64 m.slot = some (slot.toNat - base')) ↔
      ∀ members, ti.members = some members → ∃ m, MemberAt layout e m slot.toNat := by
    constructor
    · intro hall members hmembers
      obtain ⟨m, hm, ho⟩ := hall members base hmembers h.starts
      exact ⟨m, h.memberAt_iff.mpr ⟨members, hmembers, hm, ho⟩⟩
    · intro hall members base' hmembers hbase'
      obtain rfl := Option.some.inj (h.starts.symm.trans hbase')
      obtain ⟨m, hm⟩ := hall members hmembers
      obtain ⟨members', hmembers', hm, ho⟩ := h.memberAt_iff.mp hm
      obtain rfl := Option.some.inj (hmembers.symm.trans hmembers')
      exact ⟨m, hm, ho⟩
  rw [hiff]
  rcases h.storageVarName_cases hlayout hnames with
    ⟨heq, hname⟩ | ⟨m, hm, hname⟩ | ⟨hbase, hname⟩ | ⟨-, hnone, hbase, hname⟩
  · rw [hname]
    refine iff_of_true (.inl rfl) fun members hmembers => ?_
    obtain ⟨-, m, hm, hzero⟩ := h.first_member hlayout hmembers
    refine ⟨m, h.memberAt_iff.mpr ⟨members, hmembers, hm, ?_⟩⟩
    rw [hzero, parseU64_repr, heq, Nat.sub_self]
    rfl
  · rw [hname]
    exact iff_of_true (namedAfter_member e m) fun _ _ => ⟨m, hm⟩
  · rw [hname]
    refine iff_of_true (namedAfter_indexedName e _) fun members hmembers => ?_
    rw [(h.first_member hlayout hmembers).1] at hbase
    contradiction
  · rw [hname]
    refine iff_of_false (not_namedAfter_placeholder hlayout h.mem _) fun hall => ?_
    have hsome : ti.members.isSome := by
      rcases h.compound with hmembers | helem
      · exact hmembers
      · rw [hbase] at helem
        contradiction
    obtain ⟨members, hmembers⟩ := Option.isSome_iff_exists.mp hsome
    obtain ⟨m, hm⟩ := hall members hmembers
    exact hnone m hm

end Names

/-! ### An array in a struct -/

/-- `struct T { uint256 a; uint256[2] b; uint256 c; }`. -/
def nestedType : StorageTypeInfo where
  encoding := "inplace"
  label := "struct T"
  numberOfBytes := "128"
  members := some [⟨"a", "0", 0, "uint256"⟩, ⟨"b", "1", 0, "uint256[2]"⟩, ⟨"c", "3", 0, "uint256"⟩]

/-- `T t;`. -/
def nestedLayout : StorageLayout where
  storage := [⟨"t", "0", 0, "T"⟩]
  types := [("uint256", uint256Type), ("T", nestedType),
    ("uint256[2]",
      { encoding := "inplace", label := "uint256[2]", numberOfBytes := "64",
        base := some "uint256" })]

theorem nestedLayout_laidOut : LaidOut nestedLayout := by
  have hword : Describes nestedLayout.types (.value 32) "uint256" :=
    ⟨_, rfl, by decide, fun _ => ⟨rfl, rfl⟩⟩
  have hpair : Describes nestedLayout.types (.array (.value 32) 2) "uint256[2]" :=
    ⟨_, _, rfl, by decide, rfl, rfl, rfl, hword⟩
  have hstruct : Describes nestedLayout.types
      (.struct [.value 32, .array (.value 32) 2, .value 32]) "T" :=
    ⟨_, _, rfl, by decide, rfl, rfl, rfl, _, _, rfl, by decide, by decide, hword,
      _, _, rfl, by decide, by decide, hpair, _, _, rfl, by decide, by decide, hword, rfl⟩
  have hwell : (struct [.value 32, .array (.value 32) 2, .value 32]).WellFormed := by
    simp [WellFormed, AllWellFormed]
  have honly : ∀ e ∈ nestedLayout.storage, e = ⟨"t", "0", 0, "T"⟩ := fun e he =>
    List.mem_singleton.mp he
  refine ⟨?_, ?_, ?_⟩
  · intro e he
    obtain rfl := honly e he
    exact ⟨_, 0, hwell, hstruct, by decide, by decide⟩
  · intro e he e' he' _ _ _
    exact (honly e he).trans (honly e' he').symm
  · intro e he
    obtain rfl := honly e he
    decide

/-- The second slot of `t.b` belongs to `t` and has no name. -/
theorem nestedLayout_unnamed : LaidOut nestedLayout ∧
    nestedLayout.containingCompound 2 = some (⟨"t", "0", 0, "T"⟩, nestedType, 4) ∧
    storageVarName (some nestedLayout) ∅ 2 = "storage[2]" ∧
    ¬ NamedAfter ⟨"t", "0", 0, "T"⟩ "storage[2]" :=
  ⟨nestedLayout_laidOut, by decide, by decide,
    not_namedAfter_placeholder nestedLayout_laidOut List.mem_cons_self 2⟩

/-- The first slot of `t.b`. -/
theorem nestedLayout_named :
    NamedAfter ⟨"t", "0", 0, "T"⟩ (storageVarName (some nestedLayout) ∅ 1) ↔
      ∀ members base, nestedType.members = some members → parseU64 "0" = some base →
        ∃ m ∈ members, parseU64 m.slot = some (1 - base) :=
  compound_named_iff nestedLayout_laidOut (AList.notMem_empty 1)
    (by decide : nestedLayout.containingCompound 1 = some (⟨"t", "0", 0, "T"⟩, nestedType, 4))

end EvmRecorder
