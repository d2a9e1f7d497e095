import EvmRecorder.Evm.AbiDescription
import EvmRecorder.Library.JoinedTexts
import EvmRecorder.Model.CustomErrors

/-!
# Selectors of custom errors

The registry files an error under the hash of its signature with the type names of the JSON
ABI. That is the canonical signature unless a parameter is a struct or an array of structs,
whose members the JSON name leaves out.
-/

namespace EvmRecorder

open Bytes RevertDecode

/-! ## §1  Signatures -/

namespace AbiError

/-- What the registry keeps for the error. -/
def definition (e : AbiError) : CustomErrorDef where
  name := e.name
  paramTypes := e.inputs.map fun p => p.type.jsonName
  paramNames := e.inputs.map (·.name)

/-- `Name(t1,t2,...)` with the canonical types. -/
def canonicalSignature (e : AbiError) : String :=
  e.name ++ "(" ++ String.intercalate "," (e.inputs.map fun p => p.type.canonicalName) ++ ")"

/-- No parameter is a struct or an array of structs. -/
def StructFree (e : AbiError) : Prop := ∀ p ∈ e.inputs, p.type.base.isTuple = false

instance (e : AbiError) : Decidable e.StructFree :=
  inferInstanceAs (Decidable (∀ p ∈ e.inputs, p.type.base.isTuple = false))

theorem paren_notMem_name (e : AbiError) : '(' ∉ e.name.toList := fun h =>
  absurd (List.all_eq_true.mp e.isIdentifier '(' h) (by decide)

theorem signature_of_structFree {e : AbiError} (h : e.StructFree) :
    e.definition.signature = e.canonicalSignature := by
  have htypes : e.inputs.map (fun p => p.type.jsonName) =
      e.inputs.map fun p => p.type.canonicalName :=
    List.map_congr_left fun p hp => (AbiType.canonicalName_eq_jsonName (h p hp)).symm
  rw [CustomErrorDef.signature, canonicalSignature, definition, htypes]

/-- The canonical name of a struct has a parenthesis, its JSON name has none. -/
theorem structFree_of_signature_eq {e : AbiError}
    (h : e.definition.signature = e.canonicalSignature) : e.StructFree := by
  have hlists : e.name.toList ++ '(' ::
        ([','].intercalate ((e.inputs.map fun p => p.type.jsonName).map String.toList) ++ [')']) =
      e.name.toList ++ '(' ::
        ([','].intercalate ((e.inputs.map fun p => p.type.canonicalName).map String.toList) ++
          [')']) := by
    have htexts := congrArg String.toList h
    simp only [CustomErrorDef.signature, canonicalSignature, definition, String.toList_append,
      String.toList_intercalate, List.append_assoc] at htexts
    exact htexts
  obtain ⟨-, hargs⟩ := JoinedTexts.append_cons_inj e.paren_notMem_name e.paren_notMem_name hlists
  have hjoined := List.append_cancel_right hargs
  have hparen : '(' ∉ [','].intercalate ((e.inputs.map fun p => p.type.jsonName).map String.toList) :=
    JoinedTexts.not_mem_intercalate (by decide) fun t ht hmem => by
      rw [List.map_map] at ht
      obtain ⟨p, -, rfl⟩ := List.mem_map.mp ht
      rcases AbiType.mem_jsonName hmem with h | h | h <;> exact absurd h (by decide)
  intro p hp
  rw [← Bool.not_eq_true]
  intro htuple
  rw [hjoined] at hparen
  exact hparen (JoinedTexts.mem_intercalate
    (List.mem_map_of_mem (List.mem_map_of_mem hp)) (AbiType.paren_mem_canonicalName htuple))

theorem signature_eq_iff (e : AbiError) :
    e.definition.signature = e.canonicalSignature ↔ e.StructFree :=
  ⟨structFree_of_signature_eq, signature_of_structFree⟩

end AbiError

/-! ## §2  What is found under a selector -/

theorem errorOfEntry_of_describes {item : Value} {entry : Option AbiError}
    (h : DescribesEntry item entry) : errorOfEntry item = entry.map AbiError.definition := by
  cases entry with
  | none =>
      have hother : (item.getStr "type").getD "" ≠ "error" := by
        intro heq
        cases htype : item.getStr "type" with
        | none =>
            rw [htype] at heq
            exact absurd heq (by decide)
        | some ty =>
            rw [htype] at heq
            exact h (htype.trans (congrArg some heq))
      exact if_pos hother
  | some e =>
      obtain ⟨htype, hname, inputs, hinputs, hparams⟩ := h
      have htypes : inputs.map (fun p => (p.getStr "type").getD "") =
          e.inputs.map fun p => p.type.jsonName :=
        map_eq_of_forall₂ (fun v p hp => by rw [hp.type.getStr_type, Option.getD_some]) hparams
      have hnames : inputs.map (fun p => (p.getStr "name").getD "") = e.inputs.map (·.name) :=
        map_eq_of_forall₂ (fun v p hp => by rw [hp.name, Option.getD_some]) hparams
      rw [errorOfEntry, htype, if_neg (by decide), hname, hinputs]
      simp only [Option.bind_eq_bind, Option.bind_some, Option.getD_some, htypes, hnames]
      rfl

section Registry

variable (keccak256 : List UInt8 → U256)

/-- The selector under which the registry files a definition. -/
def filedUnder (d : CustomErrorDef) : List UInt8 := keccakSelector keccak256 (utf8 d.signature)

theorem get_insert (registry : CustomErrorRegistry) (selector selector' : List UInt8)
    (d : CustomErrorDef) :
    (registry.insert selector d).get selector' =
      if selector' = selector then some d else registry.get selector' := by
  rw [CustomErrorRegistry.get, CustomErrorRegistry.insert, List.lookup_cons]
  by_cases h : selector' = selector
  · rw [if_pos h, beq_iff_eq.mpr h]
  · rw [if_neg h, beq_eq_false_iff_ne.mpr h]
    rfl

variable {keccak256}

theorem insertErrors_append (registry : CustomErrorRegistry) (abi abi' : List Value) :
    insertErrors keccak256 registry (abi ++ abi') =
      insertErrors keccak256 (insertErrors keccak256 registry abi) abi' := by
  induction abi generalizing registry with
  | nil => rfl
  | cons item abi ih =>
      rw [List.cons_append, insertErrors, insertErrors]
      cases errorOfEntry item with
      | none => exact ih registry
      | some d => exact ih _

/-- Entries that are filed elsewhere leave a selector alone. -/
theorem get_insertErrors_of_elsewhere {selector : List UInt8} {abi : List Value}
    (h : ∀ item ∈ abi, ∀ d, errorOfEntry item = some d → filedUnder keccak256 d ≠ selector)
    (registry : CustomErrorRegistry) :
    (insertErrors keccak256 registry abi).get selector = registry.get selector := by
  induction abi generalizing registry with
  | nil => rfl
  | cons item abi ih =>
      have hrest := ih fun item' hitem' => h item' (List.mem_cons_of_mem item hitem')
      rw [insertErrors]
      cases hentry : errorOfEntry item with
      | none => exact hrest registry
      | some d =>
          have hne := h item List.mem_cons_self d hentry
          rw [hrest, get_insert]
          exact if_neg (Ne.symm hne)

/-- As soon as an entry is filed under a selector, the definition of one of those is found. -/
theorem exists_of_get_insertErrors {selector : List UInt8} {abi : List Value}
    (h : ∃ item ∈ abi, ∃ d, errorOfEntry item = some d ∧ filedUnder keccak256 d = selector)
    (registry : CustomErrorRegistry) :
    ∃ item ∈ abi, ∃ d, errorOfEntry item = some d ∧ filedUnder keccak256 d = selector ∧
      (insertErrors keccak256 registry abi).get selector = some d := by
  induction abi generalizing registry with
  | nil =>
      obtain ⟨item, hitem, -⟩ := h
      cases hitem
  | cons item abi ih =>
      by_cases hrest : ∃ item ∈ abi, ∃ d,
          errorOfEntry item = some d ∧ filedUnder keccak256 d = selector
      · rw [insertErrors]
        cases errorOfEntry item with
        | none =>
            obtain ⟨item', hitem', hfound⟩ := ih hrest registry
            exact ⟨item', List.mem_cons_of_mem item hitem', hfound⟩
        | some d =>
            obtain ⟨item', hitem', hfound⟩ := ih hrest _
            exact ⟨item', List.mem_cons_of_mem item hitem', hfound⟩
      · -- the first entry is the only one filed there
        obtain ⟨item', hitem', d, hd, hfiled⟩ := h
        have hlater : ∀ item ∈ abi, ∀ d, errorOfEntry item = some d →
            filedUnder keccak256 d ≠ selector := fun item hitem d hd hfiled =>
          hrest ⟨item, hitem, d, hd, hfiled⟩
        rcases List.mem_cons.mp hitem' with rfl | hmem
        · refine ⟨item', List.mem_cons_self, d, hd, hfiled, ?_⟩
          rw [insertErrors, hd]
          dsimp only
          rw [get_insertErrors_of_elsewhere hlater, get_insert]
          exact if_pos hfiled.symm
        · exact absurd hfiled (hlater item' hmem d hd)

/-- With the last entry of a selector in view, that entry is found. -/
theorem get_insertErrors_of_last {selector : List UInt8} {d : CustomErrorDef}
    {pre post : List Value} {item : Value} (hd : errorOfEntry item = some d)
    (hfiled : filedUnder keccak256 d = selector)
    (hlater : ∀ item ∈ post, ∀ d, errorOfEntry item = some d → filedUnder keccak256 d ≠ selector)
    (registry : CustomErrorRegistry) :
    (insertErrors keccak256 registry (pre ++ item :: post)).get selector = some d := by
  rw [insertErrors_append, insertErrors, hd]
  dsimp only
  rw [get_insertErrors_of_elsewhere hlater, get_insert]
  exact if_pos hfiled.symm

end Registry

/-! ## §3  Canonical selectors -/

section Canonical

variable (keccak256 : List UInt8 → U256)

/-- The selector by the rules of the ABI. -/
def AbiError.selector (e : AbiError) : List UInt8 :=
  keccakSelector keccak256 (utf8 e.canonicalSignature)

/-- No other entry has the selector of entry `i`. -/
def Unshared (entries : List (Option AbiError)) (i : Nat) (e : AbiError) : Prop :=
  ∀ j e', j ≠ i → entries[j]? = some (some e') → e'.selector keccak256 ≠ e.selector keccak256

/-- The JSON names give the error its own selector, and whatever later entry is filed there is
followed by one with the definition of the error. Without structs `own` holds; with them it
asks for two signatures of one selector, by `signature_eq_iff`. -/
structure FiledLast (entries : List (Option AbiError)) (i : Nat) (e : AbiError) : Prop where
  own : e.StructFree ∨ filedUnder keccak256 e.definition = e.selector keccak256
  last : ∀ (j : Nat) (e' : AbiError), i < j → entries[j]? = some (some e') →
    filedUnder keccak256 e'.definition = e.selector keccak256 →
    ∃ k : Nat, ∃ e'' : AbiError, j ≤ k ∧ entries[k]? = some (some e'') ∧
      e''.definition = e.definition

variable {keccak256}

theorem AbiError.filedUnder_of_structFree {e : AbiError} (h : e.StructFree) :
    filedUnder keccak256 e.definition = e.selector keccak256 := by
  rw [filedUnder, AbiError.signature_of_structFree h]
  rfl

theorem FiledLast.filedUnder_eq {entries : List (Option AbiError)} {i : Nat} {e : AbiError}
    (h : FiledLast keccak256 entries i e) :
    filedUnder keccak256 e.definition = e.selector keccak256 :=
  h.own.elim AbiError.filedUnder_of_structFree id

/-- The last entry with the definition of `e` has no entry of its selector behind it. -/
theorem FiledLast.exists_last {entries : List (Option AbiError)} {i : Nat} {e : AbiError}
    (h : FiledLast keccak256 entries i e) (hentry : entries[i]? = some (some e)) :
    ∃ k : Nat, ∃ e' : AbiError, entries[k]? = some (some e') ∧ e'.definition = e.definition ∧
      ∀ (j : Nat) (e'' : AbiError), k < j → entries[j]? = some (some e'') →
        filedUnder keccak256 e''.definition ≠ e.selector keccak256 := by
  classical
  let same (k : Nat) : Prop :=
    i ≤ k ∧ ∃ e' : AbiError, entries[k]? = some (some e') ∧ e'.definition = e.definition
  have hbound : ∀ k, same k → k ≤ entries.length := by
    rintro k ⟨-, e', he', -⟩
    exact (List.getElem?_eq_some_iff.mp he').1.le
  have hi : same i := ⟨le_rfl, e, hentry, rfl⟩
  have hspec : same (Nat.findGreatest same entries.length) :=
    Nat.findGreatest_spec (hbound i hi) hi
  obtain ⟨hik, e', he', hdef⟩ := hspec
  refine ⟨_, e', he', hdef, fun j e'' hj he'' hfiled => ?_⟩
  obtain ⟨k, e₃, hjk, he₃, hdef₃⟩ := h.last j e'' (by omega) he'' hfiled
  have hk : same k := ⟨by omega, e₃, he₃, hdef₃⟩
  have hle := Nat.le_findGreatest (hbound k hk) hk
  omega

section Entries

variable {abi : List Value} {entries : List (Option AbiError)}

theorem errorOfEntry_getElem (habi : List.Forall₂ DescribesEntry abi entries) {i : Nat}
    (hi : i < abi.length) :
    ∃ entry, entries[i]? = some entry ∧ errorOfEntry abi[i] = entry.map AbiError.definition := by
  obtain ⟨hlength, hdescribes⟩ := List.forall₂_iff_get.mp habi
  have hi' : i < entries.length := by omega
  exact ⟨entries[i], List.getElem?_eq_getElem hi', errorOfEntry_of_describes (hdescribes i hi hi')⟩

/-- An entry of the array and its definition, found at the index of the description. -/
theorem errorOfEntry_of_getElem? (habi : List.Forall₂ DescribesEntry abi entries) {i : Nat}
    {e : AbiError} (hentry : entries[i]? = some (some e)) :
    ∃ hi : i < abi.length, errorOfEntry abi[i] = some e.definition := by
  have hi : i < abi.length := by
    rw [habi.length_eq]
    exact (List.getElem?_eq_some_iff.mp hentry).1
  obtain ⟨entry, hget, hitem⟩ := errorOfEntry_getElem habi hi
  rw [hentry] at hget
  cases hget
  exact ⟨hi, hitem⟩

/-- The other way round, at an index past `n`. -/
theorem getElem?_of_mem_drop (habi : List.Forall₂ DescribesEntry abi entries) {n : Nat}
    {item : Value} (hitem : item ∈ abi.drop n) {d : CustomErrorDef} (hd : errorOfEntry item = some d) :
    ∃ j, ∃ e : AbiError, n ≤ j ∧ entries[j]? = some (some e) ∧ e.definition = d := by
  obtain ⟨k, hk, rfl⟩ := List.mem_iff_getElem.mp hitem
  rw [List.length_drop] at hk
  rw [List.getElem_drop] at hd
  obtain ⟨entry, hget, hitem'⟩ := errorOfEntry_getElem habi (i := n + k) (by omega)
  rw [hd] at hitem'
  obtain ⟨e, rfl, rfl⟩ := Option.map_eq_some_iff.mp hitem'.symm
  exact ⟨n + k, e, by omega, hget, rfl⟩

end Entries

theorem own_of_found {abi : List Value} {selector : List UInt8} {d : CustomErrorDef}
    (h : (CustomErrorRegistry.fromAbi keccak256 abi).get selector = some d) :
    filedUnder keccak256 d = selector := by
  by_cases hsome : ∃ item ∈ abi, ∃ d, errorOfEntry item = some d ∧ filedUnder keccak256 d = selector
  · obtain ⟨item, -, d', -, hfiled, hget⟩ := exists_of_get_insertErrors hsome {}
    rw [CustomErrorRegistry.fromAbi, hget, Option.some_inj] at h
    rw [← h, hfiled]
  · have hnone := @get_insertErrors_of_elsewhere keccak256 selector abi
      (fun item hitem d hd hfiled => hsome ⟨item, hitem, d, hd, hfiled⟩) {}
    rw [CustomErrorRegistry.fromAbi, hnone] at h
    cases h

/-- From an entry filed under a selector on, the definition found there occurs. -/
theorem last_of_found {abi : List Value} {entries : List (Option AbiError)}
    (habi : List.Forall₂ DescribesEntry abi entries) {selector : List UInt8} {d : CustomErrorDef}
    (h : (CustomErrorRegistry.fromAbi keccak256 abi).get selector = some d) {j : Nat} {e : AbiError}
    (hentry : entries[j]? = some (some e)) (hfiled : filedUnder keccak256 e.definition = selector) :
    ∃ k : Nat, ∃ e' : AbiError, j ≤ k ∧ entries[k]? = some (some e') ∧ e'.definition = d := by
  obtain ⟨hj, hitem⟩ := errorOfEntry_of_getElem? habi hentry
  have hsplit : abi = abi.take j ++ abi.drop j := (List.take_append_drop j abi).symm
  have hmem : abi[j] ∈ abi.drop j := List.mem_drop_iff_getElem.mpr ⟨0, by omega, by simp⟩
  obtain ⟨item, hitem', d', hd', -, hget⟩ :=
    exists_of_get_insertErrors ⟨_, hmem, _, hitem, hfiled⟩
      (insertErrors keccak256 {} (abi.take j))
  rw [← insertErrors_append, ← hsplit] at hget
  rw [CustomErrorRegistry.fromAbi, hget, Option.some_inj] at h
  rw [h] at hd'
  exact getElem?_of_mem_drop habi hitem' hd'

/-- The registry has an error at its canonical selector exactly if it is filed there last. -/
theorem fromAbi_get_selector_iff {abi : List Value} {entries : List (Option AbiError)}
    (habi : List.Forall₂ DescribesEntry abi entries) {i : Nat} {e : AbiError}
    (hentry : entries[i]? = some (some e)) :
    (CustomErrorRegistry.fromAbi keccak256 abi).get (e.selector keccak256) = some e.definition ↔
      FiledLast keccak256 entries i e := by
  constructor
  · intro h
    exact ⟨.inr (own_of_found h), fun j e' _ he' hfiled => last_of_found habi h he' hfiled⟩
  · intro h
    obtain ⟨k, e', he', hdef, hlater⟩ := h.exists_last hentry
    obtain ⟨hk, hitem⟩ := errorOfEntry_of_getElem? habi he'
    have hsplit : abi = abi.take k ++ abi[k] :: abi.drop (k + 1) := by
      rw [List.getElem_cons_drop, List.take_append_drop]
    rw [CustomErrorRegistry.fromAbi, hsplit]
    rw [hdef] at hitem
    refine get_insertErrors_of_last hitem h.filedUnder_eq (fun item hmem d hd => ?_) {}
    obtain ⟨j, e'', hj, he'', rfl⟩ := getElem?_of_mem_drop habi hmem hd
    exact hlater j e'' (by omega) he''

end Canonical

/-! ## §4  An error with a struct -/

/-- `error Short(uint256 available, bool)`. -/
def shortError : AbiError :=
  ⟨"Short", [⟨"available", .elementary .uint256⟩, ⟨"", .elementary .bool⟩], by decide⟩

/-- `error Rejected(Order order)` for a struct of an address and a number. -/
def rejectedError : AbiError :=
  ⟨"Rejected", [⟨"order", .tuple (.elementary .address) [.elementary .uint256]⟩], by decide⟩

def describeParam (name ty : String) : Value :=
  .object [("name", .string name), ("type", .string ty)]

def ordersAbi : List Value :=
  [.object [("type", .string "error"), ("name", .string "Short"),
      ("inputs", .array [describeParam "available" "uint256", describeParam "" "bool"])],
    .object [("type", .string "error"), ("name", .string "Rejected"),
      ("inputs", .array [.object [("name", .string "order"), ("type", .string "tuple"),
        ("components", .array [describeParam "maker" "address",
          describeParam "amount" "uint256"])]])]]

def ordersEntries : List (Option AbiError) := [some shortError, some rejectedError]

theorem describesEntry_ordersAbi : List.Forall₂ DescribesEntry ordersAbi ordersEntries := by
  refine .cons ⟨rfl, rfl, _, rfl, ?_⟩ (.cons ⟨rfl, rfl, _, rfl, ?_⟩ .nil)
  · exact .cons ⟨rfl, .plain rfl rfl⟩ (.cons ⟨rfl, .plain rfl rfl⟩ .nil)
  · exact .cons ⟨rfl, .struct rfl rfl rfl (.cons (.plain rfl rfl) (.cons (.plain rfl rfl) .nil))⟩
      .nil

/-- Keccak-256 of the signatures that occur. -/
def ordersHash (bytes : List UInt8) : U256 :=
  if bytes = utf8 "Short(uint256,bool)" then
    0x0dbe9db43d7f034eaac5ada0e3d0693877dacb6340f168f5c86b688d601a5250#256
  else if bytes = utf8 "Rejected(tuple)" then
    0x5cd24fd7b820890e297aa490460a753df04340bfa5318087c0aeba497e48b0bd#256
  else if bytes = utf8 "Rejected((address,uint256))" then
    0x17742ac0a6ccc05d83c47a250aa5e229f9bfa8b51dcfd728e4976351dbeac290#256
  else 0

theorem unshared_ordersEntries {i : Nat} {e : AbiError} (h : ordersEntries[i]? = some (some e)) :
    Unshared ordersHash ordersEntries i e := by
  have hne : shortError.selector ordersHash ≠ rejectedError.selector ordersHash := by
    decide +kernel
  intro j e' hj he'
  rcases i with _ | _ | i <;> rcases j with _ | _ | j <;> cases h <;> cases he'
  · exact absurd rfl hj
  · exact hne.symm
  · exact hne
  · exact absurd rfl hj

theorem short_found :
    (CustomErrorRegistry.fromAbi ordersHash ordersAbi).get [0x0d, 0xbe, 0x9d, 0xb4] =
      some shortError.definition := by
  have hselector : shortError.selector ordersHash = [0x0d, 0xbe, 0x9d, 0xb4] := by decide +kernel
  rw [← hselector]
  refine (fromAbi_get_selector_iff describesEntry_ordersAbi (i := 0) rfl).mpr ⟨.inl (by decide), ?_⟩
  intro j e' hj he' hfiled
  rcases j with _ | _ | j <;> cases he'
  · exact absurd hj (by decide)
  · exact absurd hfiled (by decide +kernel)

/-- The other error is filed under `Rejected(tuple)`, and not found. -/
theorem rejected_missing :
    List.Forall₂ DescribesEntry ordersAbi ordersEntries ∧
    Unshared ordersHash ordersEntries 1 rejectedError ∧
    rejectedError.canonicalSignature = "Rejected((address,uint256))" ∧
    (CustomErrorRegistry.fromAbi ordersHash ordersAbi).get (rejectedError.selector ordersHash) =
      none := by
  refine ⟨describesEntry_ordersAbi, unshared_ordersEntries rfl, ?_, ?_⟩
  · decide +kernel
  · decide +kernel

end EvmRecorder
