import EvmRecorder.Evm.AbiDescription
import EvmRecorder.Library.AbiEncoding
import EvmRecorder.Model.CallData

/-!
# Default call data

The command line puts one word for each parameter it can give a default. It knows the
types by the beginning of their names, so that an array of integers is taken for an
integer. The words are an encoding of arguments when all types fill one word.
-/

namespace EvmRecorder

open Numeral Bytes

/-! ## §1  Default words -/

/-- Truth values, addresses and byte strings of a fixed length. -/
def AbiType.takesZero : AbiType → Bool
  | .elementary .bool | .elementary .address | .elementary (.fixedBytes _) => true
  | _ => false

/-- The types that get a default word. -/
def AbiType.isAccepted (t : AbiType) : Bool := t.isIntegerBased || t.takesZero

/-- The word an accepted type gets. -/
def AbiType.defaultWord (t : AbiType) : U256 := if t.isIntegerBased then 7 else 0

theorem lastByteSet_seven : lastByteSet 7 = wordBytes 7 := by decide

theorem lastByteSet_ten : lastByteSet 10 = wordBytes 10 := by decide

theorem replicate_zero : List.replicate 32 0 = wordBytes 0 := by decide

theorem encodeDefaultArgValue_integer {ty : String}
    (h : ("uint".toList.isPrefixOf ty.toList || "int".toList.isPrefixOf ty.toList) = true) :
    encodeDefaultArgValue ty = some (wordBytes 7) := by
  rw [encodeDefaultArgValue, if_pos h, lastByteSet_seven]

theorem encodeDefaultArgValue_array {t : AbiType} (harray : t.isArray = true)
    (hint : t.isIntegerBased = false) : encodeDefaultArgValue t.jsonName = none := by
  obtain ⟨front, hfront⟩ := AbiType.exists_jsonName_array harray
  have hbracket : ']' ∈ t.jsonName.toList := hfront ▸ List.mem_append_right _ List.mem_cons_self
  have hname : ∀ {name : String}, ']' ∉ name.toList → t.jsonName ≠ name := by
    rintro name hnone rfl
    exact hnone hbracket
  have hint' := t.isPrefixOf_jsonName_integer
  rw [hint] at hint'
  rw [encodeDefaultArgValue, hint', if_neg Bool.false_ne_true, if_neg]
  · cases hstrip : stripPrefix "bytes".toList t.jsonName.toList with
    | none => rfl
    | some rest =>
        rw [eq_append_of_stripPrefix hstrip, List.mem_append] at hbracket
        have hrest : ']' ∈ rest := hbracket.resolve_left (by decide)
        dsimp only
        rw [parseUnsigned_eq_none (by decide) (by decide) hrest]
  · rintro (h | h | h)
    · exact hname (by decide) h
    · exact hname (by decide) h
    · exact hname (by decide) h

/-- A name of another kind has to be that of a byte string. -/
theorem encodeDefaultArgValue_bytes {ty : String} {chars : List Char} (hchars : ty.toList = chars)
    (hint : ("uint".toList.isPrefixOf chars || "int".toList.isPrefixOf chars) = false)
    (hname : chars ∉ ["bool".toList, "address".toList, "address payable".toList]) :
    encodeDefaultArgValue ty =
      match stripPrefix "bytes".toList chars with
      | some rest =>
          match parseUnsigned (2 ^ 32) rest with
          | some n => if 1 ≤ n ∧ n ≤ 32 then some (List.replicate 32 0) else none
          | none => none
      | none => none := by
  simp only [List.mem_cons, List.not_mem_nil, or_false, ← hchars, String.toList_inj] at hname
  rw [← hchars] at hint ⊢
  exact (if_neg (Bool.eq_false_iff.mp hint)).trans (if_neg hname)

theorem encodeDefaultArgValue_fixedBytes (k : Fin 32) :
    encodeDefaultArgValue (ElementaryType.fixedBytes k).name = some (wordBytes 0) := by
  have hchars : (ElementaryType.fixedBytes k).name.toList =
      "bytes".toList ++ printNat (k.val + 1) := by
    rw [ElementaryType.name, String.toList_append, toList_repr]
  have hname : "bytes".toList ++ printNat (k.val + 1) ∉
      ["bool".toList, "address".toList, "address payable".toList] := by
    rw [List.mem_cons, List.mem_cons, List.mem_singleton]
    rintro (h | h | h)
    · exact absurd (List.cons.inj (List.cons.inj h).2).1 (by decide)
    · exact absurd (List.cons.inj h).1 (by decide)
    · exact absurd (List.cons.inj h).1 (by decide)
  have hparse : parseUnsigned (2 ^ 32) (printNat (k.val + 1)) = some (k.val + 1) :=
    parseUnsigned_printNat (by omega)
  rw [encodeDefaultArgValue_bytes hchars rfl hname, stripPrefix_append]
  dsimp only
  rw [hparse]
  dsimp only
  rw [if_pos (by omega), replicate_zero]

theorem encodeDefaultArgValue_elementary {e : ElementaryType} (hint : e.isInteger = false) :
    encodeDefaultArgValue e.name =
      if (AbiType.elementary e).takesZero then some (wordBytes 0) else none := by
  cases e with
  | uint k => cases hint
  | int k => cases hint
  | address => rfl
  | bool => rfl
  | function => rfl
  | ufixed k d =>
      simp only [ElementaryType.name, String.append_assoc]
      rw [encodeDefaultArgValue_bytes String.toList_append rfl]
      · rfl
      · rw [List.mem_cons, List.mem_cons, List.mem_singleton]
        rintro (h | h | h) <;> exact absurd (List.cons.inj h).1 (by decide)
  | fixed k d =>
      simp only [ElementaryType.name, String.append_assoc]
      rw [encodeDefaultArgValue_bytes String.toList_append rfl]
      · rfl
      · rw [List.mem_cons, List.mem_cons, List.mem_singleton]
        rintro (h | h | h) <;> exact absurd (List.cons.inj h).1 (by decide)
  | fixedBytes k => exact encodeDefaultArgValue_fixedBytes k

theorem encodeDefaultArgValue_jsonName (t : AbiType) :
    encodeDefaultArgValue t.jsonName =
      if t.isAccepted then some (wordBytes t.defaultWord) else none := by
  cases hint : t.isIntegerBased with
  | true =>
      rw [encodeDefaultArgValue_integer (t.isPrefixOf_jsonName_integer.trans hint),
        AbiType.isAccepted, AbiType.defaultWord, hint]
      rfl
  | false =>
      rw [AbiType.isAccepted, AbiType.defaultWord, hint]
      cases t with
      | elementary e => exact encodeDefaultArgValue_elementary hint
      | bytes => rfl
      | string => rfl
      | array elem => exact encodeDefaultArgValue_array rfl hint
      | fixedArray elem n => exact encodeDefaultArgValue_array rfl hint
      | tuple first rest =>
          rw [AbiType.jsonName]
          rfl

theorem AbiType.isIntegerBased_of_isUintBased {t : AbiType} (h : t.isUintBased = true) :
    t.isIntegerBased = true := by
  rw [isUintBased] at h
  rw [isIntegerBased]
  split at h
  · next hbase =>
      rw [hbase]
      rfl
  · cases h

/-- Small words are values of all integer types. -/
theorem ElementaryType.holds_small {e : ElementaryType} (h : e.isInteger = true) {w : U256}
    (hw : w = 7 ∨ w = 10) : e.Holds w := by
  have huint : ∀ k, (uint k).Holds 7 ∧ (uint k).Holds 10 := by decide +kernel
  have hint : ∀ k, (int k).Holds 7 ∧ (int k).Holds 10 := by decide +kernel
  cases e with
  | uint k =>
      rcases hw with rfl | rfl
      · exact (huint k).1
      · exact (huint k).2
  | int k =>
      rcases hw with rfl | rfl
      · exact (hint k).1
      · exact (hint k).2
  | _ => cases h

theorem AbiType.FillsOneWord.encodedBy_small {t : AbiType} (h : t.FillsOneWord)
    (hint : t.isIntegerBased = true) {w : U256} (hw : w = 7 ∨ w = 10) : t.EncodedBy w := by
  rw [isIntegerBased] at hint
  split at hint
  · next e hbase => exact FillsOneWord.encodedBy (ElementaryType.holds_small hint hw) h hbase
  · cases hint

theorem AbiType.FillsOneWord.encodedBy_defaultWord {t : AbiType} (h : t.FillsOneWord)
    (haccepted : t.isAccepted = true) : t.EncodedBy t.defaultWord := by
  cases hint : t.isIntegerBased with
  | true =>
      rw [defaultWord, hint, if_pos rfl]
      exact h.encodedBy_small hint (.inl rfl)
  | false =>
      rw [isAccepted, hint, Bool.false_or] at haccepted
      rw [defaultWord, hint, if_neg Bool.false_ne_true]
      cases t with
      | elementary e => exact FillsOneWord.encodedBy e.holds_zero h rfl
      | _ => cases haccepted

/-! ## §2  Functions -/

/-- The loop succeeds when all types are accepted, with a word for each. -/
theorem encodeArgs_eq_ok_iff {functionName : String} {types : List AbiType} {args : List UInt8} :
    ∀ {idx : Nat}, encodeArgs functionName idx (types.map AbiType.jsonName) = .ok args ↔
      (∀ t ∈ types, t.isAccepted = true) ∧
        (types.map AbiType.defaultWord).flatMap wordBytes = args := by
  induction types generalizing args with
  | nil =>
      intro idx
      constructor
      · intro h
        exact ⟨fun t ht => absurd ht List.not_mem_nil, Except.ok.inj h⟩
      · rintro ⟨-, rfl⟩
        rfl
  | cons t types ih =>
      intro idx
      rw [List.map_cons, encodeArgs, encodeDefaultArgValue_jsonName]
      cases haccepted : t.isAccepted with
      | false =>
          constructor
          · intro h
            cases h
          · rintro ⟨hall, -⟩
            rw [hall t List.mem_cons_self] at haccepted
            cases haccepted
      | true =>
          rw [if_pos rfl, List.forall_mem_cons, List.map_cons, List.flatMap_cons]
          dsimp only
          constructor
          · intro h
            cases hrest : encodeArgs functionName (idx + 1) (types.map AbiType.jsonName) with
            | error e =>
                rw [hrest] at h
                cases h
            | ok encoded =>
                rw [hrest] at h
                obtain ⟨hall, hwords⟩ := ih.mp hrest
                refine ⟨⟨haccepted, hall⟩, ?_⟩
                rw [hwords]
                exact Except.ok.inj h
          · rintro ⟨⟨-, hall⟩, rfl⟩
            rw [ih.mpr ⟨hall, rfl⟩]
            rfl

theorem map_parameterType {values : List Value} {inputs : List AbiParam}
    (h : List.Forall₂ DescribesParam values inputs) :
    values.map parameterType = (inputs.map AbiParam.type).map AbiType.jsonName := by
  rw [List.map_map]
  refine map_eq_of_forall₂ (fun v p hp => ?_) h
  rw [parameterType, hp.type.getStr_type]
  rfl

/-- The parameters that are read are those of the first function of the name. -/
theorem parameterTypes_function {abi : List Value} {entries : List AbiEntry}
    (h : List.Forall₂ DescribesAbiEntry abi entries) (functionName : String) :
    (((abi.find? (isFunctionNamed functionName)).bind (·.getArray "inputs")).getD []).map
        parameterType =
      (functionTypes functionName entries).map AbiType.jsonName := by
  induction h with
  | nil => rfl
  | @cons item entry abi entries hitem _ ih =>
      cases entry with
      | function name inputs =>
          obtain ⟨htype, hname, values, hvalues, hinputs⟩ := hitem
          by_cases hsame : name = functionName
          · have hfound : isFunctionNamed functionName item = true := by
              rw [isFunctionNamed, htype, hname, hsame]
              simp
            rw [List.find?_cons_of_pos hfound, Option.bind_some, hvalues, functionTypes, functionInputs,
              if_pos hsame]
            exact map_parameterType hinputs
          · have hother : ¬ isFunctionNamed functionName item = true := by
              rw [isFunctionNamed, htype, hname]
              simp [hsame]
            rw [List.find?_cons_of_neg hother, functionTypes, functionInputs, if_neg hsame]
            exact ih
      | constructor inputs =>
          have hother : ¬ isFunctionNamed functionName item = true := by
            rw [isFunctionNamed, hitem.1]
            simp
          rw [List.find?_cons_of_neg hother]
          exact ih
      | other =>
          have hother : ¬ isFunctionNamed functionName item = true := by
            simp [isFunctionNamed, hitem.1]
          rw [List.find?_cons_of_neg hother]
          exact ih

/-- What a function is given. -/
theorem buildCallSignatureAndArgs_eq_ok_iff {abi : List Value} {functionName : String}
    {types : List AbiType}
    (htypes : (((abi.find? (isFunctionNamed functionName)).bind (·.getArray "inputs")).getD []).map
      parameterType = types.map AbiType.jsonName) {args : List UInt8} :
    (∃ signature, buildCallSignatureAndArgs abi functionName = .ok (signature, args)) ↔
      (∀ t ∈ types, t.isAccepted = true) ∧
        (types.map AbiType.defaultWord).flatMap wordBytes = args := by
  rw [← @encodeArgs_eq_ok_iff functionName types args 0]
  unfold buildCallSignatureAndArgs
  dsimp only
  rw [htypes]
  cases encodeArgs functionName 0 (types.map AbiType.jsonName) with
  | error e =>
      constructor
      · rintro ⟨signature, h⟩
        cases h
      · intro h
        cases h
  | ok encoded =>
      constructor
      · rintro ⟨signature, h⟩
        rw [(Prod.mk.inj (Except.ok.inj h)).2]
      · intro h
        rw [Except.ok.inj h]
        exact ⟨_, rfl⟩

/-- The call data is an encoding of arguments if a type is refused, or all fill one word. -/
theorem encodesArgs_iff {types : List AbiType} :
    ((∀ t ∈ types, t.isAccepted = true) →
        IsAbiEncoding types ((types.map AbiType.defaultWord).flatMap wordBytes)) ↔
      (∃ t ∈ types, t.isAccepted = false) ∨ ∀ t ∈ types, t.FillsOneWord := by
  constructor
  · intro h
    by_cases hall : ∀ t ∈ types, t.isAccepted = true
    · right
      refine fillsOneWord_of_length (h hall) ?_
      rw [length_flatMap_wordBytes, List.length_map]
    · left
      push Not at hall
      obtain ⟨t, ht, hrefused⟩ := hall
      exact ⟨t, ht, Bool.eq_false_iff.mpr hrefused⟩
  · rintro (⟨t, ht, hrefused⟩ | hfills) hall
    · rw [hall t ht] at hrefused
      cases hrefused
    · refine isAbiEncoding_flatMap ?_ fun t ht => (hfills t ht).1
      rw [List.forall₂_map_right_iff, List.forall₂_same]
      exact fun t ht => (hfills t ht).encodedBy_defaultWord (hall t ht)

/-! ## §3  Constructors -/

theorem parameterTypes_constructor {abi : List Value} {entries : List AbiEntry}
    (h : List.Forall₂ DescribesAbiEntry abi entries) :
    (((abi.find? fun item => item.getStr "type" = some "constructor").bind
        (·.getArray "inputs")).getD []).map parameterType =
      (constructorTypes entries).map AbiType.jsonName := by
  induction h with
  | nil => rfl
  | @cons item entry abi entries hitem _ ih =>
      cases entry with
      | constructor inputs =>
          obtain ⟨htype, values, hvalues, hinputs⟩ := hitem
          rw [List.find?_cons_of_pos (by simp [htype]), Option.bind_some, hvalues]
          exact map_parameterType hinputs
      | function name inputs =>
          rw [List.find?_cons_of_neg (by simp [hitem.1])]
          exact ih
      | other =>
          rw [List.find?_cons_of_neg (by simp [hitem.2])]
          exact ih

section

variable {abi : List Value} {contractName : String}

theorem encodeConstructorArgs_nil
    (h : ((abi.find? fun item => item.getStr "type" = some "constructor").bind
      (·.getArray "inputs")).getD [] = []) :
    encodeConstructorArgs abi contractName = .ok [] := by
  unfold encodeConstructorArgs
  cases hfind : abi.find? fun item => item.getStr "type" = some "constructor" with
  | none => rfl
  | some item =>
      rw [hfind, Option.bind_some] at h
      dsimp only
      rw [h]

theorem encodeConstructorArgs_cons {input : Value} {inputs : List Value}
    (h : ((abi.find? fun item => item.getStr "type" = some "constructor").bind
      (·.getArray "inputs")).getD [] = input :: inputs) {args : List UInt8} :
    encodeConstructorArgs abi contractName = .ok args ↔
      (inputs = [] ∧ "uint".toList.isPrefixOf (parameterType input).toList) ∧
        args = lastByteSet 10 := by
  unfold encodeConstructorArgs
  cases hfind : abi.find? fun item => item.getStr "type" = some "constructor" with
  | none =>
      rw [hfind] at h
      cases h
  | some item =>
      rw [hfind, Option.bind_some] at h
      dsimp only
      rw [h]
      dsimp only
      constructor
      · intro hok
        split at hok
        · next hone => exact ⟨hone, (Except.ok.inj hok).symm⟩
        · cases hok
      · rintro ⟨hone, rfl⟩
        rw [if_pos hone]

/-- What the constructor is given. -/
theorem encodeConstructorArgs_eq_ok_iff {types : List AbiType}
    (htypes : (((abi.find? fun item => item.getStr "type" = some "constructor").bind
        (·.getArray "inputs")).getD []).map parameterType = types.map AbiType.jsonName)
    {args : List UInt8} :
    encodeConstructorArgs abi contractName = .ok args ↔
      types = [] ∧ args = [] ∨
        ∃ t, types = [t] ∧ t.isUintBased = true ∧ args = wordBytes 10 := by
  generalize hinputs : ((abi.find? fun item => item.getStr "type" = some "constructor").bind
    (·.getArray "inputs")).getD [] = inputs at htypes
  cases inputs with
  | nil =>
      obtain rfl : types = [] := List.map_eq_nil_iff.mp htypes.symm
      rw [encodeConstructorArgs_nil hinputs]
      constructor
      · intro h
        exact .inl ⟨rfl, (Except.ok.inj h).symm⟩
      · rintro (⟨-, rfl⟩ | ⟨t, h, -⟩)
        · rfl
        · cases h
  | cons input inputs =>
      cases types with
      | nil => cases htypes
      | cons t types =>
          obtain ⟨hinput, hrest⟩ := List.cons.inj htypes
          have hsame : inputs = [] ↔ types = [] := by
            rw [← @List.map_eq_nil_iff _ _ parameterType, hrest, List.map_eq_nil_iff]
          rw [encodeConstructorArgs_cons hinputs, hinput, t.isPrefixOf_jsonName_uint,
            lastByteSet_ten, hsame]
          constructor
          · rintro ⟨⟨rfl, huint⟩, hargs⟩
            exact .inr ⟨t, rfl, huint, hargs⟩
          · rintro (⟨h, -⟩ | ⟨u, h, huint, hargs⟩)
            · cases h
            · obtain ⟨rfl, hnil⟩ := List.cons.inj h
              exact ⟨⟨hnil, huint⟩, hargs⟩

end

/-- The argument is an encoding if it is refused or fills one word. -/
theorem encodesConstructorArgs_iff {types : List AbiType} :
    (∀ args, (types = [] ∧ args = [] ∨
        ∃ t, types = [t] ∧ t.isUintBased = true ∧ args = wordBytes 10) →
          IsAbiEncoding types args) ↔
      ∀ t, types = [t] → t.isUintBased = true → t.FillsOneWord := by
  constructor
  · rintro h t rfl huint
    have hencoding := h (wordBytes 10) (.inr ⟨t, rfl, huint, rfl⟩)
    exact fillsOneWord_of_length hencoding (length_wordBytes 10) t List.mem_cons_self
  · rintro h args (⟨rfl, rfl⟩ | ⟨t, rfl, huint, rfl⟩)
    · exact ⟨[], .nil, rfl⟩
    · have hfills := h t rfl huint
      have hvalue := hfills.encodedBy_small (AbiType.isIntegerBased_of_isUintBased huint) (.inr rfl)
      have hencoding := isAbiEncoding_flatMap (.cons hvalue .nil) fun u hu => by
        rw [List.mem_singleton.mp hu]
        exact hfills.1
      rwa [List.flatMap_singleton] at hencoding

/-! ## §4  Call data -/

/-- The call data of a function is an encoding of arguments of its types if one of them
is refused or all of them fill one word, that of a constructor if its only parameter, if
it is taken for an unsigned integer, fills one. -/
theorem callData_valid_iff {abi : List Value} {entries : List AbiEntry}
    (habi : List.Forall₂ DescribesAbiEntry abi entries) (functionName contractName : String) :
    ((∀ signature args, buildCallSignatureAndArgs abi functionName = .ok (signature, args) →
        IsAbiEncoding (functionTypes functionName entries) args) ↔
      (∃ t ∈ functionTypes functionName entries, t.isAccepted = false) ∨
        ∀ t ∈ functionTypes functionName entries, t.FillsOneWord) ∧
    ((∀ args, encodeConstructorArgs abi contractName = .ok args →
        IsAbiEncoding (constructorTypes entries) args) ↔
      ∀ t, constructorTypes entries = [t] → t.isUintBased = true → t.FillsOneWord) := by
  constructor
  · have htypes := parameterTypes_function habi functionName
    rw [← encodesArgs_iff]
    constructor
    · intro h hall
      obtain ⟨signature, hok⟩ := (buildCallSignatureAndArgs_eq_ok_iff htypes).mpr ⟨hall, rfl⟩
      exact h signature _ hok
    · intro h signature args hok
      obtain ⟨hall, rfl⟩ := (buildCallSignatureAndArgs_eq_ok_iff htypes).mp ⟨signature, hok⟩
      exact h hall
  · simp only [encodeConstructorArgs_eq_ok_iff (parameterTypes_constructor habi)]
    exact encodesConstructorArgs_iff

/-- `constructor(uint256 start)` and `function sum(uint256[] xs)`. -/
def sumValues : List Value :=
  [.object [("inputs", .array [.object [("name", .string "start"), ("type", .string "uint256")]]),
      ("type", .string "constructor")],
    .object [("inputs", .array [.object [("name", .string "xs"), ("type", .string "uint256[]")]]),
      ("name", .string "sum"), ("type", .string "function")]]

def sumEntries : List AbiEntry :=
  [.constructor [⟨"start", .elementary .uint256⟩],
    .function "sum" [⟨"xs", .array (.elementary .uint256)⟩]]

theorem describes_sumValues : List.Forall₂ DescribesAbiEntry sumValues sumEntries :=
  .cons ⟨by decide, _, rfl, .cons ⟨by decide, .plain (by decide) rfl⟩ .nil⟩
    (.cons ⟨by decide, by decide, _, rfl, .cons ⟨by decide, .plain (by decide) rfl⟩ .nil⟩ .nil)

theorem callData_valid_sum :
    ((∀ signature args, buildCallSignatureAndArgs sumValues "sum" = .ok (signature, args) →
        IsAbiEncoding (functionTypes "sum" sumEntries) args) ↔
      (∃ t ∈ functionTypes "sum" sumEntries, t.isAccepted = false) ∨
        ∀ t ∈ functionTypes "sum" sumEntries, t.FillsOneWord) ∧
    ((∀ args, encodeConstructorArgs sumValues "Sum" = .ok args →
        IsAbiEncoding (constructorTypes sumEntries) args) ↔
      ∀ t, constructorTypes sumEntries = [t] → t.isUintBased = true → t.FillsOneWord) :=
  callData_valid_iff describes_sumValues "sum" "Sum"

/-- The array is given the word of an integer. -/
theorem callData_invalid_sum :
    buildCallSignatureAndArgs sumValues "sum" = .ok ("sum(uint256[])", wordBytes 7) ∧
      functionTypes "sum" sumEntries = [.array (.elementary .uint256)] ∧
      ¬ IsAbiEncoding [.array (.elementary .uint256)] (wordBytes 7) := by
  refine ⟨by decide +kernel, rfl, ?_⟩
  intro h
  obtain ⟨hstatic, -⟩ := fillsOneWord_of_length h (length_wordBytes 7) _ List.mem_cons_self
  cases hstatic

end EvmRecorder
