import EvmRecorder.Library.JoinedTexts
import EvmRecorder.Model.CustomErrors
import EvmRecorder.RevertDecode.ErrorString

/-!
# Texts of custom-error arguments

How `render_arg_word` takes the type names of an ABI, and which values of elementary types
it shows as they are: all but negative integers, which are printed as the unsigned word.
-/

namespace EvmRecorder.RevertDecode

open Numeral Bytes JoinedTexts

/-! ## §1  Type names -/

/-- The test of `render_arg_word` for integers. -/
def integerText (ty : String) : Bool :=
  "uint".toList.isPrefixOf ty.toList || "int".toList.isPrefixOf ty.toList

/-- The test takes arrays of integers for integers. -/
theorem integerText_jsonName (t : AbiType) : integerText t.jsonName = t.isIntegerBased :=
  t.isPrefixOf_jsonName_integer

theorem renderArgWord_integer {ty : String} (h : integerText ty = true) (bytes : List UInt8) :
    renderArgWord bytes ty = String.ofList (printNat (beNat bytes)) := if_pos h

theorem isSuffixOf_bracket {ty : String} (h : ']' ∉ ty.toList) :
    ¬ "]".toList.isSuffixOf ty.toList = true := by
  rw [List.isSuffixOf_iff_suffix]
  rintro ⟨front, hfront⟩
  exact h (hfront ▸ List.mem_append_right front (List.mem_singleton_self ']'))

theorem renderArgWord_of_not_integer {ty : String} (h : integerText ty = false)
    (bytes : List UInt8) :
    renderArgWord bytes ty =
      if ty = "address" ∨ ty = "address payable" then
        "0x" ++ String.ofList (hexBytes (bytes.drop 12))
      else if ty = "bool" then (if bytes.any (· ≠ 0) then "true" else "false")
      else if ty = "string" ∨ ty = "bytes" ∨ "]".toList.isSuffixOf ty.toList then "<dynamic>"
      else "0x" ++ String.ofList (hexBytes bytes) :=
  if_neg (Bool.eq_false_iff.mp h)

/-- Types with other names are shown as the word. -/
theorem renderArgWord_word {ty : String} (hint : integerText ty = false)
    (hbracket : ']' ∉ ty.toList)
    (hname : ty ∉ ["address", "address payable", "bool", "string", "bytes"])
    (bytes : List UInt8) :
    renderArgWord bytes ty = "0x" ++ String.ofList (hexBytes bytes) := by
  simp only [List.mem_cons, List.not_mem_nil, or_false, not_or] at hname
  obtain ⟨haddress, hpayable, hbool, hstring, hbytes⟩ := hname
  rw [renderArgWord_of_not_integer hint, if_neg (not_or.mpr ⟨haddress, hpayable⟩), if_neg hbool,
    if_neg]
  rintro (h | h | h)
  · exact hstring h
  · exact hbytes h
  · exact isSuffixOf_bracket hbracket h

/-! ## §2  Values and their texts -/

def printInt (i : Int) : List Char :=
  if i < 0 then '-' :: printNat i.natAbs else printNat i.natAbs

/-- A value in Solidity: integers in decimal with their sign, addresses as 20 bytes, truth
values, and everything else as the word. -/
def valueText : ElementaryType → U256 → String
  | .uint _, w => String.ofList (printNat w.toNat)
  | .int _, w => String.ofList (printInt w.toInt)
  | .address, w => "0x" ++ String.ofList (hexBytes ((wordBytes w).drop 12))
  | .bool, w => if w.toNat = 0 then "false" else "true"
  | _, w => "0x" ++ String.ofList (hexBytes (wordBytes w))

/-- The types that are shown as the word. -/
def isWordShown : ElementaryType → Bool
  | .ufixed _ _ | .fixed _ _ | .fixedBytes _ | .function => true
  | _ => false

theorem name_notMem {e : ElementaryType} (h : isWordShown e = true) :
    e.name ∉ ["address", "address payable", "bool", "string", "bytes"] := by
  simp only [List.mem_cons, List.not_mem_nil, or_false, ← String.toList_inj]
  cases e with
  | uint k => cases h
  | int k => cases h
  | address => cases h
  | bool => cases h
  | function => decide
  | ufixed k d =>
      simp only [ElementaryType.name, String.toList_append]
      rintro (h | h | h | h | h) <;> exact absurd (List.cons.inj h).1 (by decide)
  | fixed k d =>
      simp only [ElementaryType.name, String.toList_append]
      rintro (h | h | h | h | h) <;> exact absurd (List.cons.inj h).1 (by decide)
  | fixedBytes k =>
      simp only [ElementaryType.name, String.toList_append]
      rintro (h | h | h | h | h)
      -- only `bool` and `bytes` start alike, and the latter has no digits behind
      case inr.inr.inl => exact absurd (List.cons.inj (List.cons.inj h).2).1 (by decide)
      case inr.inr.inr.inr =>
        have hdigits : (Nat.repr (k.val + 1)).toList = [] :=
          List.append_cancel_left (h.trans (List.append_nil _).symm)
        rw [toList_repr] at hdigits
        exact printNat_ne_nil _ hdigits
      all_goals exact absurd (List.cons.inj h).1 (by decide)

/-- Only integers are not shown as they are. -/
theorem renderArgWord_name (e : ElementaryType) (w : U256) :
    renderArgWord (wordBytes w) e.name =
      if e.isInteger then String.ofList (printNat w.toNat) else valueText e w := by
  have hint : integerText e.name = e.isInteger := integerText_jsonName (.elementary e)
  have hbracket : ']' ∉ e.name.toList := fun h =>
    absurd (ElementaryType.isAlphanum_of_mem_name h) (by decide)
  cases hinteger : e.isInteger with
  | true => rw [renderArgWord_integer (hint.trans hinteger), beNat_wordBytes, if_pos rfl]
  | false =>
      rw [if_neg Bool.false_ne_true]
      cases e with
      | uint k => cases hinteger
      | int k => cases hinteger
      | address =>
          rw [ElementaryType.name, renderArgWord_of_not_integer rfl, if_pos (.inl rfl), valueText]
      | bool =>
          rw [ElementaryType.name, renderArgWord_of_not_integer rfl, if_neg (by decide),
            if_pos rfl, valueText]
          simp only [any_wordBytes, ite_not]
      | ufixed k d | fixed k d | fixedBytes k | function =>
          exact renderArgWord_word (hint.trans hinteger) hbracket (name_notMem rfl) _

/-! ## §3  Messages -/

/-- A parameter of an error with the value it is given. -/
structure Argument where
  name : String
  type : ElementaryType
  word : U256
  holds : type.Holds word

def labelled (name text : String) : String := if name.isEmpty then text else name ++ "=" ++ text

/-- The error of these parameters. -/
def errorDef (name : String) (args : List Argument) : CustomErrorDef where
  name
  paramTypes := args.map fun a => a.type.name
  paramNames := args.map (·.name)

/-- `abi.encode` of the values. -/
def encodeArguments (args : List Argument) : List UInt8 :=
  abiEncode (args.map fun a => .elementary a.type) (args.map fun a => .word a.word)

/-- `Name(p1=v1, ..., pn=vn)`. -/
def errorMessage (name : String) (args : List Argument) (text : Argument → String) : String :=
  name ++ "(" ++ String.intercalate ", " (args.map fun a => labelled a.name (text a)) ++ ")"

theorem encodeArguments_eq (args : List Argument) :
    encodeArguments args = args.flatMap fun a => wordBytes a.word := by
  have hparts : AbiValue.parts (args.map fun a => .elementary a.type)
      (args.map fun a => .word a.word) = args.map fun a => ⟨false, wordBytes a.word⟩ := by
    induction args with
    | nil => rfl
    | cons a args ih =>
        rw [List.map_cons, List.map_cons, AbiValue.parts_cons, ih]
        rfl
  rw [encodeArguments, abiEncode, hparts, AbiPart.encode_of_static, List.flatMap_map]
  intro p hp
  obtain ⟨a, -, rfl⟩ := List.mem_map.mp hp
  rfl

theorem length_encodeArguments (args : List Argument) :
    (encodeArguments args).length = args.length * 32 := by
  induction args with
  | nil => rfl
  | cons a args ih =>
      rw [encodeArguments_eq] at ih ⊢
      rw [List.flatMap_cons, List.length_append, ih, length_wordBytes, List.length_cons]
      omega

/-- Behind `before`, every word is rendered with the name of its parameter. -/
theorem decodeArgsFrom_encodeArguments (before args : List Argument) :
    decodeArgsFrom (encodeArguments (before ++ args)) ((before ++ args).map (·.name))
        before.length (args.map fun a => a.type.name) =
      args.map fun a => labelled a.name (renderArgWord (wordBytes a.word) a.type.name) := by
  induction args generalizing before with
  | nil => rfl
  | cons a args ih =>
      have hnext : before ++ a :: args = (before ++ [a]) ++ args := by simp
      have hlength : (encodeArguments (before ++ a :: args)).length =
          before.length * 32 + 32 + args.length * 32 := by
        rw [length_encodeArguments, List.length_append, List.length_cons]
        omega
      have hword : ((encodeArguments (before ++ a :: args)).drop (before.length * 32)).take 32 =
          wordBytes a.word := by
        rw [encodeArguments_eq, List.flatMap_append, ← encodeArguments_eq,
          List.drop_left' (length_encodeArguments before), List.flatMap_cons,
          List.take_left' (length_wordBytes _)]
      have hname : ((before ++ a :: args).map (·.name))[before.length]?.getD "" = a.name := by
        rw [List.map_append, List.getElem?_append_right (by simp)]
        simp
      rw [List.map_cons, decodeArgsFrom, if_neg (by omega), hword, hname, List.map_cons]
      refine congrArg₂ List.cons rfl ?_
      have hrest := ih (before ++ [a])
      rwa [← hnext, List.length_append, List.length_singleton] at hrest

theorem decodeCustomErrorArgs_encodeArguments (name : String) (args : List Argument) :
    decodeCustomErrorArgs (encodeArguments args) (errorDef name args).paramTypes
        (errorDef name args).paramNames =
      args.map fun a => labelled a.name (renderArgWord (wordBytes a.word) a.type.name) :=
  decodeArgsFrom_encodeArguments [] args

/-! ## §4  Differences -/

theorem labelled_inj {name s t : String} (h : labelled name s = labelled name t) : s = t := by
  unfold labelled at h
  split at h
  · exact h
  · exact (String.append_right_inj _).mp h

theorem diverge_labelled {s t : String} (h : Diverge s t) (name : String) :
    Diverge (labelled name s) (labelled name t) := by
  unfold labelled
  split
  · exact h
  · exact h.append_left (name ++ "=")

/-- A negative value is shown with a sign, its word without. -/
theorem diverge_of_negative {w : U256} (h : w.toInt < 0) :
    Diverge (String.ofList (printNat w.toNat)) (String.ofList (printInt w.toInt)) := by
  obtain ⟨c, x, hdigits⟩ := List.exists_cons_of_ne_nil (printNat_ne_nil w.toNat)
  refine ⟨[], c, '-', x, printNat w.toInt.natAbs, ?_, ?_, ?_⟩
  · rw [String.toList_ofList, hdigits, List.nil_append]
  · rw [String.toList_ofList, printInt, if_pos h, List.nil_append]
  · rintro rfl
    refine not_mem_printNat (n := w.toNat) (c := '-') (by decide) ?_
    rw [hdigits]
    exact List.mem_cons_self

theorem printInt_of_nonneg {w : U256} (h : 0 ≤ w.toInt) : printInt w.toInt = printNat w.toNat := by
  have habs : w.toInt.natAbs = w.toNat := by
    have hlt := w.isLt
    rw [BitVec.toInt_eq_toNat_cond] at h ⊢
    by_cases hsmall : 2 * w.toNat < 2 ^ 256
    · rw [if_pos hsmall]
      exact Int.natAbs_natCast _
    · rw [if_neg hsmall] at h
      omega
  rw [printInt, if_neg (not_lt.mpr h), habs]

/-- The value is not a negative integer. -/
def Argument.NonNegative (a : Argument) : Prop :=
  ∀ k, a.type = .int k → 0 ≤ a.word.toInt

theorem text_eq_or_diverge (a : Argument) :
    (a.NonNegative ∧ renderArgWord (wordBytes a.word) a.type.name = valueText a.type a.word) ∨
    ¬ a.NonNegative ∧
      Diverge (renderArgWord (wordBytes a.word) a.type.name) (valueText a.type a.word) := by
  rw [renderArgWord_name]
  obtain ⟨name, type, word, holds⟩ := a
  cases type with
  | int k =>
      by_cases hneg : word.toInt < 0
      · right
        exact ⟨fun h => absurd (h k rfl) (not_le.mpr hneg), diverge_of_negative hneg⟩
      · left
        refine ⟨fun _ _ => not_lt.mp hneg, ?_⟩
        show String.ofList (printNat word.toNat) = String.ofList (printInt word.toInt)
        rw [printInt_of_nonneg (not_lt.mp hneg)]
  | uint k => exact .inl ⟨fun k h => (nomatch h), rfl⟩
  | ufixed k d => exact .inl ⟨fun k h => (nomatch h), rfl⟩
  | fixed k d => exact .inl ⟨fun k h => (nomatch h), rfl⟩
  | address => exact .inl ⟨fun k h => (nomatch h), rfl⟩
  | bool => exact .inl ⟨fun k h => (nomatch h), rfl⟩
  | fixedBytes k => exact .inl ⟨fun k h => (nomatch h), rfl⟩
  | function => exact .inl ⟨fun k h => (nomatch h), rfl⟩

/-! ## §5  Reverts with an error of the registry -/

section Registry

variable {registry : CustomErrorRegistry} {selector : List UInt8} {name : String}
  {args : List Argument}

/-- The branch of the registry is taken unless the selector is one of the built-in ones. -/
theorem decodeRevert_encodeArguments (hlength : selector.length = 4)
    (hget : registry.get selector = some (errorDef name args))
    (hstring : selector ≠ errorStringSelector)
    (hpanic : selector = panicUint256Selector → args = []) :
    decodeRevertWithRegistry (selector ++ encodeArguments args) registry =
      ⟨"CustomError", errorMessage name args fun a =>
        renderArgWord (wordBytes a.word) a.type.name⟩ := by
  obtain ⟨hnonempty, hfour, hselector, hpayload⟩ := selector_append hlength (encodeArguments args)
  have hnotpanic : ¬ (selector = panicUint256Selector ∧ 32 ≤ (encodeArguments args).length) := by
    rintro ⟨heq, hsize⟩
    rw [hpanic heq] at hsize
    exact absurd hsize (by decide)
  rw [decodeRevertWithRegistry, hnonempty, if_neg Bool.false_ne_true, if_pos hfour]
  simp only [hselector, hpayload, if_neg hstring, if_neg hnotpanic, hget,
    decodeCustomErrorArgs_encodeArguments name args]
  rw [errorMessage]
  split
  · next hempty =>
      rw [List.isEmpty_iff.mp hempty, String.intercalate_nil, String.append_empty,
        String.append_assoc]
      rfl
  · rfl

/-- Under the selectors of the built-in errors nothing is reported as a custom error. -/
theorem kind_ne_of_builtin (hlength : selector.length = 4)
    (h : selector = errorStringSelector ∨ selector = panicUint256Selector ∧ args ≠ []) :
    (decodeRevertWithRegistry (selector ++ encodeArguments args) registry).kind ≠
      "CustomError" := by
  obtain ⟨hnonempty, hfour, hselector, hpayload⟩ := selector_append hlength (encodeArguments args)
  rw [decodeRevertWithRegistry, hnonempty, if_neg Bool.false_ne_true, if_pos hfour]
  simp only [hselector, hpayload]
  rcases h with hstring | ⟨hpanic, hargs⟩
  · rw [if_pos hstring]
    cases decodeErrorStringPayload (encodeArguments args) with
    | none => exact (by decide : "RevertRaw" ≠ "CustomError")
    | some text => exact (by decide : "Revert" ≠ "CustomError")
  · have hsize : 32 ≤ (encodeArguments args).length := by
      have hpos := List.length_pos_iff.mpr hargs
      rw [length_encodeArguments]
      omega
    rw [if_neg (by rw [hpanic]; decide), if_pos ⟨hpanic, hsize⟩]
    exact (by decide : "Panic" ≠ "CustomError")

/-- An error is reported with its values exactly if its selector is none of the built-in
ones and no value is a negative integer. -/
theorem decodeRevert_showsValues_iff (hlength : selector.length = 4)
    (hget : registry.get selector = some (errorDef name args)) :
    decodeRevertWithRegistry (selector ++ encodeArguments args) registry =
        ⟨"CustomError", errorMessage name args fun a => valueText a.type a.word⟩ ↔
      (∀ a ∈ args, a.NonNegative) ∧ selector ≠ errorStringSelector ∧
        (selector = panicUint256Selector → args = []) := by
  constructor
  · intro h
    have hkind := congrArg DecodedRevert.kind h
    have hstring : selector ≠ errorStringSelector := fun heq =>
      kind_ne_of_builtin hlength (.inl heq) hkind
    have hpanic : selector = panicUint256Selector → args = [] := by
      intro heq
      by_contra hargs
      exact kind_ne_of_builtin hlength (.inr ⟨heq, hargs⟩) hkind
    refine ⟨?_, hstring, hpanic⟩
    rw [decodeRevert_encodeArguments hlength hget hstring hpanic] at h
    have hmessage : errorMessage name args _ = errorMessage name args _ :=
      congrArg DecodedRevert.message h
    rw [errorMessage, errorMessage, String.append_left_inj, String.append_right_inj] at hmessage
    have htexts := eq_of_intercalate_eq ", " (fun a => ?_) hmessage
    · intro a ha
      rcases text_eq_or_diverge a with ⟨hnonneg, -⟩ | ⟨-, hdiverge⟩
      · exact hnonneg
      · have heq := htexts a ha
        exact absurd heq (diverge_labelled hdiverge a.name).ne
    · rcases text_eq_or_diverge a with ⟨-, heq⟩ | ⟨-, hdiverge⟩
      · exact .inl (congrArg (labelled a.name) heq)
      · exact .inr (diverge_labelled hdiverge a.name)
  · rintro ⟨hvalues, hstring, hpanic⟩
    rw [decodeRevert_encodeArguments hlength hget hstring hpanic, errorMessage, errorMessage]
    have htexts : ∀ a ∈ args, labelled a.name (renderArgWord (wordBytes a.word) a.type.name) =
        labelled a.name (valueText a.type a.word) := by
      intro a ha
      rcases text_eq_or_diverge a with ⟨-, heq⟩ | ⟨hneg, -⟩
      · rw [heq]
      · exact absurd (hvalues a ha) hneg
    rw [List.map_congr_left htexts]

end Registry

/-! ## §6  Two errors -/

def oneError (selector : List UInt8) (name : String) (args : List Argument) :
    CustomErrorRegistry :=
  CustomErrorRegistry.insert {} selector (errorDef name args)

/-- `error Short(uint256 available, bool)` with 5 and true. -/
def shortArguments : List Argument :=
  [⟨"available", .uint256, 5, by decide +kernel⟩, ⟨"", .bool, 1, by decide +kernel⟩]

def shortSelector : List UInt8 := [0x0d, 0xbe, 0x9d, 0xb4]

/-- `error Moved(int8 delta)` with -1. -/
def movedArguments : List Argument := [⟨"delta", .int8, -1, by decide +kernel⟩]

def movedSelector : List UInt8 := [0x1f, 0xe3, 0x0c, 0x54]

theorem short_shown :
    decodeRevertWithRegistry (shortSelector ++ encodeArguments shortArguments)
        (oneError shortSelector "Short" shortArguments) =
      ⟨"CustomError", "Short(available=5, true)"⟩ := by
  have hvalues : ∀ a ∈ shortArguments, a.NonNegative := by
    intro a ha k hk
    simp only [shortArguments, List.mem_cons, List.not_mem_nil, or_false] at ha
    rcases ha with rfl | rfl <;> cases hk
  have hmessage : errorMessage "Short" shortArguments (fun a => valueText a.type a.word) =
      "Short(available=5, true)" := by
    decide +kernel
  rw [← hmessage]
  exact (decodeRevert_showsValues_iff rfl rfl).mpr ⟨hvalues, by decide, by decide⟩

/-- The argument is -1 and is shown as 2^256 - 1. -/
theorem moved_shown_unsigned :
    decodeRevertWithRegistry (movedSelector ++ encodeArguments movedArguments)
        (oneError movedSelector "Moved" movedArguments) =
      ⟨"CustomError", "Moved(delta=" ++ Nat.repr (2 ^ 256 - 1) ++ ")"⟩ ∧
    errorMessage "Moved" movedArguments (fun a => valueText a.type a.word) = "Moved(delta=-1)" ∧
    decodeRevertWithRegistry (movedSelector ++ encodeArguments movedArguments)
        (oneError movedSelector "Moved" movedArguments) ≠
      ⟨"CustomError", errorMessage "Moved" movedArguments fun a => valueText a.type a.word⟩ := by
  decide +kernel

end EvmRecorder.RevertDecode
