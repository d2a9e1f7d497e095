import EvmRecorder.RevertDecode.ArgumentTexts

/-!
# The head of custom-error arguments

`decode_custom_error_args` takes word `i` of the payload for parameter `i`. That is the head
position of the parameter only while every parameter before it takes one word, and arrays
of integers are taken for integers.
-/

namespace EvmRecorder.RevertDecode

open Numeral Bytes AbiType

/-! ## §1  What is expected -/

/-- The text of a parameter whose head is at word `pos` of the payload. -/
def textAt (payload : List UInt8) (pos : Nat) : AbiType → String
  | .elementary e => renderArgWord ((payload.drop (pos * 32)).take 32) e.name
  | _ => "<dynamic>"

/-- The texts of the parameters from number `idx` on, whose heads start at word `pos`. -/
def textsFrom (payload : List UInt8) (paramNames : List String) :
    Nat → Nat → List AbiType → List String
  | _, _, [] => []
  | idx, pos, t :: rest =>
      labelled (paramNames[idx]?.getD "") (textAt payload pos t) ::
        textsFrom payload paramNames (idx + 1) (pos + t.headWords) rest

/-- Elementary parameters are rendered from their own heads, and all others as `<dynamic>`,
in every encoding of arguments. -/
def ReadsOwnHeads (types : List AbiType) (paramNames : List String) : Prop :=
  ∀ values, List.Forall₂ AbiValue.HasType values types →
    decodeCustomErrorArgs (abiEncode types values) (types.map jsonName) paramNames =
      textsFrom (abiEncode types values) paramNames 0 0 types

/-- No parameter is an array of integers, and those before an elementary one take a word each. -/
structure FlatHeads (types : List AbiType) : Prop where
  noIntegers : ∀ t ∈ types, t.isArray = true → t.isIntegerBased = false
  oneWord : types.Pairwise fun t u => u.isElementary = true → t.headWords = 1

/-! ## §2  Flat heads are read where they are -/

theorem isIntegerBased_of_isArray_false {t : AbiType} (harray : t.isArray = false)
    (helementary : t.isElementary = false) : t.isIntegerBased = false := by
  cases t with
  | elementary e => cases helementary
  | array elem => cases harray
  | fixedArray elem length => cases harray
  | bytes => rfl
  | string => rfl
  | tuple first rest => rfl

theorem renderArgWord_dynamic {t : AbiType} (htuple : t.isTuple = false)
    (helementary : t.isElementary = false) (hint : t.isIntegerBased = false)
    (bytes : List UInt8) : renderArgWord bytes t.jsonName = "<dynamic>" := by
  rw [renderArgWord_of_not_integer ((integerText_jsonName t).trans hint)]
  cases harray : t.isArray with
  | true =>
      obtain ⟨front, hfront⟩ := exists_jsonName_array harray
      have hbracket : ∀ {name : String}, ']' ∉ name.toList → t.jsonName ≠ name := by
        rintro name hnone rfl
        exact hnone (hfront ▸ List.mem_append_right front (List.mem_singleton_self ']'))
      have hsuffix : "]".toList.isSuffixOf t.jsonName.toList = true := by
        rw [List.isSuffixOf_iff_suffix]
        exact ⟨front, hfront.symm⟩
      rw [if_neg (not_or.mpr ⟨hbracket (by decide), hbracket (by decide)⟩),
        if_neg (hbracket (by decide)), if_pos (.inr (.inr hsuffix))]
  | false =>
      cases t with
      | elementary e => cases helementary
      | array elem => cases harray
      | fixedArray elem length => cases harray
      | bytes =>
          rw [jsonName]
          rfl
      | string =>
          rw [jsonName]
          rfl
      | tuple first rest => cases htuple

theorem textAt_of_not_elementary {t : AbiType} (h : t.isElementary = false)
    (payload : List UInt8) (pos : Nat) : textAt payload pos t = "<dynamic>" := by
  cases t with
  | elementary e => cases h
  | _ => rfl

/-- The position is that of the source as long as an elementary parameter may come. -/
theorem decodeArgsFrom_of_flat (payload : List UInt8) (paramNames : List String) :
    ∀ {rest : List AbiType} {idx pos : Nat}, (∀ t ∈ rest, t.isTuple = false) →
      FlatHeads rest → (pos = idx ∨ ∀ t ∈ rest, t.isElementary = false) →
      (idx + rest.length) * 32 ≤ payload.length →
      decodeArgsFrom payload paramNames idx (rest.map jsonName) =
        textsFrom payload paramNames idx pos rest
  | [], _, _, _, _, _, _ => rfl
  | t :: rest, idx, pos, htuple, hflat, hpos, hlength => by
      obtain ⟨hnoint, hone⟩ := hflat
      obtain ⟨hhead, hrest⟩ := List.pairwise_cons.mp hone
      rw [List.length_cons] at hlength
      have htext : renderArgWord ((payload.drop (idx * 32)).take 32) t.jsonName =
          textAt payload pos t := by
        cases helementary : t.isElementary with
        | true =>
            rcases hpos with rfl | hnone
            · cases t with
              | elementary e => rfl
              | _ => cases helementary
            · rw [hnone t List.mem_cons_self] at helementary
              cases helementary
        | false =>
            rw [textAt_of_not_elementary helementary]
            refine renderArgWord_dynamic (htuple t List.mem_cons_self) helementary ?_ _
            cases harray : t.isArray with
            | true => exact hnoint t List.mem_cons_self harray
            | false => exact isIntegerBased_of_isArray_false harray helementary
      have hnext : pos + t.headWords = idx + 1 ∨ ∀ u ∈ rest, u.isElementary = false := by
        by_cases hsome : ∃ u ∈ rest, u.isElementary = true
        · left
          obtain ⟨u, hu, helementary⟩ := hsome
          rcases hpos with rfl | hnone
          · rw [hhead u hu helementary]
          · rw [hnone u (List.mem_cons_of_mem t hu)] at helementary
            cases helementary
        · right
          intro u hu
          rw [← Bool.not_eq_true]
          exact fun helementary => hsome ⟨u, hu, helementary⟩
      rw [List.map_cons, decodeArgsFrom, if_neg (by omega), textsFrom, ← htext]
      refine congrArg₂ List.cons rfl ?_
      exact decodeArgsFrom_of_flat payload paramNames
        (fun u hu => htuple u (List.mem_cons_of_mem t hu))
        ⟨fun u hu => hnoint u (List.mem_cons_of_mem t hu), hrest⟩ hnext (by omega)

theorem length_abiEncode {types : List AbiType} {values : List AbiValue}
    (h : List.Forall₂ AbiValue.HasType values types) :
    types.length * 32 ≤ (abiEncode types values).length := by
  have hwords := length_le_totalHeadWords types
  rw [abiEncode, AbiPart.length_encode, AbiValue.headSizes_parts h]
  omega

/-! ## §3  Other heads are misread -/

theorem decodeArgsFrom_getElem? {payload : List UInt8} {paramNames : List String} :
    ∀ {types : List String} {idx i : Nat} {ty text : String}, types[i]? = some ty →
      (decodeArgsFrom payload paramNames idx types)[i]? = some text →
      text = labelled (paramNames[idx + i]?.getD "")
        (renderArgWord ((payload.drop ((idx + i) * 32)).take 32) ty)
  | [], _, i, _, _, hty, _ => by
      rw [List.getElem?_nil] at hty
      cases hty
  | t :: types, idx, i, ty, text, hty, htext => by
      rw [decodeArgsFrom] at htext
      split at htext
      · rw [List.getElem?_nil] at htext
        cases htext
      · cases i with
        | zero =>
            rw [List.getElem?_cons_zero, Option.some.injEq] at hty htext
            rw [← htext, ← hty]
            rfl
        | succ i =>
            rw [List.getElem?_cons_succ] at hty htext
            rw [decodeArgsFrom_getElem? hty htext, Nat.succ_add_eq_add_succ]

theorem textsFrom_getElem? (payload : List UInt8) (paramNames : List String) (t : AbiType)
    (post : List AbiType) : ∀ (pre : List AbiType) (idx pos : Nat),
    (textsFrom payload paramNames idx pos (pre ++ t :: post))[pre.length]? =
      some (labelled (paramNames[idx + pre.length]?.getD "")
        (textAt payload (pos + totalHeadWords pre) t))
  | [], _, _ => rfl
  | u :: pre, idx, pos => by
      have hidx : idx + 1 + pre.length = idx + (pre.length + 1) := by omega
      rw [List.cons_append, textsFrom, List.length_cons, List.getElem?_cons_succ,
        textsFrom_getElem? payload paramNames t post pre, totalHeadWords, hidx, Nat.add_assoc]

/-- What the decoder shows for a parameter is the text at its head. -/
theorem ReadsOwnHeads.renderArgWord_eq {pre post : List AbiType} {t : AbiType}
    {paramNames : List String} (h : ReadsOwnHeads (pre ++ t :: post) paramNames)
    {values : List AbiValue} (hvalues : List.Forall₂ AbiValue.HasType values (pre ++ t :: post)) :
    renderArgWord (((abiEncode (pre ++ t :: post) values).drop (pre.length * 32)).take 32)
        t.jsonName =
      textAt (abiEncode (pre ++ t :: post) values) (totalHeadWords pre) t := by
  have hexpected := textsFrom_getElem? (abiEncode (pre ++ t :: post) values) paramNames t post
    pre 0 0
  rw [← h values hvalues] at hexpected
  have hty : ((pre ++ t :: post).map jsonName)[pre.length]? = some t.jsonName := by simp
  have hshown := labelled_inj (decodeArgsFrom_getElem? hty hexpected)
  simp only [Nat.zero_add] at hshown
  exact hshown.symm

/-- The word of an array of integers is shown as a number. -/
theorem ReadsOwnHeads.noIntegers {types : List AbiType} {paramNames : List String}
    (h : ReadsOwnHeads types paramNames) :
    ∀ t ∈ types, t.isArray = true → t.isIntegerBased = false := by
  intro t ht harray
  obtain ⟨pre, post, rfl⟩ := List.append_of_mem ht
  rw [← Bool.not_eq_true]
  intro hint
  have hshown := h.renderArgWord_eq (hasType_defaultValues _)
  have helementary : t.isElementary = false := by
    cases t with
    | elementary e => cases harray
    | _ => rfl
  rw [renderArgWord_integer ((integerText_jsonName t).trans hint),
    textAt_of_not_elementary helementary, ← String.toList_inj, String.toList_ofList] at hshown
  have hmem : '<' ∈ "<dynamic>".toList := by decide
  rw [← hshown] at hmem
  exact not_mem_printNat (by decide) hmem

/-- A second value of the type, which is shown differently from zero. -/
def otherWord : ElementaryType → U256
  | .fixedBytes _ | .function => BitVec.ofNat 256 (2 ^ 248)
  | _ => 1

theorem holds_otherWord (e : ElementaryType) : e.Holds (otherWord e) := by
  have huint : ∀ k, (ElementaryType.uint k).Holds 1 := by decide +kernel
  have hint : ∀ k, (ElementaryType.int k).Holds 1 := by decide +kernel
  have hbytes : ∀ k, (ElementaryType.fixedBytes k).Holds (BitVec.ofNat 256 (2 ^ 248)) := by
    decide +kernel
  cases e with
  | uint k | ufixed k d => exact huint k
  | int k | fixed k d => exact hint k
  | address | bool | function => decide +kernel
  | fixedBytes k => exact hbytes k

theorem renderArgWord_otherWord (e : ElementaryType) :
    renderArgWord (wordBytes (otherWord e)) e.name ≠ renderArgWord (wordBytes 0) e.name := by
  rw [renderArgWord_name, renderArgWord_name]
  cases e with
  | uint k | int k =>
      simp only [ElementaryType.isInteger, if_true, otherWord]
      decide +kernel
  | ufixed k d | fixed k d | address | bool | fixedBytes k | function =>
      simp only [ElementaryType.isInteger, Bool.false_eq_true, if_false, otherWord, valueText]
      decide +kernel

/-- Before an elementary parameter no more words are taken than there are parameters: else
its value would not change the word that is shown for it. -/
theorem ReadsOwnHeads.totalHeadWords_eq {pre post : List AbiType} {e : ElementaryType}
    {paramNames : List String}
    (h : ReadsOwnHeads (pre ++ .elementary e :: post) paramNames) :
    totalHeadWords pre = pre.length := by
  by_contra hne
  have hwords := length_le_totalHeadWords pre
  have hpre := hasType_defaultValues pre
  obtain ⟨before, after, hbefore, hencode⟩ := AbiPart.encode_static
    (AbiValue.parts pre (defaultValues pre)) (AbiValue.parts post (defaultValues post)) 32
  rw [AbiValue.headSizes_parts hpre] at hbefore
  have hpayload : ∀ w : U256, abiEncode (pre ++ .elementary e :: post)
      (defaultValues pre ++ .word w :: defaultValues post) =
        before ++ (wordBytes w ++ after) := by
    intro w
    rw [abiEncode, AbiValue.parts_append hpre.length_eq, AbiValue.parts_cons]
    exact hencode (wordBytes w) (length_wordBytes w)
  have hshown : ∀ w : U256, e.Holds w →
      renderArgWord ((before.drop (pre.length * 32)).take 32) e.name =
        renderArgWord (wordBytes w) e.name := by
    intro w hw
    have hvalues : List.Forall₂ AbiValue.HasType
        (defaultValues pre ++ .word w :: defaultValues post) (pre ++ .elementary e :: post) :=
      List.rel_append hpre (.cons (.elementary hw) (hasType_defaultValues post))
    have hown : ((before ++ (wordBytes w ++ after)).drop (totalHeadWords pre * 32)).take 32 =
        wordBytes w := by
      rw [List.drop_left' (by rw [hbefore, Nat.mul_comm]), List.take_left' (length_wordBytes w)]
    have hsource : ((before ++ (wordBytes w ++ after)).drop (pre.length * 32)).take 32 =
        (before.drop (pre.length * 32)).take 32 := by
      rw [List.drop_append_of_le_length (by omega),
        List.take_append_of_le_length (by rw [List.length_drop]; omega)]
    have hread := h.renderArgWord_eq hvalues
    rw [hpayload, textAt, hown, hsource] at hread
    exact hread
  exact renderArgWord_otherWord e
    ((hshown _ (holds_otherWord e)).symm.trans (hshown 0 e.holds_zero))

theorem ReadsOwnHeads.oneWord {types : List AbiType} {paramNames : List String}
    (h : ReadsOwnHeads types paramNames) :
    types.Pairwise fun t u => u.isElementary = true → t.headWords = 1 := by
  rw [List.pairwise_iff_getElem]
  intro i j hi hj hij helementary
  cases hu : types[j] with
  | elementary e =>
      have hsplit : types = types.take j ++ .elementary e :: types.drop (j + 1) := by
        rw [← hu, List.getElem_cons_drop, List.take_append_drop]
      rw [hsplit] at h
      refine headWords_eq_one_of_totalHeadWords h.totalHeadWords_eq types[i] ?_
      exact List.mem_take_iff_getElem.mpr ⟨i, by omega, rfl⟩
  | _ =>
      rw [hu] at helementary
      cases helementary

/-- Parameters are read from their own heads exactly if the heads are flat. -/
theorem readsOwnHeads_iff {types : List AbiType} (paramNames : List String)
    (htuple : ∀ t ∈ types, t.isTuple = false) :
    ReadsOwnHeads types paramNames ↔ FlatHeads types := by
  constructor
  · intro h
    exact ⟨h.noIntegers, h.oneWord⟩
  · intro hflat values hvalues
    have hlength := length_abiEncode hvalues
    exact decodeArgsFrom_of_flat _ paramNames htuple hflat (.inl rfl) (by omega)

/-- `error Refused(address to, string why, bool[3] flags)`. -/
theorem refused_reads_own_heads :
    ReadsOwnHeads [.elementary .address, .string, .fixedArray (.elementary .bool) 3]
      ["to", "why", "flags"] := by
  refine (readsOwnHeads_iff _ ?_).mpr ⟨?_, ?_⟩
  · decide
  · decide
  · simp [isElementary]

/-- `error Failed(uint8[] ids, bool[2] flags, uint8 amount)`. -/
def failedTypes : List AbiType :=
  [.array (.elementary .uint8), .fixedArray (.elementary .bool) 2, .elementary .uint8]

/-- No numbers, true and false, and 5. -/
def failedValues : List AbiValue := [.list [], .list [.word 1, .word 0], .word 5]

theorem hasType_failedValues : List.Forall₂ AbiValue.HasType failedValues failedTypes := by
  refine .cons (.array (by decide) fun v hv => absurd hv List.not_mem_nil) (.cons
    (.fixedArray rfl fun v hv => ?_) (.cons (.elementary (by decide)) .nil))
  rw [List.mem_cons, List.mem_singleton] at hv
  rcases hv with rfl | rfl
  · exact .elementary (by decide)
  · exact .elementary (by decide)

/-- An offset is shown for the array, and the second flag for the amount. -/
theorem failed_misread :
    decodeCustomErrorArgs (abiEncode failedTypes failedValues) (failedTypes.map jsonName)
        ["ids", "flags", "amount"] = ["ids=128", "flags=<dynamic>", "amount=0"] ∧
      ¬ ReadsOwnHeads failedTypes ["ids", "flags", "amount"] := by
  have hshown : decodeCustomErrorArgs (abiEncode failedTypes failedValues)
      (failedTypes.map jsonName) ["ids", "flags", "amount"] =
        ["ids=128", "flags=<dynamic>", "amount=0"] := by
    decide +kernel
  refine ⟨hshown, fun h => ?_⟩
  have hexpected := h failedValues hasType_failedValues
  rw [hshown] at hexpected
  exact absurd hexpected (by decide +kernel)

end EvmRecorder.RevertDecode
