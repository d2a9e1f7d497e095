import EvmRecorder.Library.AbiEncoding
import EvmRecorder.Model.RevertDecode

/-!
# Decoding of `Error(string)`

No payload makes the decoder slice out of range, and it reads a text exactly from the
payloads in which the offset and the length lead to one. A text is read back from its
encoding, and whatever is not read is dumped.
-/

namespace EvmRecorder.RevertDecode

open Bytes

/-! ## §1  Offsets and lengths -/

/-- A word is a `usize` exactly below 2^64. -/
theorem u256ToUsize_eq {bytes : List UInt8} (h : bytes.length = 32) :
    u256ToUsize bytes = if beNat bytes < 2 ^ 64 then some (beNat bytes) else none := by
  have hvalue : beNat bytes = beNat (bytes.take 24) * 2 ^ 64 + beNat (bytes.drop 24) := by
    conv_lhs => rw [← List.take_append_drop 24 bytes, beNat_append, List.length_drop, h]
    rw [← Nat.pow_mul 2 8 8]
  have hlow : beNat (bytes.drop 24) < 2 ^ 64 := by
    have hlt := beNat_lt (bytes.drop 24)
    rwa [List.length_drop, h] at hlt
  rw [u256ToUsize]
  by_cases hhigh : beNat (bytes.take 24) = 0
  · have hzero : ¬ (bytes.take 24).any (· ≠ 0) = true := by
      rw [List.any_eq_true]
      rintro ⟨b, hb, hne⟩
      exact of_decide_eq_true hne (beNat_eq_zero_iff.mp hhigh b hb)
    rw [hhigh, Nat.zero_mul, Nat.zero_add] at hvalue
    rw [if_neg hzero, hvalue, if_pos hlow]
  · have hsome : (bytes.take 24).any (· ≠ 0) = true := by
      by_contra hnone
      refine hhigh (beNat_eq_zero_iff.mpr fun b hb => ?_)
      by_contra hne
      exact hnone (List.any_eq_true.mpr ⟨b, hb, decide_eq_true hne⟩)
    rw [if_pos hsome, if_neg (by omega)]

/-! ## §2  Slices -/

theorem sliceRange_eq_some {bytes : List UInt8} {start stop : Nat} (h : start ≤ stop)
    (hstop : stop ≤ bytes.length) :
    sliceRange bytes start stop = some ((bytes.drop start).take (stop - start)) :=
  if_pos ⟨h, hstop⟩

theorem sliceRange_from {bytes : List UInt8} {start : Nat} (h : start ≤ bytes.length) :
    sliceRange bytes start bytes.length = some (bytes.drop start) := by
  rw [sliceRange_eq_some h le_rfl, List.take_of_length_le (List.length_drop.le)]

/-- Each slice lies within the bytes that the tests before it have found. -/
theorem decodeErrorStringPayloadChecked_eq (payload : List UInt8) :
    decodeErrorStringPayloadChecked payload = some (decodeErrorStringPayload payload) := by
  rw [decodeErrorStringPayloadChecked, decodeErrorStringPayload]
  by_cases hshort : payload.length < 64
  · rw [if_pos hshort, if_pos hshort]
  rw [if_neg hshort, if_neg hshort, sliceRange_eq_some (Nat.zero_le 32) (by omega)]
  cases hoffset : u256ToUsize (payload.take 32) with
  | none => simp [hoffset]
  | some offset =>
      simp only [Option.bind_eq_bind, Option.bind_some, List.drop_zero, Nat.sub_zero, hoffset]
      by_cases hbeyond : payload.length < offset
      · rw [if_pos hbeyond, if_pos hbeyond]
      rw [if_neg hbeyond, if_neg hbeyond, sliceRange_from (by omega), Option.bind_some]
      by_cases hword : (payload.drop offset).length < 32
      · rw [if_pos hword, if_pos hword]
      rw [if_neg hword, if_neg hword, sliceRange_eq_some (Nat.zero_le 32) (by omega)]
      cases hlength : u256ToUsize ((payload.drop offset).take 32) with
      | none => simp [hlength]
      | some length =>
          simp only [Option.bind_some, List.drop_zero, Nat.sub_zero, hlength]
          rw [sliceRange_from (by omega), Option.bind_some]
          by_cases hbody : ((payload.drop offset).drop 32).length < length
          · rw [if_pos hbody, if_pos hbody]
          rw [if_neg hbody, if_neg hbody, sliceRange_eq_some (Nat.zero_le length) (by omega),
            Option.bind_some, List.drop_zero, Nat.sub_zero]

/-! ## §3  What is read -/

/-- The word at a byte offset; bytes behind the end do not count. -/
def wordAt (bytes : List UInt8) (offset : Nat) : Nat := beNat ((bytes.drop offset).take 32)

/-- The offset leads to a length, and the text of this length is inside the payload. -/
structure HoldsText (payload : List UInt8) : Prop where
  head : 64 ≤ payload.length
  offset : wordAt payload 0 < 2 ^ 64
  length : wordAt payload (wordAt payload 0) < 2 ^ 64
  inside : wordAt payload 0 + 32 + wordAt payload (wordAt payload 0) ≤ payload.length

theorem decodeErrorStringPayload_eq_some {payload : List UInt8} (h : HoldsText payload) :
    decodeErrorStringPayload payload =
      some (fromUtf8Lossy ((payload.drop (wordAt payload 0 + 32)).take
        (wordAt payload (wordAt payload 0)))) := by
  obtain ⟨hhead, hoffset, hlength, hinside⟩ := h
  have hword : u256ToUsize (payload.take 32) = some (wordAt payload 0) := by
    rw [u256ToUsize_eq (by rw [List.length_take]; omega)]
    exact if_pos hoffset
  have hlen : u256ToUsize ((payload.drop (wordAt payload 0)).take 32) =
      some (wordAt payload (wordAt payload 0)) := by
    rw [u256ToUsize_eq (by rw [List.length_take, List.length_drop]; omega)]
    exact if_pos hlength
  simp only [decodeErrorStringPayload, if_neg (show ¬ payload.length < 64 by omega), hword,
    Option.bind_eq_bind, Option.bind_some, List.length_drop, List.drop_drop, hlen]
  rw [if_neg (by omega), if_neg (by omega), if_neg (by omega)]

theorem holdsText_of_decode {payload : List UInt8} {text : String}
    (h : decodeErrorStringPayload payload = some text) : HoldsText payload := by
  simp only [decodeErrorStringPayload, Option.ite_none_left_eq_some, Option.bind_eq_bind,
    Option.bind_eq_some_iff, not_lt, List.length_drop] at h
  obtain ⟨hhead, offset, hoffset, hbeyond, hword, length, hlength, hbody, -⟩ := h
  rw [u256ToUsize_eq (by rw [List.length_take]; omega), Option.ite_none_right_eq_some] at hoffset
  rw [u256ToUsize_eq (by rw [List.length_take, List.length_drop]; omega),
    Option.ite_none_right_eq_some] at hlength
  obtain ⟨hoffset, heq⟩ := hoffset
  obtain ⟨hlength, hleq⟩ := hlength
  have hzero : wordAt payload 0 = offset := Option.some.inj heq
  have hsecond : wordAt payload offset = length := Option.some.inj hleq
  refine ⟨hhead, hoffset, ?_, ?_⟩
  · rw [hzero]
    exact hlength
  · rw [hzero, hsecond]
    omega

/-- The decoder reads a text from a payload exactly if it holds one. -/
theorem decodeErrorStringPayload_isSome_iff (payload : List UInt8) :
    (decodeErrorStringPayload payload).isSome = true ↔ HoldsText payload := by
  rw [Option.isSome_iff_exists]
  constructor
  · rintro ⟨text, h⟩
    exact holdsText_of_decode h
  · intro h
    exact ⟨_, decodeErrorStringPayload_eq_some h⟩

/-! ## §4  Texts and dumps -/

/-- Slices have at most `isize::MAX` bytes. -/
def isizeMax : Nat := 2 ^ 63 - 1

/-- `require(cond, s)`: the selector of `Error(string)` and the encoded text. -/
def errorString (s : String) : List UInt8 :=
  errorStringSelector ++ abiEncode [.string] [.bytes (utf8 s)]

theorem abiEncode_string (bytes : List UInt8) :
    abiEncode [.string] [.bytes bytes] = wordBytes 32 ++
      (wordBytes (BitVec.ofNat 256 bytes.length) ++ padRight bytes) := by
  simp [abiEncode, AbiValue.parts, AbiValue.encode, AbiPart.encode, AbiPart.heads, AbiPart.tails,
    AbiPart.headSizes, AbiPart.headSize, AbiType.isDynamic]

theorem take_beNat_word {n : Nat} (h : n < 2 ^ 256) (rest : List UInt8) :
    beNat ((wordBytes (BitVec.ofNat 256 n) ++ rest).take 32) = n := by
  rw [List.take_left' (length_wordBytes _), wordBytes, beNat_toBeBytes, BitVec.toNat_ofNat,
    Nat.mod_eq_of_lt h]
  exact Nat.mod_eq_of_lt h

theorem decodeErrorStringPayload_abiEncode {s : String} (h : (utf8 s).length < 2 ^ 64) :
    decodeErrorStringPayload (abiEncode [.string] [.bytes (utf8 s)]) = some s := by
  have hpad : (utf8 s).length ≤ (padRight (utf8 s)).length := by
    rw [padRight, List.length_append]
    exact Nat.le_add_right _ _
  have hoffset : wordAt (abiEncode [.string] [.bytes (utf8 s)]) 0 = 32 := by
    rw [wordAt, List.drop_zero, abiEncode_string]
    exact take_beNat_word (n := 32) (by decide) _
  have hlength : wordAt (abiEncode [.string] [.bytes (utf8 s)]) 32 = (utf8 s).length := by
    rw [wordAt, abiEncode_string, List.drop_left' (length_wordBytes _)]
    exact take_beNat_word (h.trans (by decide)) _
  have hsize : (abiEncode [.string] [.bytes (utf8 s)]).length =
      64 + (padRight (utf8 s)).length := by
    rw [abiEncode_string, List.length_append, List.length_append, length_wordBytes,
      length_wordBytes]
    omega
  have hholds : HoldsText (abiEncode [.string] [.bytes (utf8 s)]) := by
    refine ⟨by omega, by rw [hoffset]; decide, ?_, ?_⟩
    · rw [hoffset, hlength]
      exact h
    · rw [hoffset, hlength]
      omega
  have hbody : (abiEncode [.string] [.bytes (utf8 s)]).drop 64 = padRight (utf8 s) := by
    rw [abiEncode_string, ← List.append_assoc]
    apply List.drop_left'
    rw [List.length_append, length_wordBytes, length_wordBytes]
  rw [decodeErrorStringPayload_eq_some hholds, hoffset, hlength, hbody, padRight, List.take_left,
    fromUtf8Lossy_utf8]

/-- A selector and what follows it are taken apart again. -/
theorem selector_append {selector : List UInt8} (h : selector.length = 4) (payload : List UInt8) :
    (selector ++ payload).isEmpty = false ∧ 4 ≤ (selector ++ payload).length ∧
      (selector ++ payload).take 4 = selector ∧ (selector ++ payload).drop 4 = payload := by
  have hlength : 4 ≤ (selector ++ payload).length := by
    rw [List.length_append]
    omega
  refine ⟨?_, hlength, List.take_left' h, List.drop_left' h⟩
  rw [List.isEmpty_eq_false_iff_exists_mem]
  exact ⟨_, List.getElem_mem (show 0 < (selector ++ payload).length by omega)⟩

theorem decodeRevert_errorString (payload : List UInt8) :
    decodeRevert (errorStringSelector ++ payload) =
      match decodeErrorStringPayload payload with
      | some text => ⟨"Revert", text⟩
      | none => revertRaw (errorStringSelector ++ payload) := by
  obtain ⟨hnonempty, hlength, hselector, hpayload⟩ :=
    selector_append (show errorStringSelector.length = 4 from rfl) payload
  rw [decodeRevert, decodeRevertWithRegistry, hnonempty, if_neg Bool.false_ne_true,
    if_pos hlength]
  cases hread : decodeErrorStringPayload payload with
  | none => simp only [hselector, hpayload, if_true, hread]
  | some text => simp only [hselector, hpayload, if_true, hread]

/-- Slices stay in range, the payloads that are read are those that hold a text, texts are
read back from their encoding, and other payloads with the selector are dumped. -/
theorem errorString_decoding_exact :
    (∀ payload, decodeErrorStringPayloadChecked payload = some (decodeErrorStringPayload payload)) ∧
    (∀ payload, (decodeErrorStringPayload payload).isSome = true ↔ HoldsText payload) ∧
    (∀ s, (errorString s).length ≤ isizeMax → decodeRevert (errorString s) = ⟨"Revert", s⟩) ∧
    (∀ payload, decodeErrorStringPayload payload = none →
      ∃ m, decodeRevert (errorStringSelector ++ payload) = ⟨"RevertRaw", m⟩ ∧
        unhexText m = some (errorStringSelector ++ payload)) := by
  refine ⟨decodeErrorStringPayloadChecked_eq, decodeErrorStringPayload_isSome_iff, ?_, ?_⟩
  · intro s hsize
    have hfits : (utf8 s).length < 2 ^ 64 := by
      rw [errorString, abiEncode_string, padRight] at hsize
      simp only [List.length_append] at hsize
      have hmax : isizeMax < 2 ^ 64 := by decide
      omega
    rw [errorString, decodeRevert_errorString, decodeErrorStringPayload_abiEncode hfits]
  · intro payload hnone
    rw [decodeRevert_errorString, hnone]
    exact ⟨_, rfl, unhexText_hexBytes _⟩

/-- A text with a two-byte character, and a payload that ends in its length. -/
theorem errorString_decoding_sample :
    decodeRevert (errorString "é!") = ⟨"Revert", "é!"⟩ ∧
      ∃ m, decodeRevert (errorStringSelector ++ (wordBytes 32 ++ wordBytes 1)) =
          ⟨"RevertRaw", m⟩ ∧
        unhexText m = some (errorStringSelector ++ (wordBytes 32 ++ wordBytes 1)) := by
  obtain ⟨-, -, htext, hdump⟩ := errorString_decoding_exact
  exact ⟨htext "é!" (by decide +kernel), hdump _ (by decide +kernel)⟩

end EvmRecorder.RevertDecode
