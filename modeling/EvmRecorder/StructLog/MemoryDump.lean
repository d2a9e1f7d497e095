import EvmRecorder.Model.StructLog

/-!
# Memory snapshots

A tracer dumps a memory word by word, as hex texts. What is read back from the
texts is the memory, and every text stands for 32 bytes whether or not it is the
dump of a word.
-/

namespace EvmRecorder

open Numeral Bytes

/-! ## §1  Dumped words -/

/-- `text` is a dump of the word: two digits a byte, in either case, with or
without `0x`. -/
def RendersWord (word : List UInt8) (text : String) : Prop :=
  word.length = 32 ∧ ∃ digits, unhex digits = some word ∧
    (text.toList = digits ∨ text.toList = "0x".toList ++ digits)

def RendersMemory (memory : List UInt8) (texts : List String) : Prop :=
  ∃ words : List (List UInt8), memory = words.flatten ∧ List.Forall₂ RendersWord words texts

theorem hexPair_of_digits {hi lo : Char} {h l : Nat} (hhi : hexDigit hi = some h)
    (hlo : hexDigit lo = some l) : hexPair hi lo = some (UInt8.ofNat (16 * h + l)) := by
  have hplus : hi ≠ '+' := by
    rintro rfl
    rw [show hexDigit '+' = none by decide] at hhi
    cases hhi
  rw [hexPair, if_neg hplus, hhi, hlo]
  rfl

theorem decodePairs_unhex : ∀ {digits : List Char} {word : List UInt8},
    unhex digits = some word → decodePairs word.length digits = word
  | [], word, h => by
      obtain rfl := Option.some.inj h
      rfl
  | [_], _, h => nomatch h
  | hi :: lo :: rest, word, h => by
      simp only [unhex, Option.bind_eq_bind, Option.bind_eq_some_iff] at h
      obtain ⟨d, hhi, e, hlo, bytes, hrest, hword⟩ := h
      obtain rfl := Option.some.inj hword
      rw [List.length_cons, decodePairs, hexPair_of_digits hhi hlo, decodePairs_unhex hrest]
      rfl

/-- `x` is no digit, so that digits do not start with `0x`. -/
theorem stripPrefix_digits {digits : List Char} {word : List UInt8}
    (h : unhex digits = some word) : stripPrefix "0x".toList digits = none := by
  refine if_neg ?_
  rintro ⟨rest, rfl⟩
  have hx : unhex ('0' :: 'x' :: rest) = none := by
    rw [unhex, show hexDigit 'x' = none by decide]
    rfl
  rw [show "0x".toList ++ rest = '0' :: 'x' :: rest from rfl, hx] at h
  cases h

theorem RendersWord.decode {word : List UInt8} {text : String} (h : RendersWord word text) :
    decodeMemoryWord text = word := by
  obtain ⟨hlength, digits, hdigits, htext | htext⟩ := h
  · rw [decodeMemoryWord, htext, stripPrefix_digits hdigits, ← hlength]
    exact decodePairs_unhex hdigits
  · rw [decodeMemoryWord, htext, stripPrefix_append, ← hlength]
    exact decodePairs_unhex hdigits

theorem rendersWord_hexBytes {word : List UInt8} (h : word.length = 32) :
    RendersWord word (String.ofList (hexBytes word)) :=
  ⟨h, hexBytes word, unhex_hexBytes word, .inl String.toList_ofList⟩

theorem RendersMemory.length {memory : List UInt8} {texts : List String}
    (h : RendersMemory memory texts) : memory.length = 32 * texts.length := by
  obtain ⟨words, rfl, hwords⟩ := h
  induction hwords with
  | nil => rfl
  | cons hword _ ih =>
      rw [List.flatten_cons, List.length_append, hword.1, ih, List.length_cons]
      omega

theorem RendersMemory.decode {memory : List UInt8} {texts : List String}
    (h : RendersMemory memory texts) : decodeStructLogMemory (some texts) = memory := by
  obtain ⟨words, rfl, hwords⟩ := h
  show texts.flatMap decodeMemoryWord = words.flatten
  induction hwords with
  | nil => rfl
  | cons hword _ ih => rw [List.flatMap_cons, List.flatten_cons, hword.decode, ih]

/-! ## §2  Any words -/

@[simp] theorem length_decodePairs (n : Nat) (cs : List Char) : (decodePairs n cs).length = n := by
  fun_induction decodePairs n cs with
  | case1 => rfl
  | case2 n hi lo rest ih => rw [List.length_cons, ih]
  | case3 n cs _ ih => rw [List.length_cons, ih]

@[simp] theorem length_decodeMemoryWord (text : String) : (decodeMemoryWord text).length = 32 :=
  length_decodePairs 32 _

theorem length_decodeStructLogMemory (texts : List String) :
    (decodeStructLogMemory (some texts)).length = 32 * texts.length := by
  show (texts.flatMap decodeMemoryWord).length = 32 * texts.length
  induction texts with
  | nil => rfl
  | cons text texts ih =>
      rw [List.flatMap_cons, List.length_append, length_decodeMemoryWord, ih, List.length_cons]
      omega

/-- The bytes from `32 * i` on are those of word `i`. -/
theorem decodeStructLogMemory_word {texts : List String} {i : Nat} {text : String}
    (h : texts[i]? = some text) :
    ((decodeStructLogMemory (some texts)).drop (32 * i)).take 32 = decodeMemoryWord text := by
  show ((texts.flatMap decodeMemoryWord).drop (32 * i)).take 32 = decodeMemoryWord text
  induction texts generalizing i with
  | nil => cases h
  | cons first texts ih =>
      rw [List.flatMap_cons]
      cases i with
      | zero =>
          obtain rfl := Option.some.inj h
          exact List.take_left' (length_decodeMemoryWord first)
      | succ i =>
          have hskip : 32 * (i + 1) = (decodeMemoryWord first).length + 32 * i := by
            rw [length_decodeMemoryWord]
            omega
          rw [hskip, List.drop_length_add_append]
          exact ih h

/-- A range is read iff it ends within the snapshot: the saturated end is no
length of a `Vec<u8>`. -/
theorem memoryRange_eq {memory : Option (List String)} (offset size : Nat)
    (hfit : (decodeStructLogMemory memory).length < 2 ^ 63) :
    memoryRange memory offset size =
      if offset + size ≤ (decodeStructLogMemory memory).length then
        some (((decodeStructLogMemory memory).drop offset).take size)
      else none := by
  unfold memoryRange saturatingAddUsize
  dsimp only
  by_cases h : offset + size ≤ (decodeStructLogMemory memory).length
  · rw [if_pos h, if_neg (by omega)]
  · rw [if_neg h, if_pos (by omega)]

/-- The decoding inverts the dump, and keeps each word in its place whatever the
others are. -/
theorem decodeStructLogMemory_inverts_dump :
    (∀ memory texts, RendersMemory memory texts → decodeStructLogMemory (some texts) = memory) ∧
      ∀ texts : List String,
        (decodeStructLogMemory (some texts)).length = 32 * texts.length ∧
          ∀ i text, texts[i]? = some text →
            ((decodeStructLogMemory (some texts)).drop (32 * i)).take 32 =
                decodeStructLogMemory (some [text]) ∧
              ∀ word, RendersWord word text →
                ((decodeStructLogMemory (some texts)).drop (32 * i)).take 32 = word := by
  refine ⟨fun memory texts h => h.decode, fun texts => ⟨length_decodeStructLogMemory texts, ?_⟩⟩
  intro i text htext
  have hword := decodeStructLogMemory_word htext
  constructor
  · have halone : decodeStructLogMemory (some [text]) = decodeMemoryWord text :=
      List.append_nil (decodeMemoryWord text)
    rw [hword, halone]
  · intro word hrenders
    rw [hword, hrenders.decode]

end EvmRecorder
