import EvmRecorder.Library.Numeral
import Mathlib.Data.BitVec

/-!
# Words, bytes and UTF-8

256-bit words as big-endian bytes, hexadecimal dumps, and the lossy decoding of
bytes as UTF-8 in which every maximal invalid subsequence becomes one
replacement character.
-/

namespace EvmRecorder

/-- A 256-bit word. -/
abbrev U256 : Type := BitVec 256

namespace Bytes

/-- The big-endian value of a byte string. -/
def beNat (bytes : List UInt8) : Nat := bytes.foldl (fun n b => 256 * n + b.toNat) 0

/-- The `len` low bytes of `n`, most significant first. -/
def toBeBytes : Nat → Nat → List UInt8
  | 0, _ => []
  | len + 1, n => toBeBytes len (n / 256) ++ [UInt8.ofNat n]

/-- `U256::to_be_bytes::<32>`. -/
def wordBytes (w : U256) : List UInt8 := toBeBytes 32 w.toNat

/-- `U256::from_be_bytes`. -/
def wordOfBytes (bytes : List UInt8) : U256 := BitVec.ofNat 256 (beNat bytes)

/-- `{:02x}` of a byte. -/
def hexByte (b : UInt8) : List Char :=
  [Nat.digitChar (b.toNat / 16), Nat.digitChar (b.toNat % 16)]

def hexBytes (bytes : List UInt8) : List Char := bytes.flatMap hexByte

/-- `format!("0x{:x}", w)`. -/
def hexWord (w : U256) : String := String.ofList ('0' :: 'x' :: Numeral.printHex w.toNat)

def hexDigit (c : Char) : Option Nat :=
  if '0' ≤ c ∧ c ≤ '9' then some (c.toNat - 48)
  else if 'a' ≤ c ∧ c ≤ 'f' then some (c.toNat - 87)
  else if 'A' ≤ c ∧ c ≤ 'F' then some (c.toNat - 55)
  else none

/-- `u8::from_str_radix(.., 16)` of a two-character text; a leading `+` is
accepted. -/
def hexPair (hi lo : Char) : Option UInt8 :=
  if hi = '+' then (hexDigit lo).map UInt8.ofNat
  else do
    let h ← hexDigit hi
    let l ← hexDigit lo
    some (UInt8.ofNat (16 * h + l))

/-! ## Words and their bytes -/

@[simp] theorem length_toBeBytes (len n : Nat) : (toBeBytes len n).length = len := by
  induction len generalizing n with
  | zero => rfl
  | succ len ih => rw [toBeBytes, List.length_append, ih, List.length_singleton]

@[simp] theorem length_wordBytes (w : U256) : (wordBytes w).length = 32 := length_toBeBytes 32 _

theorem length_flatMap_wordBytes (ws : List U256) :
    (ws.flatMap wordBytes).length = 32 * ws.length := by
  induction ws with
  | nil => rfl
  | cons w ws ih =>
      rw [List.flatMap_cons, List.length_append, length_wordBytes, ih, List.length_cons]
      omega

theorem beNat_append_singleton (bytes : List UInt8) (b : UInt8) :
    beNat (bytes ++ [b]) = 256 * beNat bytes + b.toNat := by
  rw [beNat, List.foldl_append]
  rfl

theorem beNat_lt (bytes : List UInt8) : beNat bytes < 256 ^ bytes.length := by
  induction bytes using List.reverseRecOn with
  | nil => decide
  | append_singleton bytes b ih =>
      have hb := b.toNat_lt
      rw [beNat_append_singleton, List.length_append, List.length_singleton, Nat.pow_succ]
      omega

theorem beNat_toBeBytes (len n : Nat) : beNat (toBeBytes len n) = n % 256 ^ len := by
  induction len generalizing n with
  | zero => simp [toBeBytes, beNat, Nat.mod_one]
  | succ len ih =>
      have hpow : 256 ^ (len + 1) = 256 * 256 ^ len := Nat.pow_succ'
      rw [toBeBytes, beNat_append_singleton, ih, UInt8.toNat_ofNat', hpow, Nat.mod_mul,
        Nat.add_comm]

theorem toBeBytes_beNat (bytes : List UInt8) : toBeBytes bytes.length (beNat bytes) = bytes := by
  induction bytes using List.reverseRecOn with
  | nil => rfl
  | append_singleton bytes b ih =>
      have hb := b.toNat_lt
      have hhigh : (256 * beNat bytes + b.toNat) / 256 = beNat bytes := by omega
      have hlow : UInt8.ofNat (256 * beNat bytes + b.toNat) = b := by
        apply UInt8.toNat.inj
        rw [UInt8.toNat_ofNat']
        omega
      rw [List.length_append, List.length_singleton, toBeBytes, beNat_append_singleton, hhigh,
        hlow, ih]

theorem beNat_eq_zero_iff {bytes : List UInt8} : beNat bytes = 0 ↔ ∀ b ∈ bytes, b = 0 := by
  induction bytes using List.reverseRecOn with
  | nil => simp [beNat]
  | append_singleton bytes b ih =>
      rw [beNat_append_singleton]
      constructor
      · intro h c hc
        rw [List.mem_append, List.mem_singleton] at hc
        rcases hc with hc | rfl
        · exact ih.mp (by omega) c hc
        · exact UInt8.toNat.inj (show c.toNat = 0 by omega)
      · intro h
        have hrest := ih.mpr fun c hc => h c (List.mem_append_left _ hc)
        have hlast : b = 0 := h b (by simp)
        rw [hrest, hlast]
        rfl

theorem beNat_append (first second : List UInt8) :
    beNat (first ++ second) = beNat first * 256 ^ second.length + beNat second := by
  induction second using List.reverseRecOn with
  | nil => simp [beNat]
  | append_singleton second b ih =>
      rw [← List.append_assoc, beNat_append_singleton, ih, beNat_append_singleton,
        List.length_append, List.length_singleton, Nat.pow_succ]
      ring

theorem beNat_wordBytes (w : U256) : beNat (wordBytes w) = w.toNat := by
  rw [wordBytes, beNat_toBeBytes]
  exact Nat.mod_eq_of_lt w.isLt

theorem any_wordBytes (w : U256) : (wordBytes w).any (· ≠ 0) = true ↔ w.toNat ≠ 0 := by
  rw [List.any_eq_true, ← beNat_wordBytes, ne_eq, beNat_eq_zero_iff]
  simp only [decide_eq_true_eq, not_forall, exists_prop, ne_eq]

theorem wordOfBytes_wordBytes (w : U256) : wordOfBytes (wordBytes w) = w := by
  apply BitVec.eq_of_toNat_eq
  have hw : w.toNat < 2 ^ 256 := w.isLt
  rw [wordOfBytes, wordBytes, beNat_toBeBytes, BitVec.toNat_ofNat]
  omega

theorem wordBytes_wordOfBytes {bytes : List UInt8} (h : bytes.length = 32) :
    wordBytes (wordOfBytes bytes) = bytes := by
  have hlt : beNat bytes < 2 ^ 256 := by
    have := beNat_lt bytes
    rwa [h] at this
  rw [wordBytes, wordOfBytes, BitVec.toNat_ofNat, Nat.mod_eq_of_lt hlt, ← h, toBeBytes_beNat]

theorem wordBytes_injective : Function.Injective wordBytes :=
  Function.LeftInverse.injective wordOfBytes_wordBytes

/-! ## Hexadecimal dumps tell bytes and words apart -/

theorem hexByte_injective : Function.Injective hexByte := by
  intro b c h
  have hb := b.toNat_lt
  have hc := c.toNat_lt
  obtain ⟨hhigh, hlow⟩ : Nat.digitChar (b.toNat / 16) = Nat.digitChar (c.toNat / 16) ∧
      Nat.digitChar (b.toNat % 16) = Nat.digitChar (c.toNat % 16) := by
    simpa [hexByte] using h
  have hdiv := Numeral.digitChar_injOn (by omega) (by omega) hhigh
  have hmod := Numeral.digitChar_injOn (by omega) (by omega) hlow
  apply UInt8.toNat.inj
  omega

theorem hexBytes_injective : Function.Injective hexBytes := by
  intro bytes
  induction bytes with
  | nil =>
      rintro (_ | ⟨c, rest⟩) h
      · rfl
      · exact absurd h (by simp [hexBytes, hexByte])
  | cons b bytes ih =>
      rintro (_ | ⟨c, rest⟩) h
      · exact absurd h (by simp [hexBytes, hexByte])
      · rw [hexBytes, hexBytes, List.flatMap_cons, List.flatMap_cons] at h
        obtain ⟨hbyte, hrest⟩ := List.append_inj h rfl
        rw [hexByte_injective hbyte, ih hrest]

/-- Two digits a byte, in either case. -/
def unhex : List Char → Option (List UInt8)
  | [] => some []
  | hi :: lo :: rest => do
      let h ← hexDigit hi
      let l ← hexDigit lo
      let bytes ← unhex rest
      some (UInt8.ofNat (16 * h + l) :: bytes)
  | _ => none

theorem hexDigit_digitChar {d : Nat} (hd : d < 16) : hexDigit (Nat.digitChar d) = some d := by
  have hall : ∀ d < 16, hexDigit (Nat.digitChar d) = some d := by decide
  exact hall d hd

/-- A dump reads back as the bytes. -/
theorem unhex_hexBytes (bytes : List UInt8) : unhex (hexBytes bytes) = some bytes := by
  induction bytes with
  | nil => rfl
  | cons b bytes ih =>
      have hb := b.toNat_lt
      show unhex (Nat.digitChar (b.toNat / 16) :: Nat.digitChar (b.toNat % 16) :: hexBytes bytes) = _
      rw [unhex, hexDigit_digitChar (by omega), hexDigit_digitChar (by omega), ih]
      simp only [Option.bind_eq_bind, Option.bind_some, Nat.div_add_mod, UInt8.ofNat_toNat]

/-- The bytes of a text `0x` and digits. -/
def unhexText (text : String) : Option (List UInt8) :=
  match text.toList with
  | '0' :: 'x' :: digits => unhex digits
  | _ => none

theorem unhexText_hexBytes (bytes : List UInt8) :
    unhexText ("0x" ++ String.ofList (hexBytes bytes)) = some bytes := by
  simp only [unhexText, String.toList_append, String.toList_ofList]
  exact unhex_hexBytes bytes

theorem not_mem_hexBytes {c : Char} (hc : ∀ d < 16, c ≠ Nat.digitChar d) (bytes : List UInt8) :
    c ∉ hexBytes bytes := by
  intro hmem
  obtain ⟨b, -, hmem⟩ := List.mem_flatMap.mp hmem
  have hb := b.toNat_lt
  simp only [hexByte, List.mem_cons, List.not_mem_nil, or_false] at hmem
  rcases hmem with h | h
  · exact hc _ (by omega) h
  · exact hc _ (by omega) h

theorem hexWord_injective : Function.Injective hexWord := by
  intro v w h
  have hdigits := String.ofList_injective h
  rw [List.cons.injEq, List.cons.injEq] at hdigits
  exact BitVec.eq_of_toNat_eq (Numeral.printHex_injective hdigits.2.2)

theorem not_mem_hexWord {c : Char} (hx : c ≠ 'x') (hc : ∀ d < 16, c ≠ Nat.digitChar d)
    (w : U256) : c ∉ (hexWord w).toList := by
  rw [hexWord, String.toList_ofList, List.mem_cons, List.mem_cons]
  rintro (h | h | h)
  · exact hc 0 (by decide) h
  · exact hx h
  · exact Numeral.not_mem_printHex hc _ h

theorem toList_hexDump (bytes : List UInt8) :
    ("0x" ++ String.ofList (hexBytes bytes)).toList = '0' :: 'x' :: hexBytes bytes := by
  simp

theorem hexDump_inj {bytes bytes' : List UInt8}
    (h : "0x" ++ String.ofList (hexBytes bytes) = "0x" ++ String.ofList (hexBytes bytes')) :
    bytes = bytes' := by
  have hchars := congrArg String.toList h
  rw [toList_hexDump, toList_hexDump, List.cons.injEq, List.cons.injEq] at hchars
  exact hexBytes_injective hchars.2.2

theorem not_mem_hexDump {c : Char} (hx : c ≠ 'x') (hc : ∀ d < 16, c ≠ Nat.digitChar d)
    (bytes : List UInt8) : c ∉ ("0x" ++ String.ofList (hexBytes bytes)).toList := by
  rw [toList_hexDump, List.mem_cons, List.mem_cons]
  rintro (h | h | h)
  · exact hc 0 (by decide) h
  · exact hx h
  · exact not_mem_hexBytes hc bytes h

/-! ## Lossy UTF-8 -/

def isContinuation (b : UInt8) : Bool := 0x80 ≤ b && b ≤ 0xbf

/-- The second byte that may follow the lead byte of a three- or four-byte
sequence. -/
def secondByteAllowed (lead second : UInt8) : Bool :=
  if lead = 0xe0 then 0xa0 ≤ second && second ≤ 0xbf
  else if lead = 0xed then 0x80 ≤ second && second ≤ 0x9f
  else if lead = 0xf0 then 0x90 ≤ second && second ≤ 0xbf
  else if lead = 0xf4 then 0x80 ≤ second && second ≤ 0x8f
  else isContinuation second

/-- Number of bytes in the sequence a lead byte opens; 0 for no lead byte. -/
def sequenceWidth (lead : UInt8) : Nat :=
  if lead ≤ 0x7f then 1
  else if 0xc2 ≤ lead ∧ lead ≤ 0xdf then 2
  else if 0xe0 ≤ lead ∧ lead ≤ 0xef then 3
  else if 0xf0 ≤ lead ∧ lead ≤ 0xf4 then 4
  else 0

def replacement : Char := '\uFFFD'

def charOfBits (bits : Nat) : Char := Char.ofNat bits

/-- The next character and the number of bytes it takes; an invalid sequence is
cut before the first byte that cannot continue it. -/
def decodeNext (lead : UInt8) (rest : List UInt8) : Char × Nat :=
  match sequenceWidth lead with
  | 1 => (charOfBits lead.toNat, 1)
  | 2 => match rest with
    | b₁ :: _ =>
        if isContinuation b₁ then
          (charOfBits ((lead.toNat - 0xc0) * 64 + (b₁.toNat - 0x80)), 2)
        else (replacement, 1)
    | [] => (replacement, 1)
  | 3 => match rest with
    | b₁ :: tail =>
        if secondByteAllowed lead b₁ then
          match tail with
          | b₂ :: _ =>
              if isContinuation b₂ then
                (charOfBits (((lead.toNat - 0xe0) * 64 + (b₁.toNat - 0x80)) * 64 +
                  (b₂.toNat - 0x80)), 3)
              else (replacement, 2)
          | [] => (replacement, 2)
        else (replacement, 1)
    | [] => (replacement, 1)
  | 4 => match rest with
    | b₁ :: tail =>
        if secondByteAllowed lead b₁ then
          match tail with
          | b₂ :: tail =>
              if isContinuation b₂ then
                match tail with
                | b₃ :: _ =>
                    if isContinuation b₃ then
                      (charOfBits ((((lead.toNat - 0xf0) * 64 + (b₁.toNat - 0x80)) * 64 +
                        (b₂.toNat - 0x80)) * 64 + (b₃.toNat - 0x80)), 4)
                    else (replacement, 3)
                | [] => (replacement, 3)
              else (replacement, 2)
          | [] => (replacement, 2)
        else (replacement, 1)
    | [] => (replacement, 1)
  | _ => (replacement, 1)

/-- Decoding from the front; `skip` bytes of the current character remain. -/
def lossyLoop : Nat → List UInt8 → List Char
  | _, [] => []
  | 0, lead :: rest =>
      let (c, width) := decodeNext lead rest
      c :: lossyLoop (width - 1) rest
  | skip + 1, _ :: rest => lossyLoop skip rest

/-- `String::from_utf8_lossy`. -/
def fromUtf8Lossy (bytes : List UInt8) : String := String.ofList (lossyLoop 0 bytes)

example : fromUtf8Lossy [0x68, 0xc3, 0xa9, 0xe2, 0x82, 0x21, 0xff] = "hé\uFFFD!\uFFFD" := by
  decide

theorem toNat_ofNat_byte {n : Nat} (h : n < 256) : (UInt8.ofNat n).toNat = n :=
  UInt8.toNat_ofNat_of_lt h

theorem sequenceWidth_ofNat {n : Nat} (h : n < 256) :
    sequenceWidth (UInt8.ofNat n) =
      if n ≤ 0x7f then 1 else if 0xc2 ≤ n ∧ n ≤ 0xdf then 2 else if 0xe0 ≤ n ∧ n ≤ 0xef then 3
      else if 0xf0 ≤ n ∧ n ≤ 0xf4 then 4 else 0 := by
  simp only [sequenceWidth, UInt8.le_iff_toNat_le, toNat_ofNat_byte h, UInt8.reduceToNat]

theorem isContinuation_ofNat {n : Nat} (h : n < 256) :
    isContinuation (UInt8.ofNat n) = true ↔ 0x80 ≤ n ∧ n ≤ 0xbf := by
  simp only [isContinuation, Bool.and_eq_true, decide_eq_true_eq, UInt8.le_iff_toNat_le,
    toNat_ofNat_byte h, UInt8.reduceToNat]

/-- What the second byte has to be under each lead byte. -/
theorem secondByteAllowed_ofNat {lead n : Nat} (hlead : lead < 256) (h : n < 256) :
    secondByteAllowed (UInt8.ofNat lead) (UInt8.ofNat n) = true ↔
      (if lead = 0xe0 then 0xa0 else if lead = 0xf0 then 0x90 else 0x80) ≤ n ∧
        n ≤ (if lead = 0xed then 0x9f else if lead = 0xf4 then 0x8f else 0xbf) := by
  simp only [secondByteAllowed, isContinuation, ← UInt8.toNat_inj, UInt8.le_iff_toNat_le,
    toNat_ofNat_byte hlead, toNat_ofNat_byte h, UInt8.reduceToNat]
  split_ifs <;> simp only [Bool.and_eq_true, decide_eq_true_eq] <;> omega

theorem decodeNext_two {lead b₁ : UInt8} (hwidth : sequenceWidth lead = 2)
    (h₁ : isContinuation b₁ = true) (rest : List UInt8) :
    decodeNext lead (b₁ :: rest) =
      (charOfBits ((lead.toNat - 0xc0) * 64 + (b₁.toNat - 0x80)), 2) := by
  unfold decodeNext
  rw [hwidth]
  simp only [h₁, if_true]

theorem decodeNext_three {lead b₁ b₂ : UInt8} (hwidth : sequenceWidth lead = 3)
    (h₁ : secondByteAllowed lead b₁ = true) (h₂ : isContinuation b₂ = true) (rest : List UInt8) :
    decodeNext lead (b₁ :: b₂ :: rest) =
      (charOfBits (((lead.toNat - 0xe0) * 64 + (b₁.toNat - 0x80)) * 64 + (b₂.toNat - 0x80)), 3) := by
  unfold decodeNext
  rw [hwidth]
  simp only [h₁, h₂, if_true]

theorem decodeNext_four {lead b₁ b₂ b₃ : UInt8} (hwidth : sequenceWidth lead = 4)
    (h₁ : secondByteAllowed lead b₁ = true) (h₂ : isContinuation b₂ = true)
    (h₃ : isContinuation b₃ = true) (rest : List UInt8) :
    decodeNext lead (b₁ :: b₂ :: b₃ :: rest) =
      (charOfBits ((((lead.toNat - 0xf0) * 64 + (b₁.toNat - 0x80)) * 64 + (b₂.toNat - 0x80)) * 64 +
        (b₃.toNat - 0x80)), 4) := by
  unfold decodeNext
  rw [hwidth]
  simp only [h₁, h₂, h₃, if_true]

/-- The bytes of a character are read back as the character, whatever follows them. -/
theorem decodeNext_utf8EncodeChar (c : Char) (rest : List UInt8) :
    ∃ lead tail, String.utf8EncodeChar c = lead :: tail ∧
      decodeNext lead (tail ++ rest) = (c, tail.length + 1) := by
  have hvalid : c.val.toNat < 0xd800 ∨ 0xdfff < c.val.toNat ∧ c.val.toNat < 0x110000 := c.valid
  have hchar : charOfBits c.val.toNat = c := Char.ofNat_toNat c
  have hcont : ∀ n, isContinuation (UInt8.ofNat (n % 64 + 128)) = true := fun n =>
    (isContinuation_ofNat (by omega)).mpr (by omega)
  have hlow : ∀ n, (UInt8.ofNat (n % 64 + 128)).toNat - 0x80 = n % 64 := fun n => by
    rw [toNat_ofNat_byte (by omega), Nat.add_sub_cancel]
  unfold String.utf8EncodeChar
  generalize c.val.toNat = v at hvalid hchar ⊢
  simp only
  split_ifs with h1 h2 h3
  · refine ⟨_, _, rfl, ?_⟩
    have hwidth : sequenceWidth (UInt8.ofNat v) = 1 := by
      rw [sequenceWidth_ofNat (by omega), if_pos h1]
    unfold decodeNext
    rw [hwidth]
    simp only [toNat_ofNat_byte (show v < 256 by omega), hchar, List.length_nil]
  · refine ⟨_, _, rfl, ?_⟩
    have hwidth : sequenceWidth (UInt8.ofNat (v / 64 % 32 + 192)) = 2 := by
      rw [sequenceWidth_ofNat (by omega), if_neg (by omega), if_pos (by omega)]
    have hbits : (v / 64 % 32 + 192 - 192) * 64 + v % 64 = v := by omega
    rw [List.singleton_append, decodeNext_two hwidth (hcont _), hlow, toNat_ofNat_byte (by omega),
      hbits, hchar]
    rfl
  · refine ⟨_, _, rfl, ?_⟩
    have hwidth : sequenceWidth (UInt8.ofNat (v / 4096 % 16 + 224)) = 3 := by
      rw [sequenceWidth_ofNat (by omega), if_neg (by omega), if_neg (by omega), if_pos (by omega)]
    have hsecond : secondByteAllowed (UInt8.ofNat (v / 4096 % 16 + 224))
        (UInt8.ofNat (v / 64 % 64 + 128)) = true := by
      rw [secondByteAllowed_ofNat (by omega) (by omega)]
      split_ifs <;> omega
    have hbits : ((v / 4096 % 16 + 224 - 224) * 64 + v / 64 % 64) * 64 + v % 64 = v := by omega
    rw [List.cons_append, List.singleton_append, decodeNext_three hwidth hsecond (hcont _), hlow,
      hlow, toNat_ofNat_byte (by omega), hbits, hchar]
    rfl
  · refine ⟨_, _, rfl, ?_⟩
    have hwidth : sequenceWidth (UInt8.ofNat (v / 262144 % 8 + 240)) = 4 := by
      rw [sequenceWidth_ofNat (by omega), if_neg (by omega), if_neg (by omega), if_neg (by omega),
        if_pos (by omega)]
    have hsecond : secondByteAllowed (UInt8.ofNat (v / 262144 % 8 + 240))
        (UInt8.ofNat (v / 4096 % 64 + 128)) = true := by
      rw [secondByteAllowed_ofNat (by omega) (by omega)]
      split_ifs <;> omega
    have hbits : (((v / 262144 % 8 + 240 - 240) * 64 + v / 4096 % 64) * 64 + v / 64 % 64) * 64 +
        v % 64 = v := by omega
    rw [List.cons_append, List.cons_append, List.singleton_append,
      decodeNext_four hwidth hsecond (hcont _) (hcont _), hlow, hlow, hlow,
      toNat_ofNat_byte (by omega), hbits, hchar]
    rfl

theorem utf8EncodeChar_ascii {c : Char} (hc : c.toNat < 128) :
    String.utf8EncodeChar c = [UInt8.ofNat c.toNat] := by
  have hsize : c.utf8Size = 1 := by
    rw [Char.utf8Size_eq_one_iff, UInt32.le_iff_toNat_le]
    exact Nat.le_of_lt_succ hc
  rw [String.utf8EncodeChar_eq_singleton hsize]
  rfl

theorem decodeNext_ascii {c : Char} (hc : c.toNat < 128) (rest : List UInt8) :
    decodeNext (UInt8.ofNat c.toNat) rest = (c, 1) := by
  obtain ⟨lead, tail, hbytes, hnext⟩ := decodeNext_utf8EncodeChar c rest
  rw [utf8EncodeChar_ascii hc] at hbytes
  obtain ⟨rfl, rfl⟩ := List.cons.inj hbytes
  exact hnext

theorem lossyLoop_append (tail rest : List UInt8) :
    lossyLoop tail.length (tail ++ rest) = lossyLoop 0 rest := by
  induction tail with
  | nil => rfl
  | cons b tail ih => exact ih

/-- A text is decoded from its bytes. -/
theorem lossyLoop_utf8 (chars : List Char) :
    lossyLoop 0 (chars.flatMap String.utf8EncodeChar) = chars := by
  induction chars with
  | nil => rfl
  | cons c chars ih =>
      obtain ⟨lead, tail, hbytes, hnext⟩ :=
        decodeNext_utf8EncodeChar c (chars.flatMap String.utf8EncodeChar)
      rw [List.flatMap_cons, hbytes, List.cons_append, lossyLoop, hnext]
      show c :: lossyLoop tail.length _ = _
      rw [lossyLoop_append, ih]

/-- The bytes of a text. -/
def utf8 (s : String) : List UInt8 := s.toList.flatMap String.utf8EncodeChar

theorem fromUtf8Lossy_utf8 (s : String) : fromUtf8Lossy (utf8 s) = s := by
  rw [fromUtf8Lossy, utf8, lossyLoop_utf8, String.ofList_toList]

end Bytes

end EvmRecorder
