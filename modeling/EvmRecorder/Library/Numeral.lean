import Mathlib.Tactic

/-!
# Decimal and hexadecimal numerals

Printing and parsing of integers as a systems language's standard library does
it: digits are read left to right, a sign is optional, an empty digit run and a
value outside the target type are errors. Printing is the canonical numeral
(no leading zeros), so parsing undoes printing and printing is injective.

Texts are `List Char`, the form in which a parser consumes them.
-/

namespace EvmRecorder.Numeral

/-! ## §1  Parsing -/

/-- A non-empty run of decimal digits. -/
def parseNat (cs : List Char) : Option Nat :=
  if cs ≠ [] ∧ cs.all Char.isDigit then some (Nat.ofDigitChars 10 cs 0) else none

/-- An unsigned integer below `bound`; a leading `+` is accepted. -/
def parseUnsigned (bound : Nat) (cs : List Char) : Option Nat := do
  let n ← parseNat (if cs.head? = some '+' then cs.tail else cs)
  if n < bound then some n else none

/-- A 32-bit signed integer with an optional sign. -/
def parseI32 (cs : List Char) : Option Int32 :=
  if cs.head? = some '-' then do
    let n ← parseNat cs.tail
    if n ≤ 2 ^ 31 then some (Int32.ofInt (-(n : Int))) else none
  else do
    let n ← parseUnsigned (2 ^ 31) cs
    some (Int32.ofInt (n : Int))

/-- The remainder of `cs` after the prefix `pre`, if it starts with it. -/
def stripPrefix (pre cs : List Char) : Option (List Char) :=
  if pre <+: cs then some (cs.drop pre.length) else none

@[simp] theorem stripPrefix_append (pre cs : List Char) : stripPrefix pre (pre ++ cs) = some cs := by
  rw [stripPrefix, if_pos (List.prefix_append pre cs), List.drop_left]

theorem eq_append_of_stripPrefix {pre cs rest : List Char} (h : stripPrefix pre cs = some rest) :
    cs = pre ++ rest := by
  rw [stripPrefix] at h
  split at h
  · next hpre =>
      obtain ⟨tail, rfl⟩ := hpre
      rw [List.drop_left] at h
      rw [Option.some.inj h]
  · cases h

/-! ## §2  Printing -/

def printNat (n : Nat) : List Char := Nat.toDigits 10 n

def printI32 (x : Int32) : List Char :=
  if x.toInt < 0 then '-' :: printNat x.toInt.natAbs else printNat x.toInt.natAbs

/-- Lower-case hexadecimal without leading zeros. -/
def printHex (n : Nat) : List Char := Nat.toDigits 16 n

/-! ## §3  Parsing undoes printing -/

theorem printNat_ne_nil (n : Nat) : printNat n ≠ [] := Nat.toDigits_ne_nil

theorem toList_repr (n : Nat) : (Nat.repr n).toList = printNat n := by
  rw [Nat.repr, String.toList_ofList, printNat]

theorem isDigit_of_mem_printNat {n : Nat} {c : Char} (h : c ∈ printNat n) :
    c.isDigit = true :=
  Nat.isDigit_of_mem_toDigits (by decide) (by decide) h

@[simp] theorem parseNat_printNat (n : Nat) : parseNat (printNat n) = some n := by
  have hall : (printNat n).all Char.isDigit = true :=
    List.all_eq_true.mpr fun c hc => isDigit_of_mem_printNat hc
  rw [parseNat, if_pos ⟨printNat_ne_nil n, hall⟩, printNat, Nat.ofDigitChars_ten_toDigits]

/-- A character that is no digit does not occur in a numeral. -/
theorem not_mem_printNat {n : Nat} {c : Char} (h : c.isDigit = false) :
    c ∉ printNat n := fun hc => by
  rw [isDigit_of_mem_printNat hc] at h
  exact Bool.noConfusion h

/-- A printed natural number starts with a digit, hence with no sign. -/
theorem head?_printNat_ne (n : Nat) {c : Char} (h : c.isDigit = false) :
    (printNat n).head? ≠ some c := fun hc =>
  not_mem_printNat h (List.mem_of_mem_head? hc)

theorem parseUnsigned_eq_some_iff {bound n : Nat} {cs : List Char} :
    parseUnsigned bound cs = some n ↔
      parseNat (if cs.head? = some '+' then cs.tail else cs) = some n ∧ n < bound := by
  rw [parseUnsigned, Option.bind_eq_bind, Option.bind_eq_some_iff]
  constructor
  · rintro ⟨m, hm, hbound⟩
    split at hbound
    · next hlt =>
        cases hbound
        exact ⟨hm, hlt⟩
    · cases hbound
  · rintro ⟨hn, hlt⟩
    exact ⟨n, hn, if_pos hlt⟩

theorem parseNat_eq_none {cs : List Char} {c : Char} (hc : c.isDigit = false) (h : c ∈ cs) :
    parseNat cs = none := by
  refine if_neg fun hall => ?_
  rw [List.all_eq_true.mp hall.2 c h] at hc
  cases hc

/-- A text with anything but digits and a sign is no number. -/
theorem parseUnsigned_eq_none {bound : Nat} {cs : List Char} {c : Char} (hc : c.isDigit = false)
    (hplus : c ≠ '+') (h : c ∈ cs) : parseUnsigned bound cs = none := by
  have hdigits : parseNat (if cs.head? = some '+' then cs.tail else cs) = none := by
    split
    · next hhead =>
        cases cs with
        | nil => cases h
        | cons d rest =>
            rw [Option.some.inj hhead] at h
            exact parseNat_eq_none hc ((List.mem_cons.mp h).resolve_left hplus)
    · exact parseNat_eq_none hc h
  rw [parseUnsigned, hdigits]
  rfl

theorem parseUnsigned_printNat {bound n : Nat} (h : n < bound) :
    parseUnsigned bound (printNat n) = some n := by
  have hplus := head?_printNat_ne n (c := '+') (by decide)
  simp [parseUnsigned, hplus, h]

theorem parseI32_printNat {n : Nat} (h : n < 2 ^ 31) :
    parseI32 (printNat n) = some (Int32.ofInt n) := by
  have hminus := head?_printNat_ne n (c := '-') (by decide)
  rw [parseI32, if_neg hminus, parseUnsigned_printNat h]
  rfl

theorem parseI32_minus_printNat {n : Nat} (h : n ≤ 2 ^ 31) :
    parseI32 ('-' :: printNat n) = some (Int32.ofInt (-(n : Int))) := by
  rw [parseI32, if_pos List.head?_cons, List.tail_cons, parseNat_printNat]
  exact if_pos h

@[simp] theorem parseI32_printI32 (x : Int32) : parseI32 (printI32 x) = some x := by
  have hlo := x.le_toInt
  have hhi := x.toInt_lt
  by_cases hneg : x.toInt < 0
  · have habs : -(x.toInt.natAbs : Int) = x.toInt := by omega
    rw [printI32, if_pos hneg, parseI32_minus_printNat (by omega), habs, Int32.ofInt_toInt]
  · have habs : (x.toInt.natAbs : Int) = x.toInt := by omega
    rw [printI32, if_neg hneg, parseI32_printNat (by omega), habs, Int32.ofInt_toInt]

theorem printI32_ne_nil (x : Int32) : printI32 x ≠ [] := by
  unfold printI32
  split
  · exact List.cons_ne_nil _ _
  · exact printNat_ne_nil _

/-- Only digits and the minus sign occur in a printed integer. -/
theorem not_mem_printI32 {x : Int32} {c : Char} (hd : c.isDigit = false) (hm : c ≠ '-') :
    c ∉ printI32 x := by
  unfold printI32
  split
  · simp [hm, not_mem_printNat hd]
  · exact not_mem_printNat hd

theorem printNat_injective : Function.Injective printNat := fun m n h => by
  have := congrArg parseNat h
  simpa using this

theorem repr_inj {m n : Nat} : Nat.repr m = Nat.repr n ↔ m = n := by
  constructor
  · intro h
    have hdigits := congrArg String.toList h
    rw [toList_repr, toList_repr] at hdigits
    exact printNat_injective hdigits
  · rintro rfl
    rfl

/-! ## §4  Hexadecimal -/

theorem digitChar_injOn {m n : Nat} (hm : m < 16) (hn : n < 16)
    (h : Nat.digitChar m = Nat.digitChar n) : m = n := by
  have hall : ∀ m < 16, ∀ n < 16, Nat.digitChar m = Nat.digitChar n → m = n := by decide
  exact hall m hm n hn h

/-- Digits are told apart by their characters, so numerals by their digits; the
last digit is peeled off. -/
theorem printHex_injective : Function.Injective printHex := by
  have hshort : ∀ {m n : Nat}, m < 16 → 16 ≤ n → printHex m ≠ printHex n := by
    intro m n hm hn h
    have hlen := congrArg List.length h
    rw [printHex, printHex, Nat.toDigits_of_lt_base hm,
      Nat.toDigits_of_base_le (by decide) hn, List.length_append] at hlen
    have hpos : 0 < (Nat.toDigits 16 (n / 16)).length := Nat.length_toDigits_pos
    simp only [List.length_singleton] at hlen
    omega
  intro m
  induction m using Nat.strongRecOn with
  | ind m ih =>
      intro n h
      rcases Nat.lt_or_ge m 16 with hm | hm <;> rcases Nat.lt_or_ge n 16 with hn | hn
      · rw [printHex, printHex, Nat.toDigits_of_lt_base hm, Nat.toDigits_of_lt_base hn,
          List.cons.injEq] at h
        exact digitChar_injOn hm hn h.1
      · exact absurd h (hshort hm hn)
      · exact absurd h.symm (hshort hn hm)
      · rw [printHex, printHex, Nat.toDigits_of_base_le (by decide) hm,
          Nat.toDigits_of_base_le (by decide) hn] at h
        obtain ⟨hhigh, hlow⟩ := List.append_singleton_inj.mp h
        have hdiv : m / 16 = n / 16 := ih (m / 16) (Nat.div_lt_self (by omega) (by decide)) hhigh
        have hmod : m % 16 = n % 16 :=
          digitChar_injOn (Nat.mod_lt m (by decide)) (Nat.mod_lt n (by decide)) hlow
        rw [← Nat.div_add_mod m 16, ← Nat.div_add_mod n 16, hdiv, hmod]

/-- A character that is no hexadecimal digit does not occur in a numeral. -/
theorem not_mem_printHex {c : Char} (hc : ∀ d < 16, c ≠ Nat.digitChar d) (n : Nat) :
    c ∉ printHex n := by
  induction n using Nat.strongRecOn with
  | ind n ih =>
      rcases Nat.lt_or_ge n 16 with hn | hn
      · rw [printHex, Nat.toDigits_of_lt_base hn, List.mem_singleton]
        exact hc n hn
      · rw [printHex, Nat.toDigits_of_base_le (by decide) hn, List.mem_append,
          List.mem_singleton]
        rintro (hmem | heq)
        · exact ih (n / 16) (Nat.div_lt_self (by omega) (by decide)) hmem
        · exact hc (n % 16) (Nat.mod_lt n (by decide)) heq

end EvmRecorder.Numeral
