import EvmRecorder.Library.Bytes

/-!
# ABI types

The types of the contract ABI: elementary types of one word, byte strings, arrays and
tuples. Each has a name in the JSON description of an interface, where a tuple is only
called `tuple`, and a canonical name, in which it is spelled out.
-/

namespace EvmRecorder

open Numeral

/-! ## §1  Elementary types -/

/-- `k` stands for `k + 1` bytes, `d` for `d + 1` decimals. -/
inductive ElementaryType where
  | uint (k : Fin 32)
  | int (k : Fin 32)
  | ufixed (k : Fin 32) (d : Fin 80)
  | fixed (k : Fin 32) (d : Fin 80)
  | address
  | bool
  | fixedBytes (k : Fin 32)
  | function
deriving DecidableEq, Repr

namespace ElementaryType

def name : ElementaryType → String
  | uint k => "uint" ++ Nat.repr (8 * (k.val + 1))
  | int k => "int" ++ Nat.repr (8 * (k.val + 1))
  | ufixed k d => "ufixed" ++ Nat.repr (8 * (k.val + 1)) ++ "x" ++ Nat.repr (d.val + 1)
  | fixed k d => "fixed" ++ Nat.repr (8 * (k.val + 1)) ++ "x" ++ Nat.repr (d.val + 1)
  | address => "address"
  | bool => "bool"
  | fixedBytes k => "bytes" ++ Nat.repr (k.val + 1)
  | function => "function"

def uint8 : ElementaryType := .uint 0

def uint256 : ElementaryType := .uint 31

def int8 : ElementaryType := .int 0

def isInteger : ElementaryType → Bool
  | uint _ | int _ => true
  | _ => false

end ElementaryType

/-! ## §2  Types -/

/-- The compiler knows no arrays of length zero and no structs without members. -/
inductive AbiType where
  | elementary (e : ElementaryType)
  | bytes
  | string
  | array (elem : AbiType)
  | fixedArray (elem : AbiType) (length : ℕ+)
  | tuple (first : AbiType) (rest : List AbiType)

namespace AbiType

mutual
/-- Dynamic types are kept in the tail of an encoding. -/
def isDynamic : AbiType → Bool
  | elementary _ => false
  | bytes | string | array _ => true
  | fixedArray elem _ => elem.isDynamic
  | tuple first rest => first.isDynamic || anyDynamic rest

def anyDynamic : List AbiType → Bool
  | [] => false
  | t :: rest => t.isDynamic || anyDynamic rest
end

mutual
/-- Words in the head of an encoding; a dynamic type has the word of its offset there. -/
def headWords : AbiType → Nat
  | elementary _ | bytes | string | array _ => 1
  | fixedArray elem length => if elem.isDynamic then 1 else length * elem.headWords
  | tuple first rest =>
      if first.isDynamic || anyDynamic rest then 1 else first.headWords + totalHeadWords rest

def totalHeadWords : List AbiType → Nat
  | [] => 0
  | t :: rest => t.headWords + totalHeadWords rest
end

/-- The type of the innermost elements of an array, the type itself if it is none. -/
def base : AbiType → AbiType
  | array elem => elem.base
  | fixedArray elem _ => elem.base
  | t => t

/-- Integers and arrays of them. -/
def isIntegerBased (t : AbiType) : Bool :=
  match t.base with
  | elementary e => e.isInteger
  | _ => false

/-- Unsigned integers and arrays of them. -/
def isUintBased (t : AbiType) : Bool :=
  match t.base with
  | elementary (.uint _) => true
  | _ => false

/-- The brackets behind the base type. -/
def dimensions : AbiType → String
  | array elem => elem.dimensions ++ "[]"
  | fixedArray elem length => elem.dimensions ++ "[" ++ Nat.repr length ++ "]"
  | _ => ""

/-- The `type` of a parameter in the JSON description. -/
def jsonName : AbiType → String
  | elementary e => e.name
  | bytes => "bytes"
  | string => "string"
  | array elem => elem.jsonName ++ "[]"
  | fixedArray elem length => elem.jsonName ++ "[" ++ Nat.repr length ++ "]"
  | tuple _ _ => "tuple"

mutual
/-- The name of the type in a signature. -/
def canonicalName : AbiType → String
  | elementary e => e.name
  | bytes => "bytes"
  | string => "string"
  | array elem => elem.canonicalName ++ "[]"
  | fixedArray elem length => elem.canonicalName ++ "[" ++ Nat.repr length ++ "]"
  | tuple first rest =>
      "(" ++ String.intercalate "," (first.canonicalName :: canonicalNames rest) ++ ")"

def canonicalNames : List AbiType → List String
  | [] => []
  | t :: rest => t.canonicalName :: canonicalNames rest
end

def isTuple : AbiType → Bool
  | tuple _ _ => true
  | _ => false

def isElementary : AbiType → Bool
  | elementary _ => true
  | _ => false

def isArray : AbiType → Bool
  | array _ | fixedArray _ _ => true
  | _ => false

/-- A value of the type is one word of the head. -/
def FillsOneWord (t : AbiType) : Prop := t.isDynamic = false ∧ t.headWords = 1

instance (t : AbiType) : Decidable t.FillsOneWord := inferInstanceAs (Decidable (_ ∧ _))

theorem headWords_pos : ∀ t : AbiType, 1 ≤ t.headWords
  | elementary _ | bytes | string | array _ => le_rfl
  | fixedArray elem length => by
      rw [headWords]
      split
      · exact le_rfl
      · exact Nat.mul_pos length.pos elem.headWords_pos
  | tuple first rest => by
      rw [headWords]
      split
      · exact le_rfl
      · exact first.headWords_pos.trans (Nat.le_add_right _ _)

/-- Every type takes a word at least. -/
theorem length_le_totalHeadWords (ts : List AbiType) : ts.length ≤ totalHeadWords ts := by
  induction ts with
  | nil => exact Nat.zero_le _
  | cons t ts ih =>
      have hpos := t.headWords_pos
      rw [List.length_cons, totalHeadWords]
      omega

theorem headWords_eq_one_of_totalHeadWords {ts : List AbiType}
    (h : totalHeadWords ts = ts.length) : ∀ t ∈ ts, t.headWords = 1 := by
  induction ts with
  | nil => exact fun t ht => absurd ht List.not_mem_nil
  | cons t ts ih =>
      have hpos := t.headWords_pos
      have hrest := length_le_totalHeadWords ts
      rw [List.length_cons, totalHeadWords] at h
      intro u hu
      rcases List.mem_cons.mp hu with rfl | hu
      · omega
      · exact ih (by omega) u hu

end AbiType

/-! ## §3  Names -/

namespace ElementaryType

/-- Names of elementary types are made of letters and digits. -/
theorem isAlphanum_of_mem_name {e : ElementaryType} {c : Char} (h : c ∈ e.name.toList) :
    c.isAlphanum = true := by
  have hdigit : ∀ {n : Nat}, c ∈ (Nat.repr n).toList → c.isAlphanum = true := by
    intro n hn
    rw [toList_repr] at hn
    rw [Char.isAlphanum, isDigit_of_mem_printNat hn, Bool.or_true]
  have hword : ∀ {word : String}, (word.toList.all Char.isAlphanum) = true → c ∈ word.toList →
      c.isAlphanum = true := fun hall hc => List.all_eq_true.mp hall c hc
  cases e <;> simp only [name, String.toList_append, List.mem_append] at h
  case uint k | int k | fixedBytes k =>
    rcases h with h | h
    · exact hword (by decide) h
    · exact hdigit h
  case ufixed k d | fixed k d =>
    rcases h with ((h | h) | h) | h
    · exact hword (by decide) h
    · exact hdigit h
    · exact hword (by decide) h
    · exact hdigit h
  case address | bool | function => exact hword (by decide) h

end ElementaryType

namespace AbiType

theorem jsonName_eq : ∀ t : AbiType, t.jsonName = t.base.jsonName ++ t.dimensions
  | array elem => by
      rw [jsonName, jsonName_eq elem, base, dimensions, String.append_assoc]
  | fixedArray elem length => by
      rw [jsonName, jsonName_eq elem, base, dimensions]
      simp only [String.append_assoc]
  | elementary _ | bytes | string | tuple _ _ => String.append_empty.symm

/-- What holds of all types but arrays holds of the type of the innermost elements. -/
theorem base_cases {P : AbiType → Prop} (elementary : ∀ e, P (.elementary e)) (bytes : P .bytes)
    (string : P .string) (tuple : ∀ first rest, P (.tuple first rest)) : ∀ t : AbiType, P t.base
  | .array elem => base_cases elementary bytes string tuple elem
  | .fixedArray elem _ => base_cases elementary bytes string tuple elem
  | .elementary e => elementary e
  | .bytes => bytes
  | .string => string
  | .tuple first rest => tuple first rest

/-- The name of an array ends in a bracket. -/
theorem exists_jsonName_array {t : AbiType} (h : t.isArray = true) :
    ∃ front, t.jsonName.toList = front ++ [']'] := by
  cases t with
  | array elem => exact ⟨elem.jsonName.toList ++ ['['], by simp [jsonName]⟩
  | fixedArray elem length =>
      exact ⟨elem.jsonName.toList ++ '[' :: (Nat.repr length).toList, by simp [jsonName]⟩
  | elementary e => cases h
  | bytes => cases h
  | string => cases h
  | tuple first rest => cases h

theorem mem_jsonName {c : Char} : ∀ {t : AbiType}, c ∈ t.jsonName.toList →
    c.isAlphanum = true ∨ c = '[' ∨ c = ']'
  | elementary e, h => .inl (ElementaryType.isAlphanum_of_mem_name h)
  | bytes, h => by
      rw [jsonName] at h
      exact .inl (List.all_eq_true.mp (by decide) c h)
  | string, h => by
      rw [jsonName] at h
      exact .inl (List.all_eq_true.mp (by decide) c h)
  | tuple first rest, h => by
      rw [jsonName] at h
      exact .inl (List.all_eq_true.mp (by decide) c h)
  | array elem, h => by
      rw [jsonName, String.toList_append, List.mem_append] at h
      rcases h with h | h
      · exact mem_jsonName h
      · right
        simpa using h
  | fixedArray elem length, h => by
      simp only [jsonName, String.toList_append, List.mem_append] at h
      rcases h with ((h | h) | h) | h
      · exact mem_jsonName h
      · exact .inr (.inl (by simpa using h))
      · rw [toList_repr] at h
        left
        rw [Char.isAlphanum, isDigit_of_mem_printNat h, Bool.or_true]
      · exact .inr (.inr (by simpa using h))

/-- Only arrays of integers have names that begin like those of integers. -/
theorem isPrefixOf_jsonName_integer (t : AbiType) :
    ("uint".toList.isPrefixOf t.jsonName.toList || "int".toList.isPrefixOf t.jsonName.toList) =
      t.isIntegerBased := by
  rw [jsonName_eq, isIntegerBased, String.toList_append]
  refine t.base_cases
    (P := fun b => ("uint".toList.isPrefixOf (b.jsonName.toList ++ t.dimensions.toList) ||
        "int".toList.isPrefixOf (b.jsonName.toList ++ t.dimensions.toList)) =
      match b with
      | elementary e => e.isInteger
      | _ => false)
    (fun e => ?_) rfl rfl fun first rest => ?_
  · cases e <;> simp only [jsonName, ElementaryType.name, String.toList_append] <;> rfl
  · rw [jsonName]
    rfl

theorem isPrefixOf_jsonName_uint (t : AbiType) :
    "uint".toList.isPrefixOf t.jsonName.toList = t.isUintBased := by
  rw [jsonName_eq, isUintBased, String.toList_append]
  refine t.base_cases
    (P := fun b => "uint".toList.isPrefixOf (b.jsonName.toList ++ t.dimensions.toList) =
      match b with
      | elementary (.uint _) => true
      | _ => false)
    (fun e => ?_) rfl rfl fun first rest => ?_
  · cases e <;> simp only [jsonName, ElementaryType.name, String.toList_append] <;> rfl
  · rw [jsonName]
    rfl

theorem canonicalName_eq_jsonName : ∀ {t : AbiType}, t.base.isTuple = false →
    t.canonicalName = t.jsonName
  | elementary _, _ => by rw [canonicalName, jsonName]
  | bytes, _ => by rw [canonicalName, jsonName]
  | string, _ => by rw [canonicalName, jsonName]
  | array elem, h => by
      rw [canonicalName, jsonName, canonicalName_eq_jsonName (t := elem) h]
  | fixedArray elem length, h => by
      rw [canonicalName, jsonName, canonicalName_eq_jsonName (t := elem) h]
  | tuple first rest, h => by cases h

theorem paren_mem_canonicalName : ∀ {t : AbiType}, t.base.isTuple = true →
    '(' ∈ t.canonicalName.toList
  | elementary _, h => by cases h
  | bytes, h => by cases h
  | string, h => by cases h
  | array elem, h => by
      rw [canonicalName, String.toList_append]
      exact List.mem_append_left _ (paren_mem_canonicalName (t := elem) h)
  | fixedArray elem length, h => by
      simp only [canonicalName, String.toList_append, List.append_assoc]
      exact List.mem_append_left _ (paren_mem_canonicalName (t := elem) h)
  | tuple first rest, _ => by
      simp only [canonicalName, String.toList_append, List.append_assoc]
      exact List.mem_append_left _ List.mem_cons_self

end AbiType

end EvmRecorder
