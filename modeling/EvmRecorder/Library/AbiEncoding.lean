import EvmRecorder.Library.AbiTypes

/-!
# ABI encodings

Values of the ABI types and their encoding. A sequence of values is encoded as its head
followed by its tail: static values stand in the head, and for each dynamic value the
head has the word of the offset at which the tail holds it.
-/

namespace EvmRecorder

open Bytes

/-! ## §1  Values -/

inductive AbiValue where
  | word (w : U256)
  | bytes (bs : List UInt8)
  | list (vs : List AbiValue)

/-- The words that encode values of the type; signed ones are two's complements, and byte
strings are aligned to the left. -/
def ElementaryType.Holds : ElementaryType → U256 → Prop
  | uint k, w | ufixed k _, w => w.toNat < 2 ^ (8 * (k.val + 1))
  | int k, w | fixed k _, w =>
      -2 ^ (8 * (k.val + 1) - 1) ≤ w.toInt ∧ w.toInt < 2 ^ (8 * (k.val + 1) - 1)
  | address, w => w.toNat < 2 ^ 160
  | bool, w => w.toNat ≤ 1
  | fixedBytes k, w => 2 ^ (8 * (31 - k.val)) ∣ w.toNat
  | function, w => 2 ^ 64 ∣ w.toNat

instance (e : ElementaryType) (w : U256) : Decidable (e.Holds w) :=
  match e with
  | .uint k | .ufixed k _ => inferInstanceAs (Decidable (w.toNat < 2 ^ (8 * (k.val + 1))))
  | .int k | .fixed k _ => inferInstanceAs (Decidable
      (-2 ^ (8 * (k.val + 1) - 1) ≤ w.toInt ∧ w.toInt < 2 ^ (8 * (k.val + 1) - 1)))
  | .address => inferInstanceAs (Decidable (w.toNat < 2 ^ 160))
  | .bool => inferInstanceAs (Decidable (w.toNat ≤ 1))
  | .fixedBytes k => inferInstanceAs (Decidable (2 ^ (8 * (31 - k.val)) ∣ w.toNat))
  | .function => inferInstanceAs (Decidable (2 ^ 64 ∣ w.toNat))

inductive AbiValue.HasType : AbiValue → AbiType → Prop where
  | elementary {e : ElementaryType} {w : U256} (h : e.Holds w) : HasType (.word w) (.elementary e)
  | bytes {bs : List UInt8} (h : bs.length < 2 ^ 256) : HasType (.bytes bs) .bytes
  | string {s : String} (h : (utf8 s).length < 2 ^ 256) : HasType (.bytes (utf8 s)) .string
  | array {vs : List AbiValue} {t : AbiType} (hlength : vs.length < 2 ^ 256)
      (h : ∀ v ∈ vs, HasType v t) : HasType (.list vs) (.array t)
  | fixedArray {vs : List AbiValue} {t : AbiType} {n : ℕ+} (hlength : vs.length = n)
      (h : ∀ v ∈ vs, HasType v t) : HasType (.list vs) (.fixedArray t n)
  | tuple {v : AbiValue} {vs : List AbiValue} {t : AbiType} {ts : List AbiType} (h : HasType v t)
      (hrest : List.Forall₂ HasType vs ts) : HasType (.list (v :: vs)) (.tuple t ts)

/-! ## §2  Heads and tails -/

/-- One component of a sequence: its encoding, which dynamic types have in the tail. -/
structure AbiPart where
  isDynamic : Bool
  body : List UInt8

namespace AbiPart

def headSize (p : AbiPart) : Nat := if p.isDynamic then 32 else p.body.length

def headSizes (ps : List AbiPart) : Nat := (ps.map headSize).sum

/-- `offset` is where the next dynamic component is put. -/
def heads : Nat → List AbiPart → List UInt8
  | _, [] => []
  | offset, p :: ps =>
      if p.isDynamic then wordBytes (BitVec.ofNat 256 offset) ++ heads (offset + p.body.length) ps
      else p.body ++ heads offset ps

def tails (ps : List AbiPart) : List UInt8 := ps.flatMap fun p => if p.isDynamic then p.body else []

def encode (ps : List AbiPart) : List UInt8 := heads (headSizes ps) ps ++ tails ps

end AbiPart

/-- Padded with zeros to a multiple of 32 bytes. -/
def padRight (bs : List UInt8) : List UInt8 :=
  bs ++ List.replicate ((32 - bs.length % 32) % 32) 0

mutual
/-- The encoding of a value, given its type. -/
def AbiValue.encode : AbiType → AbiValue → List UInt8
  | .elementary _, .word w => wordBytes w
  | .bytes, .bytes bs => wordBytes (BitVec.ofNat 256 bs.length) ++ padRight bs
  | .string, .bytes bs => wordBytes (BitVec.ofNat 256 bs.length) ++ padRight bs
  | .array t, .list vs =>
      wordBytes (BitVec.ofNat 256 vs.length) ++
        AbiPart.encode (vs.map fun v => ⟨t.isDynamic, AbiValue.encode t v⟩)
  | .fixedArray t _, .list vs => AbiPart.encode (vs.map fun v => ⟨t.isDynamic, AbiValue.encode t v⟩)
  | .tuple t ts, .list (v :: vs) =>
      AbiPart.encode (⟨t.isDynamic, AbiValue.encode t v⟩ :: AbiValue.parts ts vs)
  | _, _ => []

/-- The components of a sequence of values. -/
def AbiValue.parts : List AbiType → List AbiValue → List AbiPart
  | t :: ts, v :: vs => ⟨t.isDynamic, AbiValue.encode t v⟩ :: AbiValue.parts ts vs
  | _, _ => []
end

@[simp] theorem AbiValue.parts_nil (vs : List AbiValue) : AbiValue.parts [] vs = [] := by
  cases vs <;> rfl

@[simp] theorem AbiValue.parts_cons (t : AbiType) (ts : List AbiType) (v : AbiValue)
    (vs : List AbiValue) :
    AbiValue.parts (t :: ts) (v :: vs) =
      ⟨t.isDynamic, v.encode t⟩ :: AbiValue.parts ts vs := rfl

theorem AbiValue.parts_append : ∀ {ts : List AbiType} {vs : List AbiValue},
    vs.length = ts.length → ∀ (ts' : List AbiType) (vs' : List AbiValue),
      AbiValue.parts (ts ++ ts') (vs ++ vs') = AbiValue.parts ts vs ++ AbiValue.parts ts' vs'
  | [], [], _, ts', vs' => rfl
  | t :: ts, v :: vs, h, ts', vs' => by
      rw [List.cons_append, List.cons_append, AbiValue.parts_cons, AbiValue.parts_cons,
        AbiValue.parts_append (Nat.succ.inj h) ts' vs']
      rfl

/-- `abi.encode` of arguments. -/
def abiEncode (types : List AbiType) (values : List AbiValue) : List UInt8 :=
  AbiPart.encode (AbiValue.parts types values)

/-- The bytes encode some values of these types. -/
def IsAbiEncoding (types : List AbiType) (bytes : List UInt8) : Prop :=
  ∃ values, List.Forall₂ AbiValue.HasType values types ∧ abiEncode types values = bytes

/-! ## §3  Where the components are -/

namespace AbiPart

@[simp] theorem headSizes_cons (p : AbiPart) (ps : List AbiPart) :
    headSizes (p :: ps) = p.headSize + headSizes ps := List.sum_cons

theorem headSizes_append (ps qs : List AbiPart) :
    headSizes (ps ++ qs) = headSizes ps + headSizes qs := by
  rw [headSizes, List.map_append, List.sum_append]
  rfl

theorem length_heads (offset : Nat) (ps : List AbiPart) :
    (heads offset ps).length = headSizes ps := by
  induction ps generalizing offset with
  | nil => rfl
  | cons p ps ih =>
      rw [heads, headSizes_cons, headSize]
      split
      · rw [List.length_append, length_wordBytes, ih]
      · rw [List.length_append, ih]

theorem heads_append (offset : Nat) (ps qs : List AbiPart) :
    heads offset (ps ++ qs) = heads offset ps ++ heads (offset + (tails ps).length) qs := by
  induction ps generalizing offset with
  | nil => rfl
  | cons p ps ih =>
      rw [List.cons_append, heads, heads, tails, List.flatMap_cons, List.length_append]
      split
      · rw [ih, List.append_assoc, ← Nat.add_assoc]
        rfl
      · rw [ih, List.append_assoc, List.length_nil, Nat.zero_add]
        rfl

theorem tails_append (ps qs : List AbiPart) : tails (ps ++ qs) = tails ps ++ tails qs :=
  List.flatMap_append

/-- A static component stands in the head, behind those before it; what is around it does not
depend on its bytes. -/
theorem encode_static (ps qs : List AbiPart) (size : Nat) :
    ∃ before after, before.length = headSizes ps ∧
      ∀ body : List UInt8, body.length = size →
        encode (ps ++ ⟨false, body⟩ :: qs) = before ++ (body ++ after) := by
  refine ⟨heads (headSizes ps + (size + headSizes qs)) ps,
    heads (headSizes ps + (size + headSizes qs) + (tails ps).length) qs ++ tails (ps ++ qs),
    length_heads _ _, ?_⟩
  intro body hbody
  have hsizes : headSizes (ps ++ ⟨false, body⟩ :: qs) = headSizes ps + (size + headSizes qs) := by
    rw [headSizes_append, headSizes_cons, ← hbody]
    rfl
  have htails : tails (ps ++ ⟨false, body⟩ :: qs) = tails (ps ++ qs) := by
    rw [tails_append, tails_append]
    rfl
  rw [encode, hsizes, htails, heads_append, heads, if_neg Bool.false_ne_true]
  simp only [List.append_assoc]

theorem length_encode (ps : List AbiPart) :
    (encode ps).length = headSizes ps + (tails ps).length := by
  rw [encode, List.length_append, length_heads]

/-- Without a dynamic component there is no tail. -/
theorem tails_eq_nil {ps : List AbiPart} (h : ∀ p ∈ ps, p.isDynamic = false) : tails ps = [] := by
  rw [tails, List.flatMap_eq_nil_iff]
  intro p hp
  rw [h p hp]
  rfl

/-- Static components are put side by side. -/
theorem encode_of_static {ps : List AbiPart} (h : ∀ p ∈ ps, p.isDynamic = false) :
    encode ps = ps.flatMap body := by
  have hheads : ∀ (offset : Nat) (ps : List AbiPart), (∀ p ∈ ps, p.isDynamic = false) →
      heads offset ps = ps.flatMap body := by
    intro offset ps h
    induction ps with
    | nil => rfl
    | cons p ps ih =>
        rw [heads, h p List.mem_cons_self, ih fun q hq => h q (List.mem_cons_of_mem p hq)]
        rfl
  rw [encode, tails_eq_nil h, hheads _ ps h, List.append_nil]

end AbiPart

/-! ## §4  Sizes of heads -/

theorem AbiType.headWords_of_isDynamic {t : AbiType} (h : t.isDynamic = true) : t.headWords = 1 := by
  cases t with
  | fixedArray elem length => exact if_pos h
  | tuple components => exact if_pos h
  | elementary e => rfl
  | bytes => rfl
  | string => rfl
  | array elem => rfl

theorem AbiPart.headSizes_map_static {vs : List AbiValue} {size : Nat} {encoded : AbiValue → List UInt8}
    (h : ∀ v ∈ vs, (encoded v).length = size) :
    AbiPart.headSizes (vs.map fun v => ⟨false, encoded v⟩) = vs.length * size := by
  induction vs with
  | nil => simp [AbiPart.headSizes]
  | cons v vs ih =>
      rw [List.map_cons, AbiPart.headSizes_cons, ih fun w hw => h w (List.mem_cons_of_mem v hw),
        List.length_cons, Nat.succ_mul, Nat.add_comm]
      exact congrArg (_ + ·) (h v List.mem_cons_self)

namespace AbiValue

theorem tails_parts : ∀ (ts : List AbiType) (vs : List AbiValue),
    AbiType.anyDynamic ts = false → AbiPart.tails (parts ts vs) = []
  | [], vs, _ => by rw [parts_nil]; rfl
  | _ :: _, [], _ => rfl
  | t :: ts, v :: vs, hstatic => by
      rw [AbiType.anyDynamic, Bool.or_eq_false_iff] at hstatic
      rw [parts_cons, hstatic.1, AbiPart.tails, List.flatMap_cons]
      exact tails_parts ts vs hstatic.2

mutual
/-- A static value takes the words its type has in a head. -/
theorem length_encode_of_static : ∀ {t : AbiType} {v : AbiValue}, v.HasType t →
    t.isDynamic = false → (v.encode t).length = 32 * t.headWords
  | .elementary e, .word w, _, _ => by
      rw [AbiValue.encode, length_wordBytes, AbiType.headWords]
  | .fixedArray t n, .list vs, .fixedArray hlength hvs, hstatic => by
      rw [AbiType.isDynamic] at hstatic
      have helem : ∀ v ∈ vs, (v.encode t).length = 32 * t.headWords := fun v hv =>
        length_encode_of_static (hvs v hv) hstatic
      have hnone : AbiPart.tails (vs.map fun v => ⟨false, v.encode t⟩) = [] := by
        apply AbiPart.tails_eq_nil
        intro p hp
        obtain ⟨v, -, rfl⟩ := List.mem_map.mp hp
        rfl
      rw [AbiValue.encode, hstatic, AbiPart.length_encode, hnone,
        AbiPart.headSizes_map_static helem, hlength, AbiType.headWords, hstatic]
      simp only [Bool.false_eq_true, if_false, List.length_nil, Nat.add_zero]
      exact Nat.mul_left_comm _ _ _
  | .tuple t ts, .list (v :: vs), .tuple hv hvs, hstatic => by
      rw [AbiType.isDynamic] at hstatic
      obtain ⟨hfirst, hrest⟩ := Bool.or_eq_false_iff.mp hstatic
      have hnone := tails_parts (t :: ts) (v :: vs) hstatic
      rw [parts_cons] at hnone
      rw [AbiValue.encode, AbiPart.length_encode, hnone, AbiPart.headSizes_cons,
        headSizes_parts hvs, hfirst, AbiType.headWords, hstatic]
      simp only [AbiPart.headSize, Bool.false_eq_true, if_false, List.length_nil, Nat.add_zero]
      rw [length_encode_of_static hv hfirst]
      omega

/-- The head of a sequence of values has the words of its types. -/
theorem headSizes_parts : ∀ {ts : List AbiType} {vs : List AbiValue}, List.Forall₂ HasType vs ts →
    AbiPart.headSizes (parts ts vs) = 32 * AbiType.totalHeadWords ts
  | [], [], _ => rfl
  | t :: ts, v :: vs, .cons hv hvs => by
      have hhead : AbiPart.headSize ⟨t.isDynamic, v.encode t⟩ = 32 * t.headWords := by
        cases hdyn : t.isDynamic with
        | true => rw [AbiType.headWords_of_isDynamic hdyn]; rfl
        | false => exact length_encode_of_static hv hdyn
      rw [parts_cons, AbiPart.headSizes_cons, hhead, headSizes_parts hvs, AbiType.totalHeadWords]
      omega
end

end AbiValue

/-! ## §5  Every type has values -/

mutual
/-- Zero, the empty byte string, the empty array. -/
def AbiType.defaultValue : AbiType → AbiValue
  | .elementary _ => .word 0
  | .bytes | .string => .bytes []
  | .array _ => .list []
  | .fixedArray t n => .list (List.replicate n t.defaultValue)
  | .tuple t ts => .list (t.defaultValue :: AbiType.defaultValues ts)

def AbiType.defaultValues : List AbiType → List AbiValue
  | [] => []
  | t :: ts => t.defaultValue :: AbiType.defaultValues ts
end

theorem ElementaryType.holds_zero (e : ElementaryType) : e.Holds 0 := by
  have hint : ∀ k, (int k).Holds 0 := by decide +kernel
  cases e with
  | uint k | ufixed k d => exact Nat.two_pow_pos _
  | int k | fixed k d => exact hint k
  | address | bool => decide +kernel
  | fixedBytes k | function => exact dvd_zero _

mutual
theorem AbiType.hasType_defaultValue : ∀ t : AbiType, t.defaultValue.HasType t
  | .elementary e => .elementary e.holds_zero
  | .bytes => .bytes (Nat.two_pow_pos 256)
  | .string => .string (s := "") (Nat.two_pow_pos 256)
  | .array t => .array (Nat.two_pow_pos 256) fun v hv => absurd hv List.not_mem_nil
  | .fixedArray t n => by
      refine .fixedArray List.length_replicate fun v hv => ?_
      rw [List.eq_of_mem_replicate hv]
      exact t.hasType_defaultValue
  | .tuple t ts => .tuple t.hasType_defaultValue (AbiType.hasType_defaultValues ts)

theorem AbiType.hasType_defaultValues : ∀ ts : List AbiType,
    List.Forall₂ AbiValue.HasType (AbiType.defaultValues ts) ts
  | [] => .nil
  | t :: ts => .cons t.hasType_defaultValue (AbiType.hasType_defaultValues ts)
end

/-! ## §6  Encodings of one word a type -/

namespace AbiValue

theorem length_encode_of_dynamic {t : AbiType} {v : AbiValue} (h : v.HasType t)
    (hdyn : t.isDynamic = true) : 32 ≤ (v.encode t).length := by
  cases h with
  | elementary h => cases hdyn
  | bytes h =>
      rw [AbiValue.encode, List.length_append, length_wordBytes]
      exact Nat.le_add_right _ _
  | string h =>
      rw [AbiValue.encode, List.length_append, length_wordBytes]
      exact Nat.le_add_right _ _
  | array hlength h =>
      rw [AbiValue.encode, List.length_append, length_wordBytes]
      exact Nat.le_add_right _ _
  | @fixedArray vs t n hlength h =>
      rw [AbiType.isDynamic] at hdyn
      obtain ⟨v, vs, rfl⟩ : ∃ v vs', vs = v :: vs' :=
        List.exists_cons_of_length_pos (hlength ▸ n.pos)
      rw [AbiValue.encode, AbiPart.length_encode, List.map_cons, AbiPart.headSizes_cons, hdyn,
        AbiPart.headSize, if_pos rfl]
      omega
  | @tuple v vs t ts h hrest =>
      have hsizes := headSizes_parts (.cons h hrest)
      have hpos := t.headWords_pos
      rw [parts_cons, AbiType.totalHeadWords] at hsizes
      rw [AbiValue.encode, AbiPart.length_encode, hsizes]
      omega

/-- Only dynamic values have bytes in the tail. -/
theorem isDynamic_of_tails_eq_nil {types : List AbiType} {values : List AbiValue}
    (h : List.Forall₂ HasType values types) (htails : AbiPart.tails (parts types values) = []) :
    ∀ t ∈ types, t.isDynamic = false := by
  induction h with
  | nil => exact fun t ht => absurd ht List.not_mem_nil
  | @cons v t values types hv _ ih =>
      rw [parts_cons, AbiPart.tails, List.flatMap_cons, List.append_eq_nil_iff] at htails
      intro u hu
      rcases List.mem_cons.mp hu with rfl | hu
      · rw [← Bool.not_eq_true]
        intro hdyn
        have hlength := length_encode_of_dynamic hv hdyn
        rw [if_pos hdyn] at htails
        have hempty : v.encode u = [] := htails.1
        rw [hempty] at hlength
        cases hlength
      · exact ih htails.2 u hu

end AbiValue

/-- An encoding of one word a type is an encoding of types that fill one word each. -/
theorem fillsOneWord_of_length {types : List AbiType} {bytes : List UInt8}
    (h : IsAbiEncoding types bytes) (hlength : bytes.length = 32 * types.length) :
    ∀ t ∈ types, t.FillsOneWord := by
  obtain ⟨values, hvalues, rfl⟩ := h
  have hwords := AbiType.length_le_totalHeadWords types
  rw [abiEncode, AbiPart.length_encode, AbiValue.headSizes_parts hvalues] at hlength
  have htails : AbiPart.tails (AbiValue.parts types values) = [] :=
    List.eq_nil_of_length_eq_zero (by omega)
  have hone := @AbiType.headWords_eq_one_of_totalHeadWords types (by omega)
  exact fun t ht => ⟨AbiValue.isDynamic_of_tails_eq_nil hvalues htails t ht, hone t ht⟩

/-- The word encodes some value of the type. -/
def AbiType.EncodedBy (t : AbiType) (w : U256) : Prop :=
  ∃ v : AbiValue, v.HasType t ∧ v.encode t = wordBytes w

/-- A type of one word has the values of its innermost elements. -/
theorem AbiType.FillsOneWord.encodedBy {e : ElementaryType} {w : U256} (hw : e.Holds w) :
    ∀ {t : AbiType}, t.FillsOneWord → t.base = .elementary e → t.EncodedBy w
  | .elementary e', _, hbase => by
      obtain rfl := AbiType.elementary.inj hbase
      exact ⟨.word w, .elementary hw, rfl⟩
  | .fixedArray elem n, ⟨hstatic, hone⟩, hbase => by
      rw [AbiType.isDynamic] at hstatic
      rw [AbiType.headWords, hstatic, if_neg Bool.false_ne_true] at hone
      have hn : (n : Nat) = 1 := Nat.eq_one_of_mul_eq_one_right hone
      have helem : elem.headWords = 1 := Nat.eq_one_of_mul_eq_one_left hone
      obtain ⟨v, hv, hencode⟩ := AbiType.FillsOneWord.encodedBy hw ⟨hstatic, helem⟩ hbase
      refine ⟨.list [v], .fixedArray hn.symm ?_, ?_⟩
      · intro u hu
        rw [List.mem_singleton.mp hu]
        exact hv
      · rw [AbiValue.encode, hstatic, List.map_singleton, AbiPart.encode_of_static]
        · exact (List.append_nil _).trans hencode
        · intro p hp
          rw [List.mem_singleton.mp hp]
  | .array elem, ⟨hstatic, _⟩, _ => by cases hstatic
  | .bytes, _, hbase => by cases hbase
  | .string, _, hbase => by cases hbase
  | .tuple first rest, _, hbase => by cases hbase

/-- Words side by side encode values of static types. -/
theorem isAbiEncoding_flatMap {types : List AbiType} {words : List U256}
    (h : List.Forall₂ AbiType.EncodedBy types words) (hstatic : ∀ t ∈ types, t.isDynamic = false) :
    IsAbiEncoding types (words.flatMap wordBytes) := by
  have hparts : ∃ values, List.Forall₂ AbiValue.HasType values types ∧
      AbiValue.parts types values = words.map fun w => ⟨false, wordBytes w⟩ := by
    induction h with
    | nil => exact ⟨[], .nil, rfl⟩
    | @cons t w types words hw _ ih =>
        obtain ⟨v, hv, hencode⟩ := hw
        obtain ⟨values, hvalues, hparts⟩ := ih fun t ht => hstatic t (List.mem_cons_of_mem _ ht)
        refine ⟨v :: values, .cons hv hvalues, ?_⟩
        rw [AbiValue.parts_cons, hencode, hstatic t List.mem_cons_self, hparts]
        rfl
  obtain ⟨values, hvalues, hparts⟩ := hparts
  refine ⟨values, hvalues, ?_⟩
  rw [abiEncode, hparts, AbiPart.encode_of_static, List.flatMap_map]
  intro p hp
  obtain ⟨w, -, rfl⟩ := List.mem_map.mp hp
  rfl

end EvmRecorder
