import EvmRecorder.Library.JoinedTexts
import EvmRecorder.Model.SourceMap

/-!
# Source map compression

solc prints a source map as `s:l:f:j:m` entries joined by semicolons. The first
entry is written in full; later on a field equal to the previous entry's may be
left empty, and empty fields at the end of an entry may be dropped together
with their colons. `SourceMap::parse` undoes every such rendering.
-/

namespace EvmRecorder.SourceMap

open Numeral

/-! ## §1  Compressed renderings -/

def printJump : JumpType → List Char
  | .into => ['i']
  | .outOf => ['o']
  | .regular => ['-']

/-- The five fields of an entry, none left empty. -/
def fullFields (e : SourceMapEntry) : List (List Char) :=
  [printI32 e.offset, printI32 e.length, printI32 e.fileIndex, printJump e.jumpType,
    printI32 e.modifierDepth]

/-- `text` renders the field value `v` after an entry with value `prev`. -/
def RendersField {α : Type} (print : α → List Char) (prev v : α) (text : List Char) : Prop :=
  text = print v ∨ (v = prev ∧ text = [])

/-- `part` renders the entry `e` after `prev`: the five field texts, cut after
the first `n` when all later ones are empty. -/
def RendersEntry (prev e : SourceMapEntry) (part : List Char) : Prop :=
  ∃ o l f j m : List Char,
    RendersField printI32 prev.offset e.offset o ∧
    RendersField printI32 prev.length e.length l ∧
    RendersField printI32 prev.fileIndex e.fileIndex f ∧
    RendersField printJump prev.jumpType e.jumpType j ∧
    RendersField printI32 prev.modifierDepth e.modifierDepth m ∧
    ∃ n, (∀ text ∈ [o, l, f, j, m].drop n, text = []) ∧
      part = [':'].intercalate ([o, l, f, j, m].take n)

/-- The parts of the entries after `prev`, each rendered against the one before
it. -/
inductive RendersTail : SourceMapEntry → List SourceMapEntry → List (List Char) → Prop where
  | nil {prev : SourceMapEntry} : RendersTail prev [] []
  | cons {prev e : SourceMapEntry} {es : List SourceMapEntry} {part : List Char}
      {parts : List (List Char)} :
      RendersEntry prev e part → RendersTail e es parts →
      RendersTail prev (e :: es) (part :: parts)

/-- `raw` is a compressed rendering of the source map `first :: es`. -/
def Compressed (first : SourceMapEntry) (es : List SourceMapEntry) (raw : String) : Prop :=
  ∃ parts, RendersTail first es parts ∧
    raw.toList = [';'].intercalate ([':'].intercalate (fullFields first) :: parts)

/-! ## §2  Field texts contain no separator -/

theorem not_mem_printJump {c : Char} (j : JumpType) (hi : c ≠ 'i') (ho : c ≠ 'o')
    (hr : c ≠ '-') : c ∉ printJump j := by
  cases j <;> simpa [printJump]

theorem not_mem_of_rendersField {α : Type} {print : α → List Char} {prev v : α}
    {text : List Char} {c : Char} (hprint : ∀ v, c ∉ print v)
    (h : RendersField print prev v text) : c ∉ text := by
  rcases h with rfl | ⟨-, rfl⟩
  · exact hprint v
  · exact List.not_mem_nil

/-- No field text of an entry has a character that neither numbers nor jumps have. -/
theorem not_mem_fields {prev e : SourceMapEntry} {o l f j m : List Char} {c : Char}
    (hi32 : ∀ x, c ∉ printI32 x) (hjump : ∀ v, c ∉ printJump v)
    (ho : RendersField printI32 prev.offset e.offset o)
    (hl : RendersField printI32 prev.length e.length l)
    (hf : RendersField printI32 prev.fileIndex e.fileIndex f)
    (hj : RendersField printJump prev.jumpType e.jumpType j)
    (hm : RendersField printI32 prev.modifierDepth e.modifierDepth m) :
    ∀ t ∈ [o, l, f, j, m], c ∉ t := by
  intro t ht
  simp only [List.mem_cons, List.not_mem_nil, or_false] at ht
  rcases ht with rfl | rfl | rfl | rfl | rfl
  · exact not_mem_of_rendersField hi32 ho
  · exact not_mem_of_rendersField hi32 hl
  · exact not_mem_of_rendersField hi32 hf
  · exact not_mem_of_rendersField hjump hj
  · exact not_mem_of_rendersField hi32 hm

/-! ## §3  Splitting a part gives its field texts back

A dropped field and an empty one read the same, so the split is compared with
the five texts through `getD []`. -/

theorem getD_splitOn_part {texts : List (List Char)} {n : Nat} (k : Nat)
    (hcolon : ∀ t ∈ texts, ':' ∉ t) (htail : ∀ t ∈ texts.drop n, t = []) :
    (([':'].intercalate (texts.take n)).splitOn ':')[k]?.getD [] = texts[k]?.getD [] := by
  have hdropped : n ≤ k → texts[k]?.getD [] = [] := fun hnk => by
    have hk : texts[k]? = (texts.drop n)[k - n]? := by
      rw [List.getElem?_drop, Nat.add_sub_cancel' hnk]
    cases h : (texts.drop n)[k - n]? with
    | none => rw [hk, h]; rfl
    | some t => rw [hk, h]; exact htail t (List.mem_of_getElem? h)
  by_cases hempty : texts.take n = []
  · have hzero : texts[k]?.getD [] = [] := by
      rcases List.take_eq_nil_iff.mp hempty with rfl | rfl
      · exact hdropped (Nat.zero_le k)
      · rfl
    rw [hempty, hzero]
    cases k <;> simp
  · rw [List.splitOn_intercalate ':' (fun t ht => hcolon t (List.mem_of_mem_take ht)) hempty]
    by_cases hk : k < n
    · rw [List.getElem?_take_of_lt hk]
    · rw [List.getElem?_take_eq_none (Nat.not_lt.mp hk), hdropped (Nat.not_lt.mp hk)]
      rfl

/-! ## §4  One entry -/

theorem parseField_getD (field : Option (List Char)) (prev : Int32) :
    parseField field prev = parseField (some (field.getD [])) prev := by
  cases field <;> rfl

theorem parseField_of_renders {prev v : Int32} {text : List Char}
    (h : RendersField printI32 prev v text) : parseField (some text) prev = v := by
  rcases h with rfl | ⟨rfl, rfl⟩
  · have hne : (printI32 v).isEmpty = false := by simp [printI32_ne_nil]
    simp [parseField, hne]
  · rfl

theorem jumpField_getD (field : Option (List Char)) (prev : JumpType) :
    (field.bind fun s => if s.isEmpty then none else some (parseJump s)).getD prev =
      if (field.getD []).isEmpty then prev else parseJump (field.getD []) := by
  cases field with
  | none => rfl
  | some s => cases s <;> rfl

theorem jumpField_of_renders {prev v : JumpType} {text : List Char}
    (h : RendersField printJump prev v text) :
    (if text.isEmpty then prev else parseJump text) = v := by
  rcases h with rfl | ⟨rfl, rfl⟩
  · cases v <;> rfl
  · rfl

/-- A part that renders `e` after `prev` is read as `e`. -/
theorem parsePart_of_renders {prev e : SourceMapEntry} {part : List Char}
    (h : RendersEntry prev e part) : parsePart prev part = e := by
  obtain ⟨o, l, f, j, m, ho, hl, hf, hj, hm, n, htail, rfl⟩ := h
  have hcolon : ∀ t ∈ [o, l, f, j, m], ':' ∉ t :=
    not_mem_fields (fun x => not_mem_printI32 (by decide) (by decide))
      (fun v => not_mem_printJump v (by decide) (by decide) (by decide)) ho hl hf hj hm
  have hsplit := fun k => getD_splitOn_part k hcolon htail
  rw [parsePart, parseField_getD _ prev.offset, parseField_getD _ prev.length,
    parseField_getD _ prev.fileIndex, parseField_getD _ prev.modifierDepth, jumpField_getD,
    hsplit 0, hsplit 1, hsplit 2, hsplit 3, hsplit 4]
  simp only [List.getElem?_cons_zero, List.getElem?_cons_succ, Option.getD_some,
    parseField_of_renders ho, parseField_of_renders hl, parseField_of_renders hf,
    parseField_of_renders hm, jumpField_of_renders hj]

/-- The first entry is written in full, so it renders itself after any entry. -/
theorem rendersEntry_fullFields (prev e : SourceMapEntry) :
    RendersEntry prev e ([':'].intercalate (fullFields e)) :=
  ⟨_, _, _, _, _, .inl rfl, .inl rfl, .inl rfl, .inl rfl, .inl rfl, 5, by simp, rfl⟩

/-! ## §5  The whole map -/

theorem not_mem_part {prev e : SourceMapEntry} {part : List Char}
    (h : RendersEntry prev e part) : ';' ∉ part := by
  obtain ⟨o, l, f, j, m, ho, hl, hf, hj, hm, n, -, rfl⟩ := h
  have hsemicolon : ∀ t ∈ [o, l, f, j, m], ';' ∉ t :=
    not_mem_fields (fun x => not_mem_printI32 (by decide) (by decide))
      (fun v => not_mem_printJump v (by decide) (by decide) (by decide)) ho hl hf hj hm
  exact JoinedTexts.not_mem_intercalate (by decide) fun t ht => hsemicolon t (List.mem_of_mem_take ht)

theorem parseParts_of_renders {prev : SourceMapEntry} {es : List SourceMapEntry}
    {parts : List (List Char)} (h : RendersTail prev es parts) :
    parseParts prev parts = es := by
  induction h with
  | nil => rfl
  | cons hpart _ ih => rw [parseParts, parsePart_of_renders hpart, ih]

theorem not_mem_parts {prev : SourceMapEntry} {es : List SourceMapEntry}
    {parts : List (List Char)} (h : RendersTail prev es parts) :
    ∀ part ∈ parts, ';' ∉ part := by
  induction h with
  | nil => simp
  | cons hpart _ ih =>
      intro part hmem
      rcases List.mem_cons.mp hmem with rfl | hmem
      · exact not_mem_part hpart
      · exact ih part hmem

/-- **Parsing undoes compression.** Every compressed rendering of a non-empty
list of entries is parsed back to exactly that list. -/
theorem parse_of_compressed (first : SourceMapEntry) (es : List SourceMapEntry)
    (raw : String) (h : Compressed first es raw) : (parse raw).entries = first :: es := by
  obtain ⟨parts, htail, hraw⟩ := h
  have hfirst := rendersEntry_fullFields {} first
  have hsemi : ∀ part ∈ [':'].intercalate (fullFields first) :: parts, ';' ∉ part := by
    intro part hmem
    rcases List.mem_cons.mp hmem with rfl | hmem
    · exact not_mem_part hfirst
    · exact not_mem_parts htail part hmem
  rw [parse, hraw, List.splitOn_intercalate ';' hsemi (List.cons_ne_nil _ _)]
  show parseParts {} _ = _
  rw [parseParts, parsePart_of_renders hfirst, parseParts_of_renders htail]

/-- `0:100:0:-:0;;-7:5::i` : an empty entry, then inherited and dropped fields. -/
theorem parse_of_compressed_inherited :
    (parse "0:100:0:-:0;;-7:5::i").entries =
      [⟨0, 100, 0, .regular, 0⟩, ⟨0, 100, 0, .regular, 0⟩, ⟨-7, 5, 0, .into, 0⟩] := by
  refine parse_of_compressed ⟨0, 100, 0, .regular, 0⟩
    [⟨0, 100, 0, .regular, 0⟩, ⟨-7, 5, 0, .into, 0⟩] _
    ⟨[[], ['-', '7', ':', '5', ':', ':', 'i']], ?_, by decide⟩
  refine .cons ⟨[], [], [], [], [], ?_, ?_, ?_, ?_, ?_, 0, by simp, rfl⟩
    (.cons ⟨['-', '7'], ['5'], [], ['i'], [], ?_, ?_, ?_, ?_, ?_, 4, by simp, by decide⟩ .nil)
  all_goals first | exact .inl (by decide) | exact .inr ⟨rfl, rfl⟩

end EvmRecorder.SourceMap
