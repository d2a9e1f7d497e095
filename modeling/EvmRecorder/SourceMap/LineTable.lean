import EvmRecorder.Model.RecorderParts

/-!
# Line tables

`offset_to_line_col` walks over characters and adds up their UTF-8 widths,
`compute_line_lengths` walks over bytes and knows no characters. On character
boundaries they agree: the line table and the line and column give the offset
back, whatever the text, because no multi-byte character has a newline byte.
-/

namespace EvmRecorder

/-! ## §1  Newline bytes -/

/-- The byte `\n`. -/
def newline : UInt8 := 0x0a

/-- A byte with its high bit set is no newline. -/
theorem ne_newline_of_high {x m : UInt8} (hm : 0x80 ≤ m.toNat) : newline ≠ x ||| m := by
  intro h
  have hor : m.toNat ≤ (x ||| m).toNat := by
    rw [UInt8.toNat_or]
    exact Nat.right_le_or
  rw [← h] at hor
  exact absurd (hm.trans hor) (by decide)

/-- The newline byte occurs in the encoding of the newline character only. -/
theorem newline_mem_utf8EncodeChar {c : Char} (h : newline ∈ String.utf8EncodeChar c) :
    c = '\n' := by
  have hlead : ∀ m : UInt8, 0x80 ≤ m.toNat → ∀ x, newline ≠ x ||| m :=
    fun _ hm _ => ne_newline_of_high hm
  rcases Char.utf8Size_eq c with h1 | h2 | h3 | h4
  · rw [String.utf8EncodeChar_eq_singleton h1, List.mem_singleton] at h
    have hle : c.val ≤ 0x7f := Char.utf8Size_eq_one_iff.mp h1
    have hnat : c.val.toNat ≤ 127 := UInt32.le_iff_toNat_le.mp hle
    have hval : c.val.toNat = 10 := by
      have hbyte : newline.toNat = c.val.toNat % 256 := by
        rw [h]
        exact UInt32.toNat_toUInt8 _
      rw [Nat.mod_eq_of_lt (by omega)] at hbyte
      exact hbyte.symm
    exact Char.ext (UInt32.toNat_inj.mp hval)
  · rw [String.utf8EncodeChar_eq_cons_cons h2] at h
    simp [hlead 0xc0 (by decide), hlead 0x80 (by decide)] at h
  · rw [String.utf8EncodeChar_eq_cons_cons_cons h3] at h
    simp [hlead 0xe0 (by decide), hlead 0x80 (by decide)] at h
  · rw [String.utf8EncodeChar_eq_cons_cons_cons_cons h4] at h
    simp [hlead 0xf0 (by decide), hlead 0x80 (by decide)] at h

/-! ## §2  One character in each scanner -/

/-- Bytes without a newline only move the byte scanner on. -/
theorem lineLengthsLoop_append {bs rest : List UInt8} {lineStart : Nat}
    (h : newline ∉ bs) :
    ∀ i, lineLengthsLoop (bs ++ rest) i lineStart =
      lineLengthsLoop rest (i + bs.length) lineStart := by
  induction bs with
  | nil =>
      intro i
      rfl
  | cons b bs ih =>
      intro i
      have hb : b ≠ 0x0a := fun hb => h (hb ▸ List.mem_cons_self)
      have hbs : newline ∉ bs := fun hmem => h (List.mem_cons_of_mem b hmem)
      rw [List.cons_append, lineLengthsLoop, if_neg hb, ih hbs, List.length_cons]
      congr 1
      omega

theorem lineLengthsLoop_newline (rest : List UInt8) (i lineStart : Nat) :
    lineLengthsLoop (String.utf8EncodeChar '\n' ++ rest) i lineStart =
      ((i - lineStart) % 2 ^ 32) :: lineLengthsLoop rest (i + 1) (i + 1) := by
  rfl

theorem lineLengthsLoop_char {c : Char} (hc : c ≠ '\n') (rest : List UInt8) (i lineStart : Nat) :
    lineLengthsLoop (String.utf8EncodeChar c ++ rest) i lineStart =
      lineLengthsLoop rest (i + c.utf8Size) lineStart := by
  have hbytes : newline ∉ String.utf8EncodeChar c := fun h => hc (newline_mem_utf8EncodeChar h)
  rw [lineLengthsLoop_append hbytes, String.length_utf8EncodeChar]

/-! ## §3  Both scanners -/

/-- The bytes of a list of characters. -/
def utf8Length (chars : List Char) : Nat := (chars.flatMap String.utf8EncodeChar).length

theorem utf8Length_cons (c : Char) (cs : List Char) :
    utf8Length (c :: cs) = c.utf8Size + utf8Length cs := by
  simp [utf8Length]

/-- The offset `n` is that of a character of the text, or its end. -/
def OnCharBoundary (source : String) (n : Nat) : Prop :=
  ∃ before after, source.toList = before ++ after ∧ n = utf8Length before

/-- Bytes of the first `lines` lines, terminators included. -/
def lineOffset (lineLengths : List Nat) (lines : Nat) : Nat :=
  ((lineLengths.take lines).map (· + 1)).sum

/-- The byte offset that a line table gives to a 1-based line and column. -/
def byteOffsetOf (lineLengths : List Nat) (line column : Nat) : Nat :=
  lineOffset lineLengths (line - 1) + (column - 1)

@[simp] theorem lineOffset_zero (lineLengths : List Nat) : lineOffset lineLengths 0 = 0 := rfl

theorem lineOffset_cons_succ (x lines : Nat) (lineLengths : List Nat) :
    lineOffset (x :: lineLengths) (lines + 1) = x + 1 + lineOffset lineLengths lines := by
  simp [lineOffset]

/-- Once the offset is reached the character scanner stops. -/
theorem lineColLoop_of_le {byteOffset i : Nat} (h : byteOffset ≤ i) (cs : List Char)
    (line col : Nat) : lineColLoop byteOffset cs i line col = (line, col) := by
  cases cs with
  | nil => rfl
  | cons c cs => rw [lineColLoop, if_pos h]

/-- Both scanners inside a line that starts at `lineStart`: the lines between
here and byte `n` are entries of the table, and they and the column add up to the
distance. Induction over the characters before `n`. -/
theorem lineColLoop_lineLengthsLoop (after : List Char) {n : Nat} (hn : n < 2 ^ 32) :
    ∀ (before : List Char) (i lineStart line col : Nat), i = lineStart + col →
      n = i + utf8Length before →
      ∃ lines column,
        lineColLoop n (before ++ after) i line col = (line + lines, column) ∧
        lines ≤ (lineLengthsLoop ((before ++ after).flatMap String.utf8EncodeChar) i
          lineStart).length ∧
        n = lineStart + lineOffset (lineLengthsLoop
          ((before ++ after).flatMap String.utf8EncodeChar) i lineStart) lines + column
  | [], i, lineStart, line, col, hi, hbytes => by
      have hreached : n = i := hbytes
      refine ⟨0, col, ?_, Nat.zero_le _, ?_⟩
      · exact lineColLoop_of_le hreached.le after line col
      · rw [lineOffset_zero, Nat.add_zero, hreached, hi]
  | c :: before, i, lineStart, line, col, hi, hbytes => by
      rw [utf8Length_cons] at hbytes
      have hpos : 0 < c.utf8Size := c.utf8Size_pos
      have hnot : ¬ n ≤ i := by omega
      rw [List.cons_append, List.flatMap_cons, lineColLoop, if_neg hnot]
      by_cases hc : c = '\n'
      · -- a line ends here: its length is the column reached
        subst hc
        have hsize : Char.utf8Size '\n' = 1 := rfl
        have hlength : (i - lineStart) % 2 ^ 32 = col := by
          rw [hi, Nat.add_sub_cancel_left, Nat.mod_eq_of_lt]
          omega
        obtain ⟨lines, column, hloop, hlines, hoffset⟩ :=
          lineColLoop_lineLengthsLoop after hn before (i + 1) (i + 1) (line + 1) 0 rfl
            (by omega)
        refine ⟨lines + 1, column, ?_, ?_, ?_⟩
        · rw [if_pos rfl, hsize, hloop, Nat.add_right_comm, Nat.add_assoc]
        · rw [lineLengthsLoop_newline, List.length_cons]
          exact Nat.succ_le_succ hlines
        · rw [lineLengthsLoop_newline, lineOffset_cons_succ, hlength]
          omega
      · obtain ⟨lines, column, hloop, hlines, hoffset⟩ :=
          lineColLoop_lineLengthsLoop after hn before (i + c.utf8Size) lineStart line
            (col + c.utf8Size) (by omega) (by omega)
        refine ⟨lines, column, ?_, ?_, ?_⟩
        · rw [if_neg hc, hloop]
        · rw [lineLengthsLoop_char hc]
          exact hlines
        · rw [lineLengthsLoop_char hc]
          exact hoffset

/-- The line table undoes `offset_to_line_col`. -/
theorem lineOffset_offsetToLineCol {source : String} {n : Nat} (hn : n < 2 ^ 32)
    (h : OnCharBoundary source n) :
    1 ≤ (offsetToLineCol source n).1 ∧
      (offsetToLineCol source n).1 - 1 ≤ (computeLineLengths source).length ∧
      n = lineOffset (computeLineLengths source) ((offsetToLineCol source n).1 - 1) +
        (offsetToLineCol source n).2 := by
  obtain ⟨before, after, hsource, hbytes⟩ := h
  obtain ⟨lines, column, hloop, hlines, hoffset⟩ :=
    lineColLoop_lineLengthsLoop after hn before 0 0 1 0 rfl (by omega)
  have hlineCol : offsetToLineCol source n = (1 + lines, column) := by
    rw [offsetToLineCol, hsource]
    exact hloop
  have htable : computeLineLengths source =
      lineLengthsLoop ((before ++ after).flatMap String.utf8EncodeChar) 0 0 := by
    rw [computeLineLengths, utf8Bytes, hsource]
  rw [hlineCol, htable, Nat.add_sub_cancel_left]
  exact ⟨Nat.le_add_right 1 lines, hlines, by omega⟩

/-- Lines are counted from 1. -/
theorem le_lineColLoop (byteOffset : Nat) : ∀ (cs : List Char) (i line col : Nat),
    line ≤ (lineColLoop byteOffset cs i line col).1
  | [], _, line, _ => Nat.le_refl line
  | c :: cs, i, line, col => by
      rw [lineColLoop]
      split
      · exact Nat.le_refl line
      · split
        · exact (Nat.le_succ line).trans (le_lineColLoop byteOffset cs _ _ _)
        · exact le_lineColLoop byteOffset cs _ _ _

/-- What a resolved location says about its source-map entry. -/
theorem SourceMap.resolvePc_spec {sourceMap : SourceMap} {pc : Nat} {pcToIdx : List Nat}
    {sourceContents : List String} {loc : SourceLocation}
    (h : sourceMap.resolvePc pc pcToIdx sourceContents = some loc) :
    ∃ entry source, entry ∈ sourceMap.entries ∧
      sourceMap.getEntryForPc pc pcToIdx = some entry ∧
      sourceContents[asUsize entry.fileIndex]? = some source ∧
      asUsize entry.offset ≤ byteLen source ∧
      loc = ⟨entry.fileIndex, (offsetToLineCol source (asUsize entry.offset)).1,
        (offsetToLineCol source (asUsize entry.offset)).2⟩ := by
  unfold SourceMap.resolvePc at h
  obtain ⟨idx, hidx, h⟩ := Option.bind_eq_some_iff.mp h
  obtain ⟨entry, hentry, h⟩ := Option.bind_eq_some_iff.mp h
  split at h
  · cases h
  obtain ⟨source, hsource, h⟩ := Option.bind_eq_some_iff.mp h
  dsimp only at h
  split at h
  · cases h
  · next hle =>
      refine ⟨entry, source, List.mem_of_getElem? hentry, ?_, hsource, Nat.le_of_not_lt hle,
        (Option.some.inj h).symm⟩
      rw [SourceMap.getEntryForPc, hidx]
      exact hentry

theorem SourceMap.one_le_line_of_resolvePc {sourceMap : SourceMap} {pc : Nat}
    {pcToIdx : List Nat} {sourceContents : List String} {loc : SourceLocation}
    (h : sourceMap.resolvePc pc pcToIdx sourceContents = some loc) : 1 ≤ loc.line := by
  obtain ⟨entry, source, -, -, -, -, rfl⟩ := SourceMap.resolvePc_spec h
  exact le_lineColLoop _ _ 0 1 0

end EvmRecorder
