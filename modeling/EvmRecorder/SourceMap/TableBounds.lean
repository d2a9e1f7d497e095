import EvmRecorder.SourceMap.LineTable
import Mathlib.Data.List.DropRight

/-!
# Locations in the line table

`resolve_pc` accepts every offset up to the end of the text, whose line the table drops
when it is empty. Elsewhere a location is in the table, also where the offset is inside a
multi-byte character, which counts as the one behind it.
-/

namespace EvmRecorder

/-! ## §1  Around an offset -/

/-- The characters that start before byte `n`. -/
def charsBefore : Nat → List Char → List Char
  | 0, _ => []
  | _ + 1, [] => []
  | n + 1, c :: cs => c :: charsBefore (n + 1 - c.utf8Size) cs

/-- The other ones. -/
def charsFrom (n : Nat) (chars : List Char) : List Char :=
  chars.drop (charsBefore n chars).length

/-- The characters behind the last newline. -/
def lastLine (chars : List Char) : List Char := chars.rtakeWhile (· ≠ '\n')

def firstLine (chars : List Char) : List Char := chars.takeWhile (· ≠ '\n')

@[simp] theorem utf8Length_nil : utf8Length [] = 0 := rfl

theorem utf8Length_append (cs ds : List Char) :
    utf8Length (cs ++ ds) = utf8Length cs + utf8Length ds := by
  simp [utf8Length]

theorem utf8Length_le_of_infix {cs ds : List Char} (h : cs <:+: ds) :
    utf8Length cs ≤ utf8Length ds := by
  obtain ⟨before, after, rfl⟩ := h
  rw [utf8Length_append, utf8Length_append]
  omega

theorem utf8Length_eq_zero_iff {cs : List Char} : utf8Length cs = 0 ↔ cs = [] := by
  cases cs with
  | nil => simp
  | cons c cs =>
      have hpos : 0 < c.utf8Size := c.utf8Size_pos
      rw [utf8Length_cons]
      constructor
      · intro h
        omega
      · intro h
        contradiction

theorem charsFrom_nil (n : Nat) : charsFrom n [] = [] := List.drop_nil

theorem charsFrom_succ_cons (n : Nat) (c : Char) (cs : List Char) :
    charsFrom (n + 1) (c :: cs) = charsFrom (n + 1 - c.utf8Size) cs := rfl

theorem charsBefore_append_charsFrom : ∀ (cs : List Char) (n : Nat),
    charsBefore n cs ++ charsFrom n cs = cs
  | [], 0 => rfl
  | [], _ + 1 => rfl
  | _ :: _, 0 => rfl
  | c :: cs, n + 1 => by
      rw [charsBefore, charsFrom_succ_cons, List.cons_append, charsBefore_append_charsFrom cs]

theorem charsFrom_of_utf8Length_le : ∀ {cs : List Char} {n : Nat}, utf8Length cs ≤ n →
    charsFrom n cs = []
  | [], n, _ => charsFrom_nil n
  | c :: cs, 0, h => by
      have hpos : 0 < c.utf8Size := c.utf8Size_pos
      rw [utf8Length_cons] at h
      omega
  | c :: cs, n + 1, h => by
      rw [utf8Length_cons] at h
      rw [charsFrom_succ_cons]
      exact charsFrom_of_utf8Length_le (by omega)

/-- If no character is left then the last one starts before the offset. -/
theorem lt_of_charsFrom_eq_nil {c : Char} : ∀ {cs : List Char} {n : Nat},
    charsFrom n (cs ++ [c]) = [] → utf8Length cs < n
  | [], 0, h => by contradiction
  | _ :: _, 0, h => by contradiction
  | [], n + 1, _ => Nat.succ_pos n
  | d :: cs, n + 1, h => by
      rw [List.cons_append, charsFrom_succ_cons] at h
      have := lt_of_charsFrom_eq_nil h
      rw [utf8Length_cons]
      omega

theorem lastLine_eq_nil_iff {cs : List Char} :
    lastLine cs = [] ↔ ∀ c, cs.getLast? = some c → c = '\n' := by
  rcases List.eq_nil_or_concat cs with rfl | ⟨cs, c, rfl⟩
  · simp [lastLine]
  · rw [List.concat_eq_append, lastLine, List.rtakeWhile_concat]
    by_cases hc : c = '\n'
    · simp [hc]
    · simp [hc]

/-- The line so far, character by character. -/
theorem foldl_eq_lastLine (cs : List Char) :
    cs.foldl (fun line c => if c = '\n' then [] else line ++ [c]) [] = lastLine cs := by
  induction cs using List.reverseRecOn with
  | nil => rfl
  | append_singleton cs c ih =>
      rw [List.foldl_append, ih, lastLine, lastLine, List.rtakeWhile_concat]
      by_cases hc : c = '\n'
      · simp [hc]
      · simp [hc]

/-! ## §2  The table from an offset on -/

/-- What the character scanner reaches before byte `i + n` is where the table goes on
behind the lines counted. Induction over the characters, `cur` being the line so far. -/
theorem lineColLoop_drop : ∀ (cs : List Char) (n i line : Nat) (cur : List Char),
    utf8Length cur ≤ i →
    ∃ lines column, lineColLoop (i + n) cs i line (utf8Length cur) = (line + lines, column) ∧
      column = utf8Length ((charsBefore n cs).foldl
        (fun line c => if c = '\n' then [] else line ++ [c]) cur) ∧
      column ≤ i + utf8Length (charsBefore n cs) ∧
      (lineLengthsLoop (cs.flatMap String.utf8EncodeChar) i (i - utf8Length cur)).drop lines =
        lineLengthsLoop ((charsFrom n cs).flatMap String.utf8EncodeChar)
          (i + utf8Length (charsBefore n cs)) (i + utf8Length (charsBefore n cs) - column)
  | cs, 0, i, line, cur, hcur => by
      refine ⟨0, utf8Length cur, lineColLoop_of_le le_rfl cs line _, ?_, ?_, ?_⟩
      · cases cs <;> rfl
      · cases cs <;> exact hcur
      · cases cs <;> rfl
  | [], n + 1, i, line, cur, hcur => ⟨0, utf8Length cur, rfl, rfl, hcur, rfl⟩
  | c :: cs, n + 1, i, line, cur, hcur => by
      have hpos : 0 < c.utf8Size := c.utf8Size_pos
      have hnot : ¬ i + (n + 1) ≤ i := by omega
      rw [lineColLoop, if_neg hnot, charsBefore, charsFrom_succ_cons, utf8Length_cons,
        List.flatMap_cons, List.foldl_cons]
      -- past the offset the loop has stopped, whatever is left of the character
      have hstop : ∀ line col, lineColLoop (i + (n + 1)) cs (i + c.utf8Size) line col =
          lineColLoop (i + c.utf8Size + (n + 1 - c.utf8Size)) cs (i + c.utf8Size) line col := by
        intro line col
        rcases Nat.le_total c.utf8Size (n + 1) with hle | hle
        · congr 1
          omega
        · rw [lineColLoop_of_le (by omega), lineColLoop_of_le (by omega)]
      by_cases hc : c = '\n'
      · subst hc
        have hsize : Char.utf8Size '\n' = 1 := rfl
        obtain ⟨lines, column, hloop, hcolumn, hle, htable⟩ :=
          lineColLoop_drop cs (n + 1 - Char.utf8Size '\n') (i + 1) (line + 1) [] (Nat.zero_le _)
        rw [hsize] at hcolumn hle htable hloop hstop ⊢
        refine ⟨lines + 1, column, ?_, ?_, ?_, ?_⟩
        · rw [if_pos rfl, hstop, ← utf8Length_nil, hloop, Nat.add_right_comm, Nat.add_assoc]
        · rw [if_pos rfl]
          exact hcolumn
        · omega
        · rw [lineLengthsLoop_newline, List.drop_succ_cons, ← Nat.add_assoc]
          exact htable
      · have hcur' : utf8Length (cur ++ [c]) = utf8Length cur + c.utf8Size := by
          simp [utf8Length_append, utf8Length_cons]
        obtain ⟨lines, column, hloop, hcolumn, hle, htable⟩ :=
          lineColLoop_drop cs (n + 1 - c.utf8Size) (i + c.utf8Size) line (cur ++ [c]) (by omega)
        rw [hcur'] at hloop htable
        have hstart : i + c.utf8Size - (utf8Length cur + c.utf8Size) = i - utf8Length cur := by
          omega
        rw [hstart] at htable
        refine ⟨lines, column, ?_, ?_, ?_, ?_⟩
        · rw [if_neg hc, hstop, hloop]
        · rw [if_neg hc]
          exact hcolumn
        · omega
        · rw [lineLengthsLoop_char hc, ← Nat.add_assoc]
          exact htable

/-- The next entry of the table is the line that the column is in, if that has a byte or
a newline. -/
theorem lineLengthsLoop_head? : ∀ (cs : List Char) (i column : Nat), column ≤ i →
    (lineLengthsLoop (cs.flatMap String.utf8EncodeChar) i (i - column))[0]? =
      if cs = [] ∧ column = 0 then none
      else some ((column + utf8Length (firstLine cs)) % 2 ^ 32)
  | [], i, column, h => by
      rw [List.flatMap_nil, lineLengthsLoop]
      by_cases hcolumn : column = 0
      · simp [hcolumn]
      · have hlt : i - column < i := by omega
        have hlength : i - (i - column) = column := by omega
        rw [if_pos hlt, hlength, if_neg fun h => hcolumn h.2]
        rfl
  | c :: cs, i, column, h => by
      rw [List.flatMap_cons, if_neg fun h => List.cons_ne_nil c cs h.1]
      by_cases hc : c = '\n'
      · have hlength : i - (i - column) = column := by omega
        subst hc
        rw [lineLengthsLoop_newline, hlength]
        rfl
      · have hpos : 0 < c.utf8Size := c.utf8Size_pos
        have hstart : i - column = i + c.utf8Size - (column + c.utf8Size) := by omega
        have hline : firstLine (c :: cs) = c :: firstLine cs := by simp [firstLine, hc]
        rw [lineLengthsLoop_char hc, hstart, lineLengthsLoop_head? cs _ _ (by omega),
          if_neg (by omega), hline, utf8Length_cons, Nat.add_assoc]

/-! ## §3  Resolved locations -/

/-- The line is in the table, and the column is at most its length. -/
def InLineTable (lineLengths : List Nat) (line column : Nat) : Prop :=
  1 ≤ line ∧ line ≤ lineLengths.length ∧
    ∃ length, lineLengths[line - 1]? = some length ∧ column ≤ length

/-- The offset is not the end of a text whose last line is empty; and the part of its line
before it is no longer than the `u32` length of the whole line. -/
structure OnTableLine (source : String) (n : Nat) : Prop where
  notAtEmptyEnd : n = byteLen source → ∃ c, source.toList.getLast? = some c ∧ c ≠ '\n'
  lengthFits : utf8Length (lastLine (charsBefore n source.toList)) ≤
    (utf8Length (lastLine (charsBefore n source.toList)) +
      utf8Length (firstLine (charsFrom n source.toList))) % 2 ^ 32

/-- The column, and the table entry of the line. -/
theorem offsetToLineCol_spec (source : String) (n : Nat) :
    ∃ lines, offsetToLineCol source n =
        (lines + 1, utf8Length (lastLine (charsBefore n source.toList))) ∧
      (computeLineLengths source)[lines]? =
        if charsFrom n source.toList = [] ∧ lastLine (charsBefore n source.toList) = [] then none
        else some ((utf8Length (lastLine (charsBefore n source.toList)) +
          utf8Length (firstLine (charsFrom n source.toList))) % 2 ^ 32) := by
  obtain ⟨lines, column, hloop, hcolumn, hle, htable⟩ :=
    lineColLoop_drop source.toList n 0 1 [] le_rfl
  rw [foldl_eq_lastLine] at hcolumn
  rw [Nat.zero_add, utf8Length_nil] at hloop
  refine ⟨lines, ?_, ?_⟩
  · rw [offsetToLineCol, hloop, hcolumn, Nat.add_comm]
  · have hentry : (computeLineLengths source)[lines]? =
        ((computeLineLengths source).drop lines)[0]? := by
      rw [List.getElem?_drop, Nat.add_zero]
    have hdrop : (computeLineLengths source).drop lines = _ := htable
    rw [hentry, hdrop, lineLengthsLoop_head? _ _ _ hle, hcolumn]
    simp only [utf8Length_eq_zero_iff]

/-- Nothing is left and the line is empty only at the end of an empty last line. -/
theorem charsFrom_eq_nil_and_lastLine_iff {source : String} {n : Nat}
    (hn : n ≤ byteLen source) :
    (charsFrom n source.toList = [] ∧ lastLine (charsBefore n source.toList) = []) ↔
      ¬ (n = byteLen source → ∃ c, source.toList.getLast? = some c ∧ c ≠ '\n') := by
  have hlength : byteLen source = utf8Length source.toList := rfl
  have hsplit := charsBefore_append_charsFrom source.toList n
  have hlast : (∃ c, source.toList.getLast? = some c ∧ c ≠ '\n') ↔
      lastLine source.toList ≠ [] := by
    rw [ne_eq, lastLine_eq_nil_iff]
    push Not
    rfl
  rw [hlast, Classical.not_imp, not_not]
  constructor
  · rintro ⟨hfrom, hline⟩
    rw [hfrom, List.append_nil] at hsplit
    rw [hsplit] at hline
    refine ⟨?_, hline⟩
    rcases List.eq_nil_or_concat source.toList with hnil | ⟨cs, c, hconcat⟩
    · rw [hlength, hnil, utf8Length_nil] at hn ⊢
      exact Nat.le_zero.mp hn
    · rw [List.concat_eq_append] at hconcat
      rw [hconcat] at hfrom hline hlength
      have hlt := lt_of_charsFrom_eq_nil hfrom
      have hc : c = '\n' := lastLine_eq_nil_iff.mp hline c List.getLast?_concat
      have hsize : utf8Length (cs ++ [c]) = utf8Length cs + 1 := by
        rw [utf8Length_append, hc]
        rfl
      omega
  · rintro ⟨hend, hline⟩
    have hfrom : charsFrom n source.toList = [] := charsFrom_of_utf8Length_le (hend ▸ hlength.ge)
    rw [hfrom, List.append_nil] at hsplit
    exact ⟨hfrom, hsplit.symm ▸ hline⟩

theorem inLineTable_iff {source : String} {n : Nat} (hn : n ≤ byteLen source) :
    InLineTable (computeLineLengths source) (offsetToLineCol source n).1
        (offsetToLineCol source n).2 ↔ OnTableLine source n := by
  obtain ⟨lines, hlineCol, hentry⟩ := offsetToLineCol_spec source n
  rw [hlineCol]
  by_cases hempty : charsFrom n source.toList = [] ∧ lastLine (charsBefore n source.toList) = []
  · rw [if_pos hempty, List.getElem?_eq_none_iff] at hentry
    have hnot := (charsFrom_eq_nil_and_lastLine_iff hn).mp hempty
    constructor
    · rintro ⟨-, hle, -⟩
      exact absurd hle (by omega)
    · rintro ⟨hend, -⟩
      exact absurd hend hnot
  · rw [if_neg hempty] at hentry
    rw [charsFrom_eq_nil_and_lastLine_iff hn, not_not] at hempty
    have hlt : lines < (computeLineLengths source).length :=
      (List.getElem?_eq_some_iff.mp hentry).1
    constructor
    · rintro ⟨-, -, length, hlength, hle⟩
      rw [Nat.add_sub_cancel, hentry] at hlength
      obtain rfl := Option.some.inj hlength
      exact ⟨hempty, hle⟩
    · rintro ⟨-, hle⟩
      exact ⟨Nat.succ_pos lines, hlt, _, hentry, hle⟩

/-- In a text below 4 GiB every length fits. -/
theorem onTableLine_iff_of_lt {source : String} (h : byteLen source < 2 ^ 32) (n : Nat) :
    OnTableLine source n ↔
      (n = byteLen source → ∃ c, source.toList.getLast? = some c ∧ c ≠ '\n') := by
  constructor
  · exact fun hline => hline.notAtEmptyEnd
  · intro hend
    refine ⟨hend, ?_⟩
    have hlength : byteLen source = utf8Length (charsBefore n source.toList) +
        utf8Length (charsFrom n source.toList) := by
      rw [← utf8Length_append, charsBefore_append_charsFrom]
      rfl
    have hbefore : utf8Length (lastLine (charsBefore n source.toList)) ≤
        utf8Length (charsBefore n source.toList) :=
      utf8Length_le_of_infix (List.rtakeWhile_suffix _ _).isInfix
    have hfrom : utf8Length (firstLine (charsFrom n source.toList)) ≤
        utf8Length (charsFrom n source.toList) :=
      utf8Length_le_of_infix (List.takeWhile_prefix _).isInfix
    rw [Nat.mod_eq_of_lt (by omega)]
    exact Nat.le_add_right _ _

/-- A resolved location is in the line table of its text exactly when its offset is on a
line of the table. -/
theorem SourceMap.resolvePc_inLineTable_iff {sourceMap : SourceMap} {pc : Nat}
    {pcToIdx : List Nat} {sourceContents : List String} {loc : SourceLocation}
    {entry : SourceMapEntry} {source : String}
    (hloc : sourceMap.resolvePc pc pcToIdx sourceContents = some loc)
    (hentry : sourceMap.getEntryForPc pc pcToIdx = some entry)
    (hsource : sourceContents[asUsize loc.fileIndex]? = some source) :
    InLineTable (computeLineLengths source) loc.line loc.column ↔
      OnTableLine source (asUsize entry.offset) := by
  obtain ⟨entry', source', -, hentry', hsource', hn, rfl⟩ := SourceMap.resolvePc_spec hloc
  obtain rfl := Option.some.inj (hentry'.symm.trans hentry)
  obtain rfl := Option.some.inj (hsource'.symm.trans hsource)
  exact inLineTable_iff hn

/-- An instruction whose source range starts at `offset`. -/
def sampleSourceMap (offset : Int32) : SourceMap := ⟨[{ offset := offset }]⟩

/-- At the end of a text with a final newline the location is past the table. -/
theorem resolvePc_past_lineTable :
    (sampleSourceMap 14).resolvePc 0 [0] ["contract C {}\n"] = some ⟨0, 2, 0⟩ ∧
      computeLineLengths "contract C {}\n" = [13] ∧
      ¬ InLineTable (computeLineLengths "contract C {}\n") 2 0 := by
  have htable : computeLineLengths "contract C {}\n" = [13] := by rfl
  refine ⟨by rfl, htable, ?_⟩
  rw [htable]
  rintro ⟨-, hle, -⟩
  revert hle
  decide

/-- In the line of the contract it is in the table. -/
theorem resolvePc_inLineTable_contract :
    InLineTable (computeLineLengths "contract C {}\n") 1 9 := by
  have h : (sampleSourceMap 9).resolvePc 0 [0] ["contract C {}\n"] = some ⟨0, 1, 9⟩ := by rfl
  apply (SourceMap.resolvePc_inLineTable_iff h rfl rfl).mpr
  constructor
  · intro hend
    exact absurd hend (by decide)
  · decide

end EvmRecorder
