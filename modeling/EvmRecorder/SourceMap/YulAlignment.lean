import EvmRecorder.Model.YulCompile
import EvmRecorder.SourceMap.Disassembly

/-!
# Yul source maps and the bytecode

Two walks have to agree. One goes over the assembly and leaves out the labels, the
other over the bytecode and leaves out the immediate bytes of the PUSHes. With one
encoded instruction for each entry that is no label, both count the same.
-/

namespace EvmRecorder

/-! ## §1  Assembly -/

/-- The `jumpType` of an entry; only jumps into and out of functions have one. -/
def JumpType.DescribedBy (text : Option String) : JumpType → Prop
  | .into => text = some "[in]"
  | .outOf => text = some "[out]"
  | .regular => text ≠ some "[in]" ∧ text ≠ some "[out]"

instance (text : Option String) : (jump : JumpType) → Decidable (jump.DescribedBy text)
  | .into => inferInstanceAs (Decidable (_ = _))
  | .outOf => inferInstanceAs (Decidable (_ = _))
  | .regular => inferInstanceAs (Decidable (_ ∧ _))

theorem JumpType.DescribedBy.jumpTypeOf_eq {text : Option String} {jump : JumpType}
    (h : jump.DescribedBy text) : jumpTypeOf text = jump := by
  cases jump with
  | into => rw [show text = some "[in]" from h, jumpTypeOf]
  | outOf => rw [show text = some "[out]" from h, jumpTypeOf]
  | regular =>
      unfold jumpTypeOf
      split
      · exact absurd rfl h.1
      · exact absurd rfl h.2
      · rfl

/-- An entry of the assembly, with offsets that fit a source map. -/
structure AsmInstruction where
  name : String
  start : Nat
  stop : Nat
  jumpType : JumpType := .regular
  start_lt : start < 2 ^ 31
  stop_lt : stop < 2 ^ 31

/-- `value` is the JSON of the entry. -/
structure DescribesInstruction (value : Value) (inst : AsmInstruction) : Prop where
  name_eq : value.getStr "name" = some inst.name
  begin_eq : (value.get "begin").bind Value.asI64 = some (inst.start : Int)
  end_eq : (value.get "end").bind Value.asI64 = some (inst.stop : Int)
  jumpType_eq : inst.jumpType.DescribedBy (value.getStr "jumpType")

instance (value : Value) (inst : AsmInstruction) : Decidable (DescribesInstruction value inst) :=
  decidable_of_iff
    (value.getStr "name" = some inst.name ∧
      (value.get "begin").bind Value.asI64 = some (inst.start : Int) ∧
      (value.get "end").bind Value.asI64 = some (inst.stop : Int) ∧
      inst.jumpType.DescribedBy (value.getStr "jumpType"))
    ⟨fun h => ⟨h.1, h.2.1, h.2.2.1, h.2.2.2⟩,
      fun h => ⟨h.name_eq, h.begin_eq, h.end_eq, h.jumpType_eq⟩⟩

def AsmInstruction.isTag (inst : AsmInstruction) : Bool := inst.name = "tag"

/-- The entries that emit bytes. -/
def emitting (instructions : List AsmInstruction) : List AsmInstruction :=
  instructions.filter fun inst => !inst.isTag

/-- The source map entry of an instruction, in integers. -/
structure EntryOf (inst : AsmInstruction) (entry : SourceMapEntry) : Prop where
  offset_eq : entry.offset.toInt = inst.start
  length_eq : entry.length.toInt = max ((inst.stop : Int) - inst.start) 0
  jumpType_eq : entry.jumpType = inst.jumpType
  fileIndex_eq : entry.fileIndex = 0

theorem DescribesInstruction.entryOf {value : Value} {inst : AsmInstruction}
    (h : DescribesInstruction value inst) : EntryOf inst (synthesizeEntry value) := by
  have hstart := inst.start_lt
  have hstop := inst.stop_lt
  have hbegin : offsetField value "begin" = Int32.ofInt inst.start := by
    rw [offsetField, h.begin_eq]
    rfl
  have hend : offsetField value "end" = Int32.ofInt inst.stop := by
    rw [offsetField, h.end_eq]
    rfl
  have hlength : (offsetField value "end" - offsetField value "begin").toInt =
      (inst.stop : Int) - inst.start := by
    rw [hbegin, hend, ← Int32.ofInt_sub, Int32.toInt_ofInt_of_le (by omega) (by omega)]
  constructor
  · show (offsetField value "begin").toInt = inst.start
    rw [hbegin, Int32.toInt_ofInt_of_le (by omega) (by omega)]
  · show (if offsetField value "end" - offsetField value "begin" < 0 then 0
      else offsetField value "end" - offsetField value "begin").toInt = _
    split
    · next hneg =>
        rw [Int32.lt_iff_toInt_lt, hlength] at hneg
        have hzero : (0 : Int32).toInt = 0 := rfl
        omega
    · next hpos =>
        rw [Int32.lt_iff_toInt_lt, hlength] at hpos
        have hzero : (0 : Int32).toInt = 0 := rfl
        omega
  · exact h.jumpType_eq.jumpTypeOf_eq
  · rfl

/-- One entry for each instruction that emits bytes, in order. -/
theorem synthesizeEntries_spec {asm : List Value} {instructions : List AsmInstruction}
    (h : List.Forall₂ DescribesInstruction asm instructions) :
    ∃ entries, synthesizeEntries asm = .ok entries ∧
      List.Forall₂ EntryOf (emitting instructions) entries := by
  induction h with
  | nil => exact ⟨[], rfl, .nil⟩
  | @cons value inst asm instructions hinst _ ih =>
      obtain ⟨entries, hentries, hall⟩ := ih
      by_cases htag : inst.name = "tag"
      · refine ⟨entries, ?_, ?_⟩
        · rw [synthesizeEntries, hinst.name_eq]
          dsimp only
          rw [if_pos htag, hentries]
        · rwa [emitting, List.filter_cons_of_neg (by simp [AsmInstruction.isTag, htag])]
      · refine ⟨synthesizeEntry value :: entries, ?_, ?_⟩
        · rw [synthesizeEntries, hinst.name_eq]
          dsimp only
          rw [if_neg htag, hentries]
          rfl
        · rw [emitting, List.filter_cons_of_pos (by simp [AsmInstruction.isTag, htag])]
          exact .cons hinst.entryOf hall

/-! ## §2  Encoded instructions -/

/-- An opcode with its immediate bytes. -/
def IsEncoding (bytes : List UInt8) : Prop :=
  ∃ opcode immediates, bytes = opcode :: immediates ∧ bytes.length = instrWidth opcode

/-- The instructions of concatenated encodings start where the encodings do. -/
theorem instrStart_flatten {encodings : List (List UInt8)} (h : ∀ e ∈ encodings, IsEncoding e) :
    ∀ {k : Nat}, k ≤ encodings.length →
      instrStart encodings.flatten k = (encodings.take k).flatten.length := by
  intro k
  induction k with
  | zero =>
      intro _
      rfl
  | succ k ih =>
      intro hk
      obtain ⟨opcode, immediates, hbytes, hwidth⟩ := h encodings[k] (List.getElem_mem hk)
      have hopcode : encodings.flatten[(encodings.take k).flatten.length]? = some opcode := by
        have hsplit : encodings.flatten =
            (encodings.take k).flatten ++ (encodings[k] ++ (encodings.drop (k + 1)).flatten) := by
          rw [← List.flatten_cons, ← List.drop_eq_getElem_cons, ← List.flatten_append,
            List.take_append_drop]
        rw [hsplit, List.getElem?_append_right (Nat.le_refl _), Nat.sub_self, hbytes]
        rfl
      rw [instrStart, ih (by omega), hopcode, List.take_add_one, List.getElem?_eq_getElem hk, List.flatten_append,
        List.length_append]
      simp [hwidth]

theorem instrStart_flatten_lt {encodings : List (List UInt8)}
    (h : ∀ e ∈ encodings, IsEncoding e) {k : Nat} (hk : k < encodings.length) :
    instrStart encodings.flatten k < encodings.flatten.length := by
  obtain ⟨opcode, immediates, hbytes, -⟩ := h encodings[k] (List.getElem_mem hk)
  have htotal : encodings.flatten.length =
      (encodings.take k).flatten.length + (encodings.drop k).flatten.length := by
    rw [← List.length_append, ← List.flatten_append, List.take_append_drop]
  have hrest : 0 < (encodings.drop k).flatten.length := by
    rw [List.drop_eq_getElem_cons hk, List.flatten_cons, hbytes, List.cons_append]
    exact Nat.succ_pos _
  rw [instrStart_flatten h (Nat.le_of_lt hk)]
  omega

/-! ## §3  Alignment -/

/-- The entry looked up at the start of the `k`-th encoding is that of the `k`-th
instruction that emits bytes. -/
theorem yulSourceMap_aligned {asm : List Value} {instructions : List AsmInstruction}
    (hasm : List.Forall₂ DescribesInstruction asm instructions)
    {encodings : List (List UInt8)} (hencodings : ∀ e ∈ encodings, IsEncoding e)
    (hcount : encodings.length = (emitting instructions).length) :
    ∃ sourceMap pcToIdx, synthesizeSourceMap asm = .ok sourceMap ∧
      buildPcToInstructionIndex encodings.flatten = some pcToIdx ∧
      ∀ k inst, (emitting instructions)[k]? = some inst →
        ∃ entry, sourceMap.getEntryForPc (encodings.take k).flatten.length pcToIdx = some entry ∧
          EntryOf inst entry := by
  obtain ⟨entries, hentries, hall⟩ := synthesizeEntries_spec hasm
  obtain ⟨pcToIdx, hbuild, -, hstart, -⟩ := pcIndex_aligned encodings.flatten
  refine ⟨⟨entries⟩, pcToIdx, ?_, hbuild, ?_⟩
  · rw [synthesizeSourceMap, hentries]
    rfl
  · intro k inst hinst
    obtain ⟨hk, rfl⟩ := List.getElem?_eq_some_iff.mp hinst
    have hk' : k < encodings.length := by omega
    have hk'' : k < entries.length := hall.length_eq ▸ hk
    have hindex := hstart k (instrStart_flatten_lt hencodings hk')
    rw [instrStart_flatten hencodings (Nat.le_of_lt hk')] at hindex
    refine ⟨entries[k], ?_, (List.forall₂_iff_get.mp hall).2 k hk hk''⟩
    rw [SourceMap.getEntryForPc, hindex]
    exact List.getElem?_eq_getElem hk''

/-- `PUSH1 1`, a label, its `JUMPDEST` and a jump into a function. -/
def asmValues : List Value :=
  [.object [("begin", .number "10"), ("end", .number "20"), ("name", .string "PUSH"),
      ("value", .string "1")],
    .object [("begin", .number "30"), ("end", .number "40"), ("name", .string "tag"),
      ("value", .string "1")],
    .object [("begin", .number "30"), ("end", .number "40"), ("name", .string "JUMPDEST")],
    .object [("begin", .number "60"), ("end", .number "50"), ("jumpType", .string "[in]"),
      ("name", .string "JUMP")]]

def asmInstructions : List AsmInstruction :=
  [⟨"PUSH", 10, 20, .regular, by decide, by decide⟩, ⟨"tag", 30, 40, .regular, by decide, by decide⟩,
    ⟨"JUMPDEST", 30, 40, .regular, by decide, by decide⟩,
    ⟨"JUMP", 60, 50, .into, by decide, by decide⟩]

theorem describes_asmValues : List.Forall₂ DescribesInstruction asmValues asmInstructions := by
  refine .cons ?_ (.cons ?_ (.cons ?_ (.cons ?_ .nil)))
  all_goals decide +kernel

theorem yulSourceMap_aligned_labels :
    ∃ sourceMap pcToIdx, synthesizeSourceMap asmValues = .ok sourceMap ∧
      buildPcToInstructionIndex [[0x60, 0x01], [0x5b], [0x56]].flatten = some pcToIdx ∧
      ∀ k inst, (emitting asmInstructions)[k]? = some inst →
        ∃ entry, sourceMap.getEntryForPc
            (([[0x60, 0x01], [0x5b], [0x56]] : List (List UInt8)).take k).flatten.length pcToIdx =
              some entry ∧ EntryOf inst entry :=
  yulSourceMap_aligned describes_asmValues
    (by
      intro e he
      rcases List.mem_cons.mp he with rfl | he
      · exact ⟨0x60, [0x01], rfl, rfl⟩
      rcases List.mem_cons.mp he with rfl | he
      · exact ⟨0x5b, [], rfl, rfl⟩
      · obtain rfl := List.mem_singleton.mp he
        exact ⟨0x56, [], rfl, rfl⟩)
    (by decide)

end EvmRecorder
