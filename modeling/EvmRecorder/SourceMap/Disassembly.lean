import EvmRecorder.Model.SourceMap

/-!
# Program counters and the disassembly

Source map entries are numbered by instruction, program counters count bytes.
The index built from the bytecode agrees with a reference disassembly: every
byte of the `k`-th instruction, immediate bytes included, is mapped to `k`.
-/

namespace EvmRecorder

/-! ## §1  Reference disassembly -/

/-- Bytes of an instruction: its opcode and the `n` immediates of a PUSHn. -/
def instrWidth (opcode : UInt8) : Nat :=
  if 0x60 ≤ opcode ∧ opcode ≤ 0x7f then 1 + (opcode.toNat - 0x5f) else 1

/-- Start of the `k`-th instruction, for the `k` at which it is below the code
length. -/
def instrStart (bytecode : List UInt8) : Nat → Nat
  | 0 => 0
  | k + 1 =>
      let pc := instrStart bytecode k
      pc + (bytecode[pc]?.elim 0 instrWidth)

theorem instrStart_zero (bytecode : List UInt8) : instrStart bytecode 0 = 0 := rfl

theorem instrStart_succ {bytecode : List UInt8} {k : Nat}
    (h : instrStart bytecode k < bytecode.length) :
    instrStart bytecode (k + 1) =
      instrStart bytecode k + instrWidth bytecode[instrStart bytecode k] := by
  simp [instrStart, h]

theorem instrStart_le_succ (bytecode : List UInt8) (k : Nat) :
    instrStart bytecode k ≤ instrStart bytecode (k + 1) :=
  Nat.le_add_right _ _

theorem instrStart_mono (bytecode : List UInt8) : Monotone (instrStart bytecode) :=
  monotone_nat_of_le_succ (instrStart_le_succ bytecode)

theorem instrWidth_push {opcode : UInt8} (h : isPush opcode = true) :
    instrWidth opcode = 1 + pushBytes opcode := by
  simp only [isPush, Bool.and_eq_true, decide_eq_true_eq] at h
  have hlo : 0x60 ≤ opcode.toNat := by simpa using UInt8.le_iff_toNat_le.mp h.1
  rw [instrWidth, if_pos h, pushBytes]
  omega

theorem instrWidth_not_push {opcode : UInt8} (h : isPush opcode = false) :
    instrWidth opcode = 1 := by
  rw [instrWidth, if_neg]
  intro hpush
  simp [isPush, hpush] at h

/-! ## §2  The loops -/

theorem writeAt_of_lt {v : List Nat} {i : Nat} (h : i < v.length) (x : Nat) :
    writeAt v i x = some (v.set i x) := if_pos h

/-- The inner loop writes `idx` to the bytes `pc + a .. pc + a + n` that exist
and to no other. -/
theorem fillPushData_spec (len pc idx : Nat) : ∀ (n a : Nat) (v : List Nat), v.length = len →
    ∃ v', fillPushData len pc idx (List.range' a n) v = some v' ∧ v'.length = len ∧
      ∀ q, v'[q]? =
        if pc + a ≤ q ∧ q < pc + a + n ∧ q < len then some idx else v[q]?
  | 0, a, v, hlen => ⟨v, rfl, hlen, fun q => by rw [if_neg (by omega)]⟩
  | n + 1, a, v, hlen => by
      rw [List.range'_succ]
      by_cases hin : pc + a < len
      · obtain ⟨v', hfill, hlen', hget⟩ := fillPushData_spec len pc idx n (a + 1)
          (v.set (pc + a) idx) (by rw [List.length_set, hlen])
        refine ⟨v', ?_, hlen', fun q => ?_⟩
        · rw [fillPushData, if_pos hin, writeAt_of_lt (hlen.symm ▸ hin)]
          exact hfill
        · rw [hget q, List.getElem?_set]
          split_ifs <;> first | rfl | omega
      · obtain ⟨v', hfill, hlen', hget⟩ := fillPushData_spec len pc idx n (a + 1) v hlen
        refine ⟨v', ?_, hlen', fun q => ?_⟩
        · rw [fillPushData, if_neg hin]
          exact hfill
        · rw [hget q]
          split_ifs <;> first | rfl | omega

/-- Every byte of the instructions before the `bound`-th one is mapped to its
instruction. -/
def IndexedBelow (bytecode : List UInt8) (bound : Nat) (v : List Nat) : Prop :=
  ∀ k q, k < bound → instrStart bytecode k ≤ q → q < instrStart bytecode (k + 1) →
    q < bytecode.length → v[q]? = some k

/-- One iteration: marking the bytes of instruction `idx` extends the indexed
prefix by that instruction. -/
theorem IndexedBelow.extend {bytecode : List UInt8} {idx : Nat} {v v' : List Nat}
    (hindexed : IndexedBelow bytecode idx v)
    (hmark : ∀ q, v'[q]? =
      if instrStart bytecode idx ≤ q ∧ q < instrStart bytecode (idx + 1) ∧
          q < bytecode.length then some idx else v[q]?) :
    IndexedBelow bytecode (idx + 1) v' := by
  intro k q hk hlo hhi hq
  rw [hmark q]
  rcases Nat.lt_succ_iff_lt_or_eq.mp hk with hk | rfl
  · have hbefore : instrStart bytecode (k + 1) ≤ instrStart bytecode idx :=
      instrStart_mono bytecode hk
    rw [if_neg (by omega)]
    exact hindexed k q hk hlo hhi hq
  · rw [if_pos ⟨hlo, hhi, hq⟩]

/-- When instruction `idx` would start past the end, all bytes are indexed. -/
theorem IndexedBelow.all {bytecode : List UInt8} {idx : Nat} {v : List Nat}
    (hindexed : IndexedBelow bytecode idx v) (hdone : bytecode.length ≤ instrStart bytecode idx)
    (bound : Nat) : IndexedBelow bytecode bound v := by
  intro k q hk hlo hhi hq
  by_cases hki : k < idx
  · exact hindexed k q hki hlo hhi hq
  · have hmono := instrStart_mono bytecode (Nat.not_lt.mp hki)
    omega

theorem buildIndexLoop_spec (bytecode : List UInt8) : ∀ (fuel idx : Nat) (v : List Nat),
    v.length = bytecode.length → bytecode.length ≤ fuel + instrStart bytecode idx →
    IndexedBelow bytecode idx v →
    ∃ v', buildIndexLoop bytecode fuel (instrStart bytecode idx) idx v = some v' ∧
      v'.length = bytecode.length ∧ ∀ bound, IndexedBelow bytecode bound v' := by
  intro fuel
  induction fuel with
  | zero =>
      intro idx v hlen hfuel hindexed
      have hdone : ¬ instrStart bytecode idx < bytecode.length := by omega
      exact ⟨v, by rw [buildIndexLoop, dif_neg hdone], hlen, hindexed.all (Nat.not_lt.mp hdone)⟩
  | succ fuel ih =>
      intro idx v hlen hfuel hindexed
      by_cases hpc : instrStart bytecode idx < bytecode.length
      · have hnext := instrStart_succ hpc
        set opcode := bytecode[instrStart bytecode idx] with hop
        have hwrite := writeAt_of_lt (hlen.symm ▸ hpc) idx
        have hlen₁ : (v.set (instrStart bytecode idx) idx).length = bytecode.length := by
          rw [List.length_set, hlen]
        cases hpush : isPush opcode with
        | true =>
            rw [instrWidth_push hpush] at hnext
            obtain ⟨v₂, hfill, hlen₂, hget₂⟩ := fillPushData_spec bytecode.length
              (instrStart bytecode idx) idx (pushBytes opcode) 1 _ hlen₁
            obtain ⟨v', hloop, hlen', hall⟩ := ih (idx + 1) v₂ hlen₂ (by omega)
              (hindexed.extend fun q => by
                rw [hget₂ q, List.getElem?_set]
                split_ifs <;> first | rfl | omega)
            refine ⟨v', ?_, hlen', hall⟩
            rw [buildIndexLoop, dif_pos hpc]
            simp only [hwrite, ← hop, hpush, if_true, Option.bind_eq_bind, Option.bind_some, hfill]
            rwa [← hnext]
        | false =>
            rw [instrWidth_not_push hpush] at hnext
            obtain ⟨v', hloop, hlen', hall⟩ := ih (idx + 1) _ hlen₁ (by omega)
              (hindexed.extend fun q => by
                rw [List.getElem?_set]
                split_ifs <;> first | rfl | omega)
            refine ⟨v', ?_, hlen', hall⟩
            rw [buildIndexLoop, dif_pos hpc]
            simp only [hwrite, ← hop, hpush, Option.bind_eq_bind, Option.bind_some]
            rw [if_neg Bool.false_ne_true, ← hnext]
            exact hloop
      · exact ⟨v, by rw [buildIndexLoop, dif_neg hpc], hlen, hindexed.all (Nat.not_lt.mp hpc)⟩

theorem buildPcToInstructionIndex_spec (bytecode : List UInt8) :
    ∃ v, buildPcToInstructionIndex bytecode = some v ∧ v.length = bytecode.length ∧
      ∀ bound, IndexedBelow bytecode bound v :=
  buildIndexLoop_spec bytecode bytecode.length 0 _ List.length_replicate
    (by rw [instrStart_zero]; omega) (fun k _ hk => absurd hk (Nat.not_lt_zero k))

/-! ## §3  Alignment -/

/-- **The index is the disassembly.** Building it never leaves the bounds; the
start of the `k`-th instruction and each of its immediate bytes that exist are
mapped to `k`. Hence with one source map entry per instruction the entry looked
up at the start of the `k`-th instruction is entry `k`. -/
theorem pcIndex_aligned (bytecode : List UInt8) :
    ∃ pcToIdx, buildPcToInstructionIndex bytecode = some pcToIdx ∧
      pcToIdx.length = bytecode.length ∧
      (∀ k, instrStart bytecode k < bytecode.length →
        pcToIdx[instrStart bytecode k]? = some k) ∧
      (∀ k pc, instrStart bytecode k < pc → pc < instrStart bytecode (k + 1) →
        pc < bytecode.length → pcToIdx[pc]? = some k) ∧
      ∀ sourceMap : SourceMap,
        (∀ k, instrStart bytecode k < bytecode.length ↔ k < sourceMap.entries.length) →
        ∀ k (hk : k < sourceMap.entries.length),
          sourceMap.getEntryForPc (instrStart bytecode k) pcToIdx =
            some sourceMap.entries[k] := by
  obtain ⟨v, hbuild, hlen, hall⟩ := buildPcToInstructionIndex_spec bytecode
  have hstart : ∀ k, instrStart bytecode k < bytecode.length →
      v[instrStart bytecode k]? = some k := fun k hk => by
    have hwidth : instrStart bytecode k < instrStart bytecode (k + 1) := by
      rw [instrStart_succ hk, instrWidth]
      split <;> omega
    exact hall (k + 1) k _ (Nat.lt_succ_self k) (Nat.le_refl _) hwidth hk
  refine ⟨v, hbuild, hlen, hstart, fun k pc hlo hhi hpc => ?_, fun sourceMap hone k hk => ?_⟩
  · exact hall (k + 1) k pc (Nat.lt_succ_self k) (Nat.le_of_lt hlo) hhi hpc
  · simp [SourceMap.getEntryForPc, hstart k ((hone k).mpr hk), hk]

/-- PUSH2 with both immediates, STOP, then a PUSH3 cut off after one byte. -/
example : buildPcToInstructionIndex [0x61, 0x5b, 0x60, 0x00, 0x62, 0xff] =
    some [0, 0, 0, 1, 2, 2] := by decide

end EvmRecorder
