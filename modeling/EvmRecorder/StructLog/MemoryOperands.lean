import EvmRecorder.StructLog.LogContents

/-!
# Memory operands

`REVERT` and `LOGn` read a range of memory, and expand the memory first if the range
ends beyond it: the new bytes are zero. Both readers of the recorder look into the
snapshot taken before the opcode, and give up where it ends. A snapshot is a
`Vec<u8>`, of less than 2^63 bytes.
-/

namespace EvmRecorder

open Numeral Bytes

/-- What the EVM reads at `[offset, offset + size)`: memory is zero beyond its end. -/
def evmRead (memory : List UInt8) (offset size : Nat) : List UInt8 :=
  (List.range size).map fun i => memory.getD (offset + i) 0

@[simp] theorem length_evmRead (memory : List UInt8) (offset size : Nat) :
    (evmRead memory offset size).length = size := by
  rw [evmRead, List.length_map, List.length_range]

/-- Within the memory, a range is a slice. -/
theorem evmRead_eq_slice {memory : List UInt8} {offset size : Nat}
    (h : offset + size ≤ memory.length) :
    evmRead memory offset size = (memory.drop offset).take size := by
  apply List.ext_getElem
  · rw [length_evmRead, List.length_take, List.length_drop]
    omega
  · intro i hi hi'
    rw [length_evmRead] at hi
    simp only [evmRead, List.getElem_map, List.getElem_range, List.getElem_take,
      List.getElem_drop]
    exact (List.getElem_eq_getD 0).symm

section

variable {memory : List UInt8} {texts : List String}

/-- Whether all bytes of a range are there before the opcode executes. -/
def WithinMemory (memory : List UInt8) (offset size : U256) : Prop :=
  size = 0 ∨ offset.toNat + size.toNat ≤ memory.length

instance (memory : List UInt8) (offset size : U256) : Decidable (WithinMemory memory offset size) :=
  inferInstanceAs (Decidable (_ ∨ _))

/-- The bytes read off the snapshot are the EVM's for the ranges within the memory
and for no others: the rest reads as nothing. -/
theorem operandBytes_eq_evmRead_iff (hdump : RendersMemory memory texts)
    (hfit : memory.length < 2 ^ 63) {offset size : U256} :
    operandBytes (some texts) offset size = evmRead memory offset.toNat size.toNat ↔
      WithinMemory memory offset size := by
  have hdecode : decodeStructLogMemory (some texts) = memory := hdump.decode
  have hfit' : (decodeStructLogMemory (some texts)).length < 2 ^ 63 := by
    rw [hdecode]
    exact hfit
  rw [operandBytes_eq hfit', hdecode]
  constructor
  · intro h
    by_cases hle : offset.toNat + size.toNat ≤ memory.length
    · exact .inr hle
    · rw [if_neg hle] at h
      have hsize := congrArg List.length h
      rw [length_evmRead, List.length_nil] at hsize
      exact .inl (BitVec.eq_of_toNat_eq hsize.symm)
  · rintro (rfl | hle)
    · have hempty : evmRead memory offset.toNat (0 : U256).toNat = [] := rfl
      rw [hempty]
      simp
    · rw [if_pos hle, evmRead_eq_slice hle]

/-- Both readers agree with the EVM on exactly the ranges within the memory. -/
theorem memoryOperands_iff (hdump : RendersMemory memory texts) (hfit : memory.length < 2 ^ 63)
    (below topics : List U256) (offset size : U256) (htopics : topics.length ≤ 4) :
    (decodeRevertOpcodePayload (some (below ++ [size, offset])) (some texts) =
        evmRead memory offset.toNat size.toNat ↔ WithinMemory memory offset size) ∧
      (buildLogEventContent ("LOG" ++ Nat.repr topics.length)
          (some (operandStack below topics offset size)) (some texts) =
        some (logContent topics (evmRead memory offset.toNat size.toNat)) ↔
          WithinMemory memory offset size) := by
  have hfit' : (decodeStructLogMemory (some texts)).length < 2 ^ 63 := by
    rw [hdump.decode]
    exact hfit
  constructor
  · have hstack : below ++ [size, offset] = operandStack below [] offset size := by
      simp [operandStack]
    rw [hstack, decodeRevertOpcodePayload_operandStack]
    exact operandBytes_eq_evmRead_iff hdump hfit
  · rw [buildLogEventContent_operandStack hfit' htopics, ← operandBytes_eq_evmRead_iff hdump hfit]
    constructor
    · intro h
      exact (logContent_inj rfl (Option.some.inj h)).2
    · intro h
      rw [h]

end

/-- A revert of the one word of memory. -/
theorem memoryOperands_iff_word :
    (decodeRevertOpcodePayload (some [32, 0])
        (some [String.ofList (hexBytes (wordBytes 5))]) =
      evmRead (wordBytes 5) (0 : U256).toNat (32 : U256).toNat ↔
        WithinMemory (wordBytes 5) 0 32) ∧
      (buildLogEventContent ("LOG" ++ Nat.repr ([7] : List U256).length)
          (some (operandStack [] [7] 0 32)) (some [String.ofList (hexBytes (wordBytes 5))]) =
        some (logContent [7] (evmRead (wordBytes 5) (0 : U256).toNat (32 : U256).toNat)) ↔
          WithinMemory (wordBytes 5) 0 32) :=
  memoryOperands_iff
    ⟨[wordBytes 5], (List.append_nil _).symm,
      .cons (rendersWord_hexBytes (length_wordBytes 5)) .nil⟩
    (by decide) [] [7] 0 32 (by decide)

/-- `revert(0, 4)` and `log0(0, 4)` in a frame that has not touched its memory: the
EVM returns and logs four zero bytes, the recorder has neither. -/
theorem memoryOperands_beyond_memory :
    RendersMemory [] [] ∧
      decodeRevertOpcodePayload (some [4, 0]) (some []) ≠ evmRead [] 0 4 ∧
      buildLogEventContent "LOG0" (some [4, 0]) (some []) ≠
        some (logContent [] (evmRead [] 0 4)) :=
  ⟨⟨[], rfl, .nil⟩, by decide, by decide⟩

end EvmRecorder
