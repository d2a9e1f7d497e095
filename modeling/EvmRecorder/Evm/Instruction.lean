import Mathlib.Tactic

/-!
# EVM instructions and their effect on the stack

The non-halting instructions of the Cancun instruction set with the number of
words each removes and adds, as the Yellow Paper tabulates them, and the
relation between the stacks before and after an instruction. Results are
arbitrary words: which word an instruction computes does not matter here.
-/

namespace EvmRecorder.Evm

/-- `generic δ α` removes `δ` words and adds `α`; DUPn and SWAPn copy and
exchange. -/
inductive StackRule where
  | generic (δ α : Nat)
  | dup (n : Nat)
  | swap (n : Nat)
deriving DecidableEq, Repr

structure Instruction where
  mnemonic : String
  opcode : UInt8
  rule : StackRule
deriving DecidableEq, Repr

/-! ## §1  The instruction table -/

def arithmetic : List Instruction :=
  [⟨"ADD", 0x01, .generic 2 1⟩, ⟨"MUL", 0x02, .generic 2 1⟩, ⟨"SUB", 0x03, .generic 2 1⟩,
   ⟨"DIV", 0x04, .generic 2 1⟩, ⟨"SDIV", 0x05, .generic 2 1⟩, ⟨"MOD", 0x06, .generic 2 1⟩,
   ⟨"SMOD", 0x07, .generic 2 1⟩, ⟨"ADDMOD", 0x08, .generic 3 1⟩, ⟨"MULMOD", 0x09, .generic 3 1⟩,
   ⟨"EXP", 0x0a, .generic 2 1⟩, ⟨"SIGNEXTEND", 0x0b, .generic 2 1⟩]

def comparison : List Instruction :=
  [⟨"LT", 0x10, .generic 2 1⟩, ⟨"GT", 0x11, .generic 2 1⟩, ⟨"SLT", 0x12, .generic 2 1⟩,
   ⟨"SGT", 0x13, .generic 2 1⟩, ⟨"EQ", 0x14, .generic 2 1⟩, ⟨"ISZERO", 0x15, .generic 1 1⟩,
   ⟨"AND", 0x16, .generic 2 1⟩, ⟨"OR", 0x17, .generic 2 1⟩, ⟨"XOR", 0x18, .generic 2 1⟩,
   ⟨"NOT", 0x19, .generic 1 1⟩, ⟨"BYTE", 0x1a, .generic 2 1⟩, ⟨"SHL", 0x1b, .generic 2 1⟩,
   ⟨"SHR", 0x1c, .generic 2 1⟩, ⟨"SAR", 0x1d, .generic 2 1⟩,
   ⟨"KECCAK256", 0x20, .generic 2 1⟩, ⟨"SHA3", 0x20, .generic 2 1⟩]

def environment : List Instruction :=
  [⟨"ADDRESS", 0x30, .generic 0 1⟩, ⟨"BALANCE", 0x31, .generic 1 1⟩,
   ⟨"ORIGIN", 0x32, .generic 0 1⟩, ⟨"CALLER", 0x33, .generic 0 1⟩,
   ⟨"CALLVALUE", 0x34, .generic 0 1⟩, ⟨"CALLDATALOAD", 0x35, .generic 1 1⟩,
   ⟨"CALLDATASIZE", 0x36, .generic 0 1⟩, ⟨"CALLDATACOPY", 0x37, .generic 3 0⟩,
   ⟨"CODESIZE", 0x38, .generic 0 1⟩, ⟨"CODECOPY", 0x39, .generic 3 0⟩,
   ⟨"GASPRICE", 0x3a, .generic 0 1⟩, ⟨"EXTCODESIZE", 0x3b, .generic 1 1⟩,
   ⟨"EXTCODECOPY", 0x3c, .generic 4 0⟩, ⟨"RETURNDATASIZE", 0x3d, .generic 0 1⟩,
   ⟨"RETURNDATACOPY", 0x3e, .generic 3 0⟩, ⟨"EXTCODEHASH", 0x3f, .generic 1 1⟩,
   ⟨"BLOCKHASH", 0x40, .generic 1 1⟩, ⟨"COINBASE", 0x41, .generic 0 1⟩,
   ⟨"TIMESTAMP", 0x42, .generic 0 1⟩, ⟨"NUMBER", 0x43, .generic 0 1⟩,
   ⟨"PREVRANDAO", 0x44, .generic 0 1⟩, ⟨"DIFFICULTY", 0x44, .generic 0 1⟩,
   ⟨"GASLIMIT", 0x45, .generic 0 1⟩, ⟨"CHAINID", 0x46, .generic 0 1⟩,
   ⟨"SELFBALANCE", 0x47, .generic 0 1⟩, ⟨"BASEFEE", 0x48, .generic 0 1⟩,
   ⟨"BLOBHASH", 0x49, .generic 1 1⟩, ⟨"BLOBBASEFEE", 0x4a, .generic 0 1⟩]

def memoryAndFlow : List Instruction :=
  [⟨"POP", 0x50, .generic 1 0⟩, ⟨"MLOAD", 0x51, .generic 1 1⟩, ⟨"MSTORE", 0x52, .generic 2 0⟩,
   ⟨"MSTORE8", 0x53, .generic 2 0⟩, ⟨"SLOAD", 0x54, .generic 1 1⟩,
   ⟨"SSTORE", 0x55, .generic 2 0⟩, ⟨"JUMP", 0x56, .generic 1 0⟩, ⟨"JUMPI", 0x57, .generic 2 0⟩,
   ⟨"PC", 0x58, .generic 0 1⟩, ⟨"MSIZE", 0x59, .generic 0 1⟩, ⟨"GAS", 0x5a, .generic 0 1⟩,
   ⟨"JUMPDEST", 0x5b, .generic 0 0⟩, ⟨"TLOAD", 0x5c, .generic 1 1⟩,
   ⟨"TSTORE", 0x5d, .generic 2 0⟩, ⟨"MCOPY", 0x5e, .generic 3 0⟩]

def system : List Instruction :=
  [⟨"CREATE", 0xf0, .generic 3 1⟩, ⟨"CALL", 0xf1, .generic 7 1⟩,
   ⟨"CALLCODE", 0xf2, .generic 7 1⟩, ⟨"DELEGATECALL", 0xf4, .generic 6 1⟩,
   ⟨"CREATE2", 0xf5, .generic 4 1⟩, ⟨"STATICCALL", 0xfa, .generic 6 1⟩]

/-- A family `NAMEn` for `n = first, …, first + count - 1`. -/
def family (name : String) (base : UInt8) (first count : Nat) (rule : Nat → StackRule) :
    List Instruction :=
  (List.range count).map fun k =>
    ⟨name ++ Nat.repr (first + k), base + UInt8.ofNat k, rule (first + k)⟩

/-- The non-halting instructions. -/
def cancun : List Instruction :=
  arithmetic ++ comparison ++ environment ++ memoryAndFlow ++
    family "PUSH" 0x5f 0 33 (fun _ => .generic 0 1) ++
    family "DUP" 0x80 1 16 .dup ++ family "SWAP" 0x90 1 16 .swap ++
    family "LOG" 0xa0 0 5 (fun n => .generic (2 + n) 0) ++ system

/-! ## §2  Stacks before and after an instruction -/

variable {Word : Type}

/-- Stacks are listed bottom to top. No rule applies when the stack is too
short. -/
inductive StackStep : StackRule → List Word → List Word → Prop where
  | generic {rest args results : List Word} :
      StackStep (.generic args.length results.length) (rest ++ args) (rest ++ results)
  | dup {rest above : List Word} {w : Word} :
      StackStep (.dup (above.length + 1)) (rest ++ w :: above) (rest ++ w :: above ++ [w])
  | swap {rest between : List Word} {below top : Word} :
      StackStep (.swap (between.length + 1)) (rest ++ below :: (between ++ [top]))
        (rest ++ top :: (between ++ [below]))

/-- Change of the stack height, as an integer. -/
def StackRule.netEffect : StackRule → Int
  | .generic δ α => α - δ
  | .dup _ => 1
  | .swap _ => 0

theorem length_of_stackStep {rule : StackRule} {s s' : List Word} (h : StackStep rule s s') :
    (s'.length : Int) = s.length + rule.netEffect := by
  cases h with
  | generic => simp [StackRule.netEffect]
  | dup => simp [StackRule.netEffect]; omega
  | swap => simp [StackRule.netEffect]

/-- A PUSH adds one word. -/
theorem exists_of_stackStep_push {s s' : List Word} (h : StackStep (.generic 0 1) s s') :
    ∃ w, s' = s ++ [w] := by
  generalize hrule : StackRule.generic 0 1 = rule at h
  cases h with
  | @generic rest args results =>
      injection hrule with hargs hresults
      obtain rfl := List.length_eq_zero_iff.mp hargs.symm
      obtain ⟨w, rfl⟩ := List.length_eq_one_iff.mp hresults.symm
      exact ⟨w, by rw [List.append_nil]⟩
  | dup => exact StackRule.noConfusion hrule
  | swap => exact StackRule.noConfusion hrule

/-- POP drops the top word. -/
theorem eq_of_stackStep_pop {s s' : List Word} {w : Word}
    (h : StackStep (.generic 1 0) (s ++ [w]) s') : s' = s := by
  generalize hrule : StackRule.generic 1 0 = rule at h
  generalize hs : s ++ [w] = s₀ at h
  cases h with
  | @generic rest args results =>
      injection hrule with hargs hresults
      obtain ⟨arg, rfl⟩ := List.length_eq_one_iff.mp hargs.symm
      obtain rfl := List.length_eq_zero_iff.mp hresults.symm
      rw [List.append_nil]
      exact (List.append_singleton_inj.mp hs).1.symm
  | dup => exact StackRule.noConfusion hrule
  | swap => exact StackRule.noConfusion hrule

/-- SWAP1 exchanges the two top words. -/
theorem eq_of_stackStep_swap_one {s s' : List Word} {w top : Word}
    (h : StackStep (.swap 1) (s ++ [w, top]) s') : s' = s ++ [top, w] := by
  generalize hrule : StackRule.swap 1 = rule at h
  generalize hs : s ++ [w, top] = s₀ at h
  cases h with
  | @swap rest between below top' =>
      injection hrule with hbetween
      obtain rfl := List.length_eq_zero_iff.mp (Nat.succ.inj hbetween.symm)
      obtain ⟨rfl, htail⟩ := List.append_inj' hs rfl
      obtain ⟨rfl, rfl⟩ : w = below ∧ top = top' := by simpa using htail
      rfl
  | generic => exact StackRule.noConfusion hrule
  | dup => exact StackRule.noConfusion hrule

/-- Words from the top that an instruction removes or replaces. -/
def StackRule.touched : StackRule → Nat
  | .generic δ _ => δ
  | .dup _ => 0
  | .swap n => n + 1

/-- A DUP may copy a word from below `base`, but nothing is removed or replaced
there. -/
theorem take_of_stackStep {rule : StackRule} {s s' : List Word} {base : Nat}
    (h : StackStep rule s s') (hbase : base + rule.touched ≤ s.length) :
    s'.take base = s.take base := by
  cases h with
  | @generic rest args results =>
      simp only [StackRule.touched, List.length_append, Nat.add_le_add_iff_right] at hbase
      rw [List.take_append_of_le_length hbase, List.take_append_of_le_length hbase]
  | dup => exact List.take_append_of_le_length (by simpa [StackRule.touched] using hbase)
  | @swap rest between below top =>
      have hrest : base ≤ rest.length := by
        simp only [StackRule.touched, List.length_append, List.length_cons, List.length_nil]
          at hbase
        omega
      rw [List.take_append_of_le_length hrest, List.take_append_of_le_length hrest]

/-- The positions of a stack of the given height that an instruction fills, empties or
exchanges. -/
def StackRule.Writes (height : Nat) : StackRule → Nat → Prop
  | .generic δ α, pos => height ≤ pos + δ ∧ pos + δ < height + max δ α
  | .dup _, pos => pos = height
  | .swap n, pos => pos + 1 = height ∨ pos + n + 1 = height

/-- All other positions, those above both stacks included, are as before. -/
theorem getElem?_of_stackStep {rule : StackRule} {s s' : List Word} {pos : Nat}
    (h : StackStep rule s s') (hkept : ¬ rule.Writes s.length pos) : s'[pos]? = s[pos]? := by
  cases h with
  | @generic rest args results =>
      simp only [StackRule.Writes, List.length_append, not_and, not_lt] at hkept
      rcases Nat.lt_or_ge pos rest.length with hlt | hge
      · rw [List.getElem?_append_left hlt, List.getElem?_append_left hlt]
      · have habove := hkept (Nat.add_le_add_right hge _)
        rw [List.getElem?_eq_none, List.getElem?_eq_none] <;> rw [List.length_append] <;> omega
  | @dup rest above w =>
      rcases Nat.lt_or_ge pos (rest ++ w :: above).length with hlt | hge
      · rw [List.getElem?_append_left hlt]
      · have habove := Nat.lt_of_le_of_ne hge (Ne.symm hkept)
        rw [List.getElem?_eq_none hge, List.getElem?_eq_none]
        rw [List.length_append]
        exact habove
  | @swap rest between below top =>
      simp only [StackRule.Writes, List.length_append, List.length_cons, List.length_nil, not_or]
        at hkept
      rcases Nat.lt_or_ge pos rest.length with hlt | hge
      · rw [List.getElem?_append_left hlt, List.getElem?_append_left hlt]
      -- between the exchanged words, or above them
      obtain ⟨k, rfl⟩ := Nat.exists_eq_add_of_le hge
      rw [List.getElem?_append_right hge, List.getElem?_append_right hge, Nat.add_sub_cancel_left]
      cases k with
      | zero => omega
      | succ k =>
          rw [List.getElem?_cons_succ, List.getElem?_cons_succ]
          rcases Nat.lt_or_ge k between.length with hin | hout
          · rw [List.getElem?_append_left hin, List.getElem?_append_left hin]
          · rw [List.getElem?_eq_none, List.getElem?_eq_none] <;>
              rw [List.length_append, List.length_singleton] <;> omega

/-- The word at position `pos` of a stack of the given height goes to `pos'`, or is copied
there. -/
def StackRule.Moves (height : Nat) : StackRule → Nat → Nat → Prop
  | .generic δ _, pos, pos' => pos + δ < height ∧ pos' = pos
  | .dup n, pos, pos' => pos' = pos ∨ (pos + n = height ∧ pos' = height)
  | .swap n, pos, pos' =>
      (pos + 1 = height ∧ pos' + n + 1 = height) ∨ (pos + n + 1 = height ∧ pos' + 1 = height) ∨
        (pos + 1 ≠ height ∧ pos + n + 1 ≠ height ∧ pos' = pos)

end EvmRecorder.Evm
