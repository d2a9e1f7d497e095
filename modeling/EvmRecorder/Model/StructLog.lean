import EvmRecorder.Library.Bytes

/-!
# structLog entries

One entry of a `debug_traceTransaction` trace, the decoding of its memory
snapshot and mnemonic, and the payloads the recorder reads off its stack and
memory.
-/

namespace EvmRecorder

open Numeral Bytes

/-- `stack` is bottom to top and `memory` the hex words, both before the opcode
executes. -/
structure StructLog where
  pc : Nat
  op : String
  depth : Nat
  stack : Option (List U256) := none
  memory : Option (List String) := none
deriving DecidableEq, Repr

/-- The top of the stack and the word below it. -/
def topTwo (stack : List U256) : Option (U256 × U256) :=
  match stack.reverse with
  | top :: below :: _ => some (top, below)
  | _ => none

/-! ## §1  Memory -/

/-- Two digits a byte; a pair that is no hex byte leaves its byte zero. -/
def decodePairs : Nat → List Char → List UInt8
  | 0, _ => []
  | n + 1, hi :: lo :: rest => (hexPair hi lo).getD 0 :: decodePairs n rest
  | n + 1, _ => 0 :: decodePairs n []

/-- One memory word: 32 bytes, whatever the length of its text, which is ASCII. -/
def decodeMemoryWord (w : String) : List UInt8 :=
  decodePairs 32 ((stripPrefix "0x".toList w.toList).getD w.toList)

def decodeStructLogMemory (memory : Option (List String)) : List UInt8 :=
  match memory with
  | some words => words.flatMap decodeMemoryWord
  | none => []

/-- `u64::try_from` and `usize::try_from` of a word. -/
def toUsize (w : U256) : Option Nat := if w.toNat < 2 ^ 64 then some w.toNat else none

/-- `a.saturating_add(b)` on `usize`. -/
def saturatingAddUsize (a b : Nat) : Nat := min (a + b) (2 ^ 64 - 1)

/-- `memory[offset..offset+size]`, when the snapshot captures all of it. -/
def memoryRange (memory : Option (List String)) (offset size : Nat) : Option (List UInt8) :=
  let bytes := decodeStructLogMemory memory
  if bytes.length < saturatingAddUsize offset size then none
  else some ((bytes.drop offset).take size)

/-! ## §2  Mnemonics -/

def namedOpcode (name : String) : Option UInt8 :=
  [("STOP", 0x00), ("ADD", 0x01), ("MUL", 0x02), ("SUB", 0x03), ("DIV", 0x04), ("SDIV", 0x05),
   ("MOD", 0x06), ("SMOD", 0x07), ("ADDMOD", 0x08), ("MULMOD", 0x09), ("EXP", 0x0a),
   ("SIGNEXTEND", 0x0b), ("LT", 0x10), ("GT", 0x11), ("SLT", 0x12), ("SGT", 0x13), ("EQ", 0x14),
   ("ISZERO", 0x15), ("AND", 0x16), ("OR", 0x17), ("XOR", 0x18), ("NOT", 0x19), ("BYTE", 0x1a),
   ("SHL", 0x1b), ("SHR", 0x1c), ("SAR", 0x1d), ("SHA3", 0x20), ("KECCAK256", 0x20),
   ("ADDRESS", 0x30), ("BALANCE", 0x31), ("ORIGIN", 0x32), ("CALLER", 0x33), ("CALLVALUE", 0x34),
   ("CALLDATALOAD", 0x35), ("CALLDATASIZE", 0x36), ("CALLDATACOPY", 0x37), ("CODESIZE", 0x38),
   ("CODECOPY", 0x39), ("GASPRICE", 0x3a), ("EXTCODESIZE", 0x3b), ("EXTCODECOPY", 0x3c),
   ("RETURNDATASIZE", 0x3d), ("RETURNDATACOPY", 0x3e), ("EXTCODEHASH", 0x3f),
   ("BLOCKHASH", 0x40), ("COINBASE", 0x41), ("TIMESTAMP", 0x42), ("NUMBER", 0x43),
   ("PREVRANDAO", 0x44), ("DIFFICULTY", 0x44), ("GASLIMIT", 0x45), ("CHAINID", 0x46),
   ("SELFBALANCE", 0x47), ("BASEFEE", 0x48), ("BLOBHASH", 0x49), ("BLOBBASEFEE", 0x4a),
   ("POP", 0x50), ("MLOAD", 0x51), ("MSTORE", 0x52), ("MSTORE8", 0x53), ("SLOAD", 0x54),
   ("SSTORE", 0x55), ("JUMP", 0x56), ("JUMPI", 0x57), ("PC", 0x58), ("MSIZE", 0x59),
   ("GAS", 0x5a), ("JUMPDEST", 0x5b), ("TLOAD", 0x5c), ("TSTORE", 0x5d), ("MCOPY", 0x5e),
   ("PUSH0", 0x5f), ("CREATE", 0xf0), ("CALL", 0xf1), ("CALLCODE", 0xf2), ("RETURN", 0xf3),
   ("DELEGATECALL", 0xf4), ("CREATE2", 0xf5), ("STATICCALL", 0xfa), ("REVERT", 0xfd),
   ("INVALID", 0xfe), ("SELFDESTRUCT", 0xff)].lookup name

/-- A mnemonic `<family>n` with `first ≤ n ≤ last`. The outer option is `none`
when `name` is not of the family; the inner one when the family's arm returns
no opcode because `n` is no `u8`. -/
def familyOpcode (family : String) (first last base : Nat) (name : String) :
    Option (Option UInt8) :=
  match stripPrefix family.toList name.toList with
  | some digits =>
      match parseUnsigned 256 digits with
      | some n => if first ≤ n ∧ n ≤ last then some (some (UInt8.ofNat (base + n))) else none
      | none => some none
  | none => none

def opcodeFromName (name : String) : Option UInt8 :=
  match familyOpcode "PUSH" 0 32 0x5f name with
  | some r => r
  | none =>
    match familyOpcode "DUP" 1 16 0x7f name with
    | some r => r
    | none =>
      match familyOpcode "SWAP" 1 16 0x8f name with
      | some r => r
      | none =>
        match familyOpcode "LOG" 0 4 0xa0 name with
        | some r => r
        | none => namedOpcode name

/-! ## §3  Event payloads -/

/-- The return data of a `REVERT` entry; empty when it is not captured. -/
def decodeRevertOpcodePayload (stack : Option (List U256)) (memory : Option (List String)) :
    List UInt8 :=
  match stack.bind topTwo with
  | some (offset, size) =>
      match toUsize offset, toUsize size with
      | some offset, some size =>
          if size = 0 then [] else (memoryRange memory offset size).getD []
      | _, _ => []
  | none => []

/-- Low 160 bits of a word as a 20-byte hex address. -/
def hexAddress (w : U256) : String :=
  "0x" ++ String.ofList (hexBytes ((wordBytes w).drop 12))

def buildSelfdestructEventContent (op : String) (stack : Option (List U256)) : Option String :=
  if op ≠ "SELFDESTRUCT" then none
  else do
    let stack ← stack
    let beneficiary ← stack.getLast?
    some (hexAddress beneficiary)

def precompileNameForAddress (addrLower160 : Nat) : Option String :=
  match addrLower160 with
  | 0x01 => some "ecrecover"
  | 0x02 => some "sha256"
  | 0x03 => some "ripemd160"
  | 0x04 => some "identity"
  | 0x05 => some "modexp"
  | 0x06 => some "ecAdd"
  | 0x07 => some "ecMul"
  | 0x08 => some "ecPairing"
  | 0x09 => some "blake2f"
  | _ => none

/-- Metadata and content for a call opcode that targets a precompile. -/
def buildPrecompileEventContent (op : String) (stack : Option (List U256)) :
    Option (String × String) :=
  if op ∉ ["CALL", "CALLCODE", "DELEGATECALL", "STATICCALL"] then none
  else do
    let stack ← stack
    let (_, addrWord) ← topTwo stack
    let bytes := wordBytes addrWord
    if (bytes.take 31).any (· ≠ 0) then none
    else
      let name ← precompileNameForAddress ((bytes[31]?.getD 0).toNat)
      some ("Precompile", name ++ ":" ++ hexAddress addrWord)

/-- `topic0, topic1, ..., 0xDATA` for a `LOG0`..`LOG4` entry. -/
def buildLogEventContent (op : String) (stack : Option (List U256))
    (memory : Option (List String)) : Option String := do
  let digits ← stripPrefix "LOG".toList op.toList
  let logNum ← parseUnsigned (2 ^ 32) digits
  if 4 < logNum then none
  else
    let stack ← stack
    if stack.length < 2 + logNum then none
    else
      let (offset, size) ← topTwo stack
      let topics := ((stack.reverse.drop 2).take logNum).map hexWord
      let content := String.intercalate ", " topics
      match toUsize size, toUsize offset with
      | some size, some offset =>
          if size = 0 then some content
          else match memoryRange memory offset size with
            | some data =>
                let content := if content.isEmpty then content else content ++ ", "
                some (content ++ "0x" ++ String.ofList (hexBytes data))
            | none => some content
      | _, _ => some content

/-! ## §4  Depths -/

/-- Depths of an execution: one new frame at a time, starting in the outermost. -/
structure LegalDepths (depths : List Nat) : Prop where
  starts : ∀ d ∈ depths.head?, d = 1
  rises : depths.IsChain fun d d' => d' ≤ d + 1
  positive : ∀ d ∈ depths, 1 ≤ d

instance (depths : List Nat) : Decidable (LegalDepths depths) :=
  decidable_of_iff
    ((∀ d ∈ depths.head?, d = 1) ∧ depths.IsChain (fun d d' => d' ≤ d + 1) ∧ ∀ d ∈ depths, 1 ≤ d)
    ⟨fun h => ⟨h.1, h.2.1, h.2.2⟩, fun h => ⟨h.starts, h.rises, h.positive⟩⟩

theorem LegalDepths.chain_one {depths : List Nat} (h : LegalDepths depths) :
    (1 :: depths).IsChain fun d d' => d' ≤ d + 1 := by
  cases depths with
  | nil => exact .singleton _
  | cons d depths =>
      have hd : d = 1 := h.starts d rfl
      exact .cons_cons (by omega) h.rises

/-- The depth before entry `k`: that of the entry before it, 1 at the start. -/
def DepthBefore (depths : List Nat) (k p : Nat) : Prop := (1 :: depths)[k]? = some p

theorem getElem?_depths {structLogs : List StructLog} {k : Nat} {log : StructLog}
    (hlog : structLogs[k]? = some log) : (structLogs.map (·.depth))[k]? = some log.depth := by
  rw [List.getElem?_map, hlog]
  rfl

/-- A relation along the depths holds at each depth change. -/
theorem DepthBefore.rel {depths : List Nat} {R : Nat → Nat → Prop} {k p d : Nat}
    (hp : DepthBefore depths k p) (hchain : (1 :: depths).IsChain R)
    (hd : depths[k]? = some d) : R p d := by
  obtain ⟨hklt, rfl⟩ := List.getElem?_eq_some_iff.mp hp
  obtain ⟨hlt, rfl⟩ := List.getElem?_eq_some_iff.mp hd
  exact List.isChain_iff_getElem.mp hchain k (by simpa using hlt)

theorem LegalDepths.rise {depths : List Nat} (h : LegalDepths depths) {k p d : Nat}
    (hp : DepthBefore depths k p) (hd : depths[k]? = some d) : 1 ≤ d ∧ d ≤ p + 1 :=
  ⟨h.positive d (List.mem_of_getElem? hd), hp.rel h.chain_one hd⟩

end EvmRecorder
