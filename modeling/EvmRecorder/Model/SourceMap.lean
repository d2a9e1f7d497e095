import EvmRecorder.Library.Numeral

/-!
# Source maps

The Solidity/Vyper source map: its compressed text form, the mapping from
program counters to instruction indices, and the resolution of a program
counter to a source line and column.

A source text is a `String`; offsets into it are byte offsets of its UTF-8
encoding. A `usize` is a natural number: no index below exceeds the length of a
vector that is held in memory.
-/

namespace EvmRecorder

open Numeral

/-! ## §1  Entries -/

/-- Jump type of a source map entry: `i`, `o` or `-`. -/
inductive JumpType where
  | into
  | outOf
  | regular
deriving DecidableEq, Repr

/-- One entry `s:l:f:j:m`. A negative `fileIndex` marks compiler-generated
code. -/
structure SourceMapEntry where
  offset : Int32 := 0
  length : Int32 := 0
  fileIndex : Int32 := 0
  jumpType : JumpType := .regular
  modifierDepth : Int32 := 0
deriving DecidableEq, Repr

/-- A resolved location: 1-based line, 0-based column in bytes. -/
structure SourceLocation where
  fileIndex : Int32
  line : Nat
  column : Nat
deriving DecidableEq, Repr

structure SourceMap where
  entries : List SourceMapEntry
deriving DecidableEq, Repr

/-- The cast `x as usize`: sign extension to 64 bits. -/
def asUsize (x : Int32) : Nat := (x.toInt % 2 ^ 64).toNat

/-! ## §2  Parsing -/

namespace SourceMap

/-- An empty, missing or malformed field inherits `prev`. -/
def parseField (field : Option (List Char)) (prev : Int32) : Int32 :=
  match field with
  | some s => if s.isEmpty then prev else (parseI32 s).getD prev
  | none => prev

def parseJump : List Char → JumpType
  | ['i'] => .into
  | ['o'] => .outOf
  | _ => .regular

/-- One semicolon-separated part, read against the previous entry. -/
def parsePart (prev : SourceMapEntry) (part : List Char) : SourceMapEntry :=
  let fields := part.splitOn ':'
  { offset := parseField fields[0]? prev.offset
    length := parseField fields[1]? prev.length
    fileIndex := parseField fields[2]? prev.fileIndex
    jumpType := (fields[3]?.bind fun s =>
      if s.isEmpty then none else some (parseJump s)).getD prev.jumpType
    modifierDepth := parseField fields[4]? prev.modifierDepth }

/-- The loop over the parts; `prev` is the entry pushed last. -/
def parseParts : SourceMapEntry → List (List Char) → List SourceMapEntry
  | _, [] => []
  | prev, part :: rest => parsePart prev part :: parseParts (parsePart prev part) rest

def parse (raw : String) : SourceMap :=
  ⟨parseParts {} (raw.toList.splitOn ';')⟩

end SourceMap

/-! ## §3  Program counters to instruction indices -/

/-- `pc_to_idx[i] = x`, which panics when `i` is out of bounds. -/
def writeAt (v : List Nat) (i x : Nat) : Option (List Nat) :=
  if i < v.length then some (v.set i x) else none

/-- PUSH1 = 0x60 .. PUSH32 = 0x7f. -/
def isPush (opcode : UInt8) : Bool := 0x60 ≤ opcode && opcode ≤ 0x7f

/-- Number of immediate bytes of a PUSH opcode. -/
def pushBytes (opcode : UInt8) : Nat := opcode.toNat - 0x60 + 1

/-- The inner loop: the immediate bytes at `pc + offset` that exist get the
index of their PUSH. -/
def fillPushData (len pc idx : Nat) : List Nat → List Nat → Option (List Nat)
  | [], pcToIdx => some pcToIdx
  | offset :: offsets, pcToIdx =>
      if pc + offset < len then do
        let pcToIdx ← writeAt pcToIdx (pc + offset) idx
        fillPushData len pc idx offsets pcToIdx
      else fillPushData len pc idx offsets pcToIdx

/-- The outer loop. `none` is a panic or a loop that has not ended within
`fuel` iterations. -/
def buildIndexLoop (bytecode : List UInt8) :
    Nat → Nat → Nat → List Nat → Option (List Nat)
  | fuel, pc, idx, pcToIdx =>
      if h : pc < bytecode.length then
        match fuel with
        | 0 => none
        | fuel + 1 => do
            let pcToIdx ← writeAt pcToIdx pc idx
            let opcode := bytecode[pc]
            if isPush opcode then
              let pcToIdx ← fillPushData bytecode.length pc idx
                (List.range' 1 (pushBytes opcode)) pcToIdx
              buildIndexLoop bytecode fuel (pc + (1 + pushBytes opcode)) (idx + 1) pcToIdx
            else
              buildIndexLoop bytecode fuel (pc + 1) (idx + 1) pcToIdx
      else some pcToIdx

def buildPcToInstructionIndex (bytecode : List UInt8) : Option (List Nat) :=
  buildIndexLoop bytecode bytecode.length 0 0 (List.replicate bytecode.length 0)

/-! ## §4  Resolution -/

/-- The UTF-8 bytes of a text (`str::as_bytes`). -/
def utf8Bytes (source : String) : List UInt8 :=
  source.toList.flatMap String.utf8EncodeChar

/-- `str::len`. -/
def byteLen (source : String) : Nat := (utf8Bytes source).length

/-- The loop of `offset_to_line_col` over `char_indices`: `i` is the byte index
of the next character. Line and column stay below the byte offset, which comes
from a 32-bit source map field, so the `u32` counters do not wrap. -/
def lineColLoop (byteOffset : Nat) : List Char → Nat → Nat → Nat → Nat × Nat
  | [], _, line, col => (line, col)
  | ch :: rest, i, line, col =>
      if byteOffset ≤ i then (line, col)
      else if ch = '\n' then lineColLoop byteOffset rest (i + ch.utf8Size) (line + 1) 0
      else lineColLoop byteOffset rest (i + ch.utf8Size) line (col + ch.utf8Size)

def offsetToLineCol (source : String) (byteOffset : Nat) : Nat × Nat :=
  lineColLoop byteOffset source.toList 0 1 0

namespace SourceMap

def getEntryForPc (self : SourceMap) (pc : Nat) (pcToIdx : List Nat) :
    Option SourceMapEntry := do
  let instrIdx ← pcToIdx[pc]?
  self.entries[instrIdx]?

def resolvePc (self : SourceMap) (pc : Nat) (pcToIdx : List Nat)
    (sourceContents : List String) : Option SourceLocation := do
  let instrIdx ← pcToIdx[pc]?
  let entry ← self.entries[instrIdx]?
  if entry.fileIndex < 0 then none
  else
    let source ← sourceContents[asUsize entry.fileIndex]?
    let byteOffset := asUsize entry.offset
    if byteLen source < byteOffset then none
    else
      let (line, column) := offsetToLineCol source byteOffset
      some ⟨entry.fileIndex, line, column⟩

end SourceMap

end EvmRecorder
