import EvmRecorder.Library.Substrings
import EvmRecorder.Model.SolidityJson
import EvmRecorder.Model.SourceFetcher
import EvmRecorder.Model.SourceMap

/-!
# Compiled Yul objects

The source map of a standalone Yul object, made from the `begin` and `end` offsets
that solc's assembly JSON gives for each instruction. `tag` entries declare labels
and emit no bytes.
-/

namespace EvmRecorder

open Bytes Numeral

namespace Value

/-- `as_i64`; a number is a JSON literal, of which `-0` is no integer. -/
def asI64 : Value → Option Int
  | .number text =>
      if text.toList.head? = some '-' then do
        let n ← parseNat text.toList.tail
        if 0 < n ∧ n ≤ 2 ^ 63 then some (-(n : Int)) else none
      else do
        let n ← parseNat text.toList
        if n < 2 ^ 63 then some (n : Int) else none
  | _ => none

end Value

/-- `inst.get(key).and_then(|v| v.as_i64()).unwrap_or(0) as i32`. -/
def offsetField (inst : Value) (key : String) : Int32 :=
  Int32.ofInt (((inst.get key).bind Value.asI64).getD 0)

def jumpTypeOf : Option String → JumpType
  | some "[in]" => .into
  | some "[out]" => .outOf
  | _ => .regular

/-- The entry of an instruction that emits bytes. Yul has a single source file. -/
def synthesizeEntry (inst : Value) : SourceMapEntry :=
  let begin_ := offsetField inst "begin"
  let end_ := offsetField inst "end"
  { offset := begin_
    length := if end_ - begin_ < 0 then 0 else end_ - begin_
    fileIndex := 0
    jumpType := jumpTypeOf (inst.getStr "jumpType")
    modifierDepth := 0 }

/-- The loop over the instructions. -/
def synthesizeEntries : List Value → Except String (List SourceMapEntry)
  | [] => .ok []
  | inst :: rest =>
      match inst.getStr "name" with
      | none => .error "asm-json instruction missing \x60name\x60"
      | some name =>
          if name = "tag" then synthesizeEntries rest
          else do
            let entries ← synthesizeEntries rest
            .ok (synthesizeEntry inst :: entries)

def synthesizeSourceMap (asmCode : List Value) : Except String SourceMap := do
  let entries ← synthesizeEntries asmCode
  .ok ⟨entries⟩

/-! ## The output of solc -/

structure YulCompileOutput where
  deployBytecode : List UInt8
  runtimeSourceMap : SourceMap

/-- What is called outside. -/
structure YulHost where
  output : (solcCmd : String) → (args : List String) → Except String SolcOutput
  fromStr : String → Except String Value
  hexDecode : String → Except String (List UInt8)

/-- `r.context(text)`, shown by its outermost text. -/
def withContext {α : Type} (text : String) (r : Except String α) : Except String α :=
  r.mapError fun _ => text

@[simp] theorem withContext_eq_ok_iff {α : Type} {text : String} {r : Except String α} {x : α} :
    withContext text r = .ok x ↔ r = .ok x := by
  cases r <;> simp [withContext, Except.mapError]

/-- How a command ends early. -/
inductive Stop where
  | error (text : String)
  | panic
deriving DecidableEq, Repr

def stopped {α : Type} (r : Except String α) : Except Stop α := r.mapError .error

@[simp] theorem stopped_eq_ok_iff {α : Type} {r : Except String α} {x : α} :
    stopped r = .ok x ↔ r = .ok x := by
  cases r <;> simp [stopped, Except.mapError]

/-- `str::lines`; `current` is the beginning of the current line, backwards. -/
def linesLoop : List Char → List Char → List (List Char)
  | [], [] => []
  | current, [] => [current.reverse]
  | current, c :: rest =>
      if c = '\n' then
        (if current.head? = some '\r' then current.tail else current).reverse :: linesLoop [] rest
      else linesLoop (c :: current) rest

namespace Value

/-- The index a pointer's token means in an array. -/
def parseIndex (token : String) : Option Nat :=
  if token.toList.head? = some '+' || (token.toList.head? = some '0' && token.length ≠ 1) then none
  else parseUnsigned (2 ^ 64) token.toList

/-- `Value::pointer`, for a pointer given by its tokens. -/
def pointer : Value → List String → Option Value
  | v, [] => some v
  | .object fields, token :: rest => ((Value.object fields).get token).bind fun v => v.pointer rest
  | .array items, token :: rest =>
      ((parseIndex token).bind fun i => items[i]?).bind fun v => v.pointer rest
  | _, _ :: _ => none

end Value

def binaryMarker : String := "Binary representation:"

def assemblyMarker : String := "EVM assembly:"

/-- The text behind a marker. -/
def afterMarker (marker stdout : String) : Except String (List Char) :=
  okOr ("solc output missing \x60" ++ marker ++ "\x60 header")
    (Substrings.afterFirst marker.toList stdout.toList)

section Yul

variable (host : YulHost)

/-- The first line with something on it is the bytecode. -/
def parseBinaryRepresentation (stdout : String) : Except String (List UInt8) := do
  let after ← afterMarker binaryMarker stdout
  let hexLine ← okOr ("solc output: no hex line after \x60" ++ binaryMarker ++ "\x60")
    (((linesLoop [] after).map trim).find? fun line => !line.isEmpty)
  withContext "solc deploy bytecode is not valid hex" (host.hexDecode (String.ofList hexLine))

/-- The document begins with a brace and ends with its line. -/
def extractAsmJson (stdout : String) : Except String String := do
  let after ← afterMarker assemblyMarker stdout
  let afterBrace := after.dropWhile fun c => c ≠ '\x7b'
  if afterBrace.isEmpty then
    .error ("solc output: no \x60\x7b\x60 after \x60" ++ assemblyMarker ++ "\x60")
  else .ok (String.ofList (trim (afterBrace.takeWhile fun c => c ≠ '\n')))

def compileYul (solcCmd yulFile : String) : Except String YulCompileOutput := do
  let output ← withContext ("failed to run solc (" ++ solcCmd ++ ") in --strict-assembly mode")
    (host.output solcCmd ["--strict-assembly", "--bin", "--asm-json", yulFile])
  if output.success then
    let stdout ← withContext "solc output is not valid UTF-8" (fromUtf8 output.stdout)
    let deployBytecode ← parseBinaryRepresentation host stdout
    let asmJsonStr ← extractAsmJson stdout
    let asm ← withContext "solc --asm-json output is not valid JSON" (host.fromStr asmJsonStr)
    let runtimeCode ← okOr
      "solc --asm-json output missing the runtime \x60.data[\"0\"][\".code\"]\x60 array"
      ((asm.pointer [".data", "0", ".code"]).bind Value.asArray)
    let runtimeSourceMap ← synthesizeSourceMap runtimeCode
    pure { deployBytecode, runtimeSourceMap }
  else
    .error ("solc --strict-assembly compilation failed:\nstdout: " ++
      fromUtf8Lossy output.stdout ++ "\nstderr: " ++ fromUtf8Lossy output.stderr)

end Yul

end EvmRecorder
