import EvmRecorder.Library.Bytes
import EvmRecorder.Model.SolidityJson

/-!
# Call data

The call data of the command line: a signature and default arguments for the function
that is called, and default arguments for the constructor.
-/

namespace EvmRecorder

open Numeral

/-- `[0u8; 32]` with its last byte set to `b`. -/
def lastByteSet (b : UInt8) : List UInt8 := (List.replicate 32 0).set 31 b

def encodeDefaultArgValue (ty : String) : Option (List UInt8) :=
  if "uint".toList.isPrefixOf ty.toList || "int".toList.isPrefixOf ty.toList then
    some (lastByteSet 7)
  else if ty = "bool" ∨ ty = "address" ∨ ty = "address payable" then some (List.replicate 32 0)
  else
    match stripPrefix "bytes".toList ty.toList with
    | some rest =>
        match parseUnsigned (2 ^ 32) rest with
        | some n => if 1 ≤ n ∧ n ≤ 32 then some (List.replicate 32 0) else none
        | none => none
    | none => none

/-- The loop over the parameters. -/
def encodeArgs (functionName : String) : Nat → List String → Except String (List UInt8)
  | _, [] => .ok []
  | idx, ty :: rest =>
      match encodeDefaultArgValue ty with
      | some bytes => do
          let encoded ← encodeArgs functionName (idx + 1) rest
          .ok (bytes ++ encoded)
      | none => .error <|
          "function \x60" ++ functionName ++ "\x60 parameter #" ++ Nat.repr idx ++ " has type \x60" ++
            ty ++ "\x60 for which the CLI cannot synthesise a default value; pass a parameterless " ++
            "wrapper as the entry-point"

/-- The `type` of a parameter. -/
def parameterType (p : Value) : String := (p.getStr "type").getD ""

def isFunctionNamed (functionName : String) (item : Value) : Bool :=
  item.getStr "type" = some "function" && item.getStr "name" = some functionName

def buildCallSignatureAndArgs (abi : List Value) (functionName : String) :
    Except String (String × List UInt8) := do
  let entry := abi.find? (isFunctionNamed functionName)
  let inputs := (entry.bind (·.getArray "inputs")).getD []
  let typeList := inputs.map parameterType
  let signature := functionName ++ "(" ++ String.intercalate "," typeList ++ ")"
  let encoded ← encodeArgs functionName 0 typeList
  .ok (signature, encoded)

def encodeConstructorArgs (abi : List Value) (contractName : String) :
    Except String (List UInt8) :=
  match abi.find? fun item => item.getStr "type" = some "constructor" with
  | none => .ok []
  | some constructor =>
      match (constructor.getArray "inputs").getD [] with
      | [] => .ok []
      | input :: inputs =>
          if inputs = [] ∧ "uint".toList.isPrefixOf (parameterType input).toList then
            .ok (lastByteSet 10)
          else .error <|
            "constructor for " ++ contractName ++ " has " ++ Nat.repr (input :: inputs).length ++
              " argument(s) with types that the CLI cannot automatically encode. Please simplify " ++
              "the constructor or provide a no-argument factory function."

end EvmRecorder
