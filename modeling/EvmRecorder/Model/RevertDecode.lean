import EvmRecorder.Library.Bytes

/-!
# Revert payloads

Decoding of the return data of a reverted call: `Error(string)`,
`Panic(uint256)`, custom errors known to a registry, and a hexadecimal dump of
anything else.
-/

namespace EvmRecorder.RevertDecode

open Bytes

structure DecodedRevert where
  kind : String
  message : String
deriving DecidableEq, Repr

/-- `keccak256("Error(string)")[0..4]`. -/
def errorStringSelector : List UInt8 := [0x08, 0xc3, 0x79, 0xa0]

/-- `keccak256("Panic(uint256)")[0..4]`. -/
def panicUint256Selector : List UInt8 := [0x4e, 0x48, 0x7b, 0x71]

structure CustomErrorDef where
  name : String
  paramTypes : List String
  paramNames : List String
deriving DecidableEq, Repr

/-- Custom errors by the four bytes of their selector. -/
structure CustomErrorRegistry where
  bySelector : List (List UInt8 × CustomErrorDef) := []
deriving DecidableEq, Repr

def CustomErrorRegistry.get (self : CustomErrorRegistry) (selector : List UInt8) :
    Option CustomErrorDef := self.bySelector.lookup selector

/-- `None` when one of the first 24 bytes is set. -/
def u256ToUsize (bytes : List UInt8) : Option Nat :=
  if (bytes.take 24).any (· ≠ 0) then none else some (beNat (bytes.drop 24))

def decodeErrorStringPayload (payload : List UInt8) : Option String :=
  if payload.length < 64 then none
  else do
    let offset ← u256ToUsize (payload.take 32)
    if payload.length < offset then none
    else
      let afterOffset := payload.drop offset
      if afterOffset.length < 32 then none
      else
        let length ← u256ToUsize (afterOffset.take 32)
        let body := afterOffset.drop 32
        if body.length < length then none
        else some (fromUtf8Lossy (body.take length))

/-- `&bytes[start..stop]`, none when the range does not lie in the slice. -/
def sliceRange (bytes : List UInt8) (start stop : Nat) : Option (List UInt8) :=
  if start ≤ stop ∧ stop ≤ bytes.length then some ((bytes.drop start).take (stop - start)) else none

/-- `decode_error_string_payload` with its slices checked: the outer option is none where a
slice is out of range and the code panics. -/
def decodeErrorStringPayloadChecked (payload : List UInt8) : Option (Option String) :=
  if payload.length < 64 then some none
  else do
    let offsetBytes ← sliceRange payload 0 32
    match u256ToUsize offsetBytes with
    | none => some none
    | some offset =>
        if payload.length < offset then some none
        else do
          let afterOffset ← sliceRange payload offset payload.length
          if afterOffset.length < 32 then some none
          else do
            let lenBytes ← sliceRange afterOffset 0 32
            match u256ToUsize lenBytes with
            | none => some none
            | some length => do
                let body ← sliceRange afterOffset 32 afterOffset.length
                if body.length < length then some none
                else do
                  let bytes ← sliceRange body 0 length
                  some (some (fromUtf8Lossy bytes))

def panicMnemonic (code : UInt8) : Option String :=
  match code.toNat with
  | 0x00 => some "generic"
  | 0x01 => some "assert(false)"
  | 0x11 => some "arithmetic over/underflow"
  | 0x12 => some "division or modulo by zero"
  | 0x21 => some "invalid enum conversion"
  | 0x22 => some "storage byte array access"
  | 0x31 => some "pop on empty array"
  | 0x32 => some "out-of-bounds array access"
  | 0x41 => some "memory allocation overflow"
  | 0x51 => some "uninitialized internal function call"
  | _ => none

def renderArgWord (bytes : List UInt8) (ty : String) : String :=
  let t := ty.toList
  if "uint".toList.isPrefixOf t || "int".toList.isPrefixOf t then
    String.ofList (Numeral.printNat (beNat bytes))
  else if ty = "address" ∨ ty = "address payable" then
    "0x" ++ String.ofList (hexBytes (bytes.drop 12))
  else if ty = "bool" then (if bytes.any (· ≠ 0) then "true" else "false")
  else if ty = "string" ∨ ty = "bytes" ∨ "]".toList.isSuffixOf t then "<dynamic>"
  else "0x" ++ String.ofList (hexBytes bytes)

/-- The argument words from parameter `idx` on; stops where the payload ends. -/
def decodeArgsFrom (payload : List UInt8) (paramNames : List String) :
    Nat → List String → List String
  | _, [] => []
  | idx, ty :: rest =>
      let slotOff := idx * 32
      if payload.length < slotOff + 32 then []
      else
        let rendered := renderArgWord ((payload.drop slotOff).take 32) ty
        let name := paramNames[idx]?.getD ""
        (if name.isEmpty then rendered else name ++ "=" ++ rendered) ::
          decodeArgsFrom payload paramNames (idx + 1) rest

def decodeCustomErrorArgs (payload : List UInt8) (paramTypes paramNames : List String) :
    List String := decodeArgsFrom payload paramNames 0 paramTypes

def revertRaw (output : List UInt8) : DecodedRevert :=
  ⟨"RevertRaw", "0x" ++ String.ofList (hexBytes output)⟩

def decodeRevertWithRegistry (output : List UInt8) (registry : CustomErrorRegistry) :
    DecodedRevert :=
  if output.isEmpty then ⟨"RevertEmpty", ""⟩
  else if 4 ≤ output.length then
    let selector := output.take 4
    let payload := output.drop 4
    if selector = errorStringSelector then
      match decodeErrorStringPayload payload with
      | some msg => ⟨"Revert", msg⟩
      | none => revertRaw output
    else if selector = panicUint256Selector ∧ 32 ≤ payload.length then
      let code := payload[31]?.getD 0
      let hex := "panic 0x" ++ String.ofList (hexByte code)
      ⟨"Panic", match panicMnemonic code with
        | some m => hex ++ " (" ++ m ++ ")"
        | none => hex⟩
    else match registry.get selector with
      | some d =>
          let args := decodeCustomErrorArgs payload d.paramTypes d.paramNames
          ⟨"CustomError",
            if args.isEmpty then d.name ++ "()"
            else d.name ++ "(" ++ String.intercalate ", " args ++ ")"⟩
      | none => revertRaw output
  else revertRaw output

def decodeRevert (output : List UInt8) : DecodedRevert := decodeRevertWithRegistry output {}

end EvmRecorder.RevertDecode
