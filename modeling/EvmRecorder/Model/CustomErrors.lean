import EvmRecorder.Model.RevertDecode
import EvmRecorder.Model.SolidityJson

/-!
# Custom errors of an ABI

`CustomErrorRegistry::from_abi`: the error entries of a JSON ABI by their selectors. The
hash of a signature is a parameter.
-/

namespace EvmRecorder.RevertDecode

open Bytes

/-- `Name(t1,t2,...)`. -/
def CustomErrorDef.signature (self : CustomErrorDef) : String :=
  self.name ++ "(" ++ String.intercalate "," self.paramTypes ++ ")"

/-- `HashMap::insert`; the newest entry of a selector is found first. -/
def CustomErrorRegistry.insert (self : CustomErrorRegistry) (selector : List UInt8)
    (d : CustomErrorDef) : CustomErrorRegistry := ⟨(selector, d) :: self.bySelector⟩

/-- The definition of an entry of type `error`; entries without a name are skipped. -/
def errorOfEntry (item : Value) : Option CustomErrorDef :=
  if (item.getStr "type").getD "" ≠ "error" then none
  else do
    let name ← item.getStr "name"
    let inputs := (item.getArray "inputs").getD []
    some {
      name
      paramTypes := inputs.map fun p => (p.getStr "type").getD ""
      paramNames := inputs.map fun p => (p.getStr "name").getD "" }

section FromAbi

variable (keccak256 : List UInt8 → U256)

def keccakSelector (signature : List UInt8) : List UInt8 :=
  (wordBytes (keccak256 signature)).take 4

/-- The loop over the entries. -/
def insertErrors : CustomErrorRegistry → List Value → CustomErrorRegistry
  | registry, [] => registry
  | registry, item :: rest =>
      match errorOfEntry item with
      | some d => insertErrors (registry.insert (keccakSelector keccak256 (utf8 d.signature)) d) rest
      | none => insertErrors registry rest

def CustomErrorRegistry.fromAbi (abi : List Value) : CustomErrorRegistry :=
  insertErrors keccak256 {} abi

end FromAbi

end EvmRecorder.RevertDecode
