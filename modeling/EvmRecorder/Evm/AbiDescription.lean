import EvmRecorder.Library.AbiTypes
import EvmRecorder.Model.SolidityJson

/-!
# Interfaces as the compiler describes them

The JSON description of parameters and of errors: structs have the type `tuple`, with
array brackets behind it, and their members among the components.
-/

namespace EvmRecorder

inductive DescribesType : Value → AbiType → Prop where
  | plain {v : Value} {t : AbiType} (htype : v.getStr "type" = some t.jsonName)
      (h : t.base.isTuple = false) : DescribesType v t
  | struct {v : Value} {t first : AbiType} {rest : List AbiType} {components : List Value}
      (htype : v.getStr "type" = some t.jsonName) (hbase : t.base = .tuple first rest)
      (hcomponents : v.getArray "components" = some components)
      (h : List.Forall₂ DescribesType components (first :: rest)) : DescribesType v t

structure AbiParam where
  name : String
  type : AbiType

structure DescribesParam (v : Value) (p : AbiParam) : Prop where
  name : v.getStr "name" = some p.name
  type : DescribesType v p.type

/-- Identifiers are made of letters, digits, underscores and dollars. -/
def isIdentifierChar (c : Char) : Bool := c.isAlphanum || c = '_' || c = '$'

structure AbiError where
  name : String
  inputs : List AbiParam
  isIdentifier : name.toList.all isIdentifierChar = true

structure DescribesError (item : Value) (e : AbiError) : Prop where
  type : item.getStr "type" = some "error"
  name : item.getStr "name" = some e.name
  inputs : ∃ inputs, item.getArray "inputs" = some inputs ∧
    List.Forall₂ DescribesParam inputs e.inputs

/-- An entry is that of an error, or it has another type. -/
def DescribesEntry (item : Value) : Option AbiError → Prop
  | some e => DescribesError item e
  | none => item.getStr "type" ≠ some "error"

/-- An entry of an interface. -/
inductive AbiEntry where
  | function (name : String) (inputs : List AbiParam)
  | constructor (inputs : List AbiParam)
  | other

def DescribesInputs (item : Value) (inputs : List AbiParam) : Prop :=
  ∃ values, item.getArray "inputs" = some values ∧ List.Forall₂ DescribesParam values inputs

def DescribesAbiEntry (item : Value) : AbiEntry → Prop
  | .function name inputs => item.getStr "type" = some "function" ∧
      item.getStr "name" = some name ∧ DescribesInputs item inputs
  | .constructor inputs => item.getStr "type" = some "constructor" ∧ DescribesInputs item inputs
  | .other => item.getStr "type" ≠ some "function" ∧ item.getStr "type" ≠ some "constructor"

/-- The parameters of the first function of this name; there are none without one. -/
def functionInputs (name : String) : List AbiEntry → List AbiParam
  | [] => []
  | .function name' inputs :: rest => if name' = name then inputs else functionInputs name rest
  | _ :: rest => functionInputs name rest

def constructorInputs : List AbiEntry → List AbiParam
  | [] => []
  | .constructor inputs :: _ => inputs
  | _ :: rest => constructorInputs rest

def functionTypes (name : String) (entries : List AbiEntry) : List AbiType :=
  (functionInputs name entries).map AbiParam.type

def constructorTypes (entries : List AbiEntry) : List AbiType :=
  (constructorInputs entries).map AbiParam.type

theorem DescribesType.getStr_type {v : Value} {t : AbiType} (h : DescribesType v t) :
    v.getStr "type" = some t.jsonName := by
  cases h with
  | plain htype _ => exact htype
  | struct htype _ _ _ => exact htype

/-- Descriptions and what they describe have the same images. -/
theorem map_eq_of_forall₂ {α β γ : Type*} {R : α → β → Prop} {f : α → γ} {g : β → γ}
    (hfg : ∀ a b, R a b → f a = g b) : ∀ {as : List α} {bs : List β}, List.Forall₂ R as bs →
      as.map f = bs.map g
  | _, _, .nil => rfl
  | _, _, .cons hab h => congrArg₂ List.cons (hfg _ _ hab) (map_eq_of_forall₂ hfg h)

end EvmRecorder
