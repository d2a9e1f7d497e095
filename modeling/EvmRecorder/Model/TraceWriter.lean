import EvmRecorder.Library.Bytes
import EvmRecorder.Model.SourceMap
import Mathlib.Data.List.AList

/-!
# The trace writer's interface

The calls the recorder makes to the trace writer, as a list of events in the
order they are issued, and the values they carry. Type and function ids are
handed out by the writer; they are kept symbolic as the request they answer.
-/

namespace EvmRecorder

/-- A file path by its components, which is how paths are compared. -/
structure Path where
  components : List String
deriving DecidableEq, Repr

inductive TypeKind where
  | int
  | bool
  | string
  | seq
  | raw
  | struct
  | array
deriving DecidableEq, Repr

structure TypeId where
  kind : TypeKind
  name : String
deriving DecidableEq, Repr

structure FunctionId where
  name : String
  path : Path
  line : Nat
deriving DecidableEq, Repr

/-- `ValueRecord::Raw`; the members of a struct or sequence are always raw. -/
structure RawValue where
  r : String
  typeId : TypeId
deriving DecidableEq, Repr

inductive ValueRecord where
  | raw (value : RawValue)
  | int (i : Nat) (typeId : TypeId)
  | struct (fieldValues : List RawValue) (typeId : TypeId)
  | sequence (elements : List RawValue) (isSlice : Bool) (typeId : TypeId)
deriving DecidableEq, Repr

inductive EventLogKind where
  | error
  | evmEvent
deriving DecidableEq, Repr

inductive TraceEvent where
  | start (path : Path) (line : Nat)
  | ensureTypeId (typeId : TypeId)
  | ensureFunctionId (functionId : FunctionId)
  | registerPathWithLineLengths (path : Path) (lineLengths : List Nat)
  | registerStepWithColumn (path : Path) (line : Nat) (column : Nat)
  | registerVariableWithFullValue (name : String) (value : ValueRecord)
  | arg (name : String) (value : ValueRecord)
  | registerCall (functionId : FunctionId)
  | registerReturn (value : ValueRecord)
  | registerSpecialEvent (kind : EventLogKind) (metadata content : String)
deriving DecidableEq, Repr

/-! ## Hash maps

Only lookups, insertions and, for the variable cache, one pass over all entries
are made; the order of that pass is unspecified. -/

abbrev NamedValues : Type := AList fun _ : String => ValueRecord

/-- Keyed by `u64` slot. -/
abbrev SlotValues : Type := AList fun _ : Nat => U256

/-- Keyed by 256-bit slot. -/
abbrev MappingSlotNames : Type := AList fun _ : U256 => String

end EvmRecorder
