import EvmRecorder.Library.Bytes
import EvmRecorder.Library.Stack
import EvmRecorder.Model.SolidityAst

/-!
# The symbolic stack tracker

A vector of labels kept in parallel with the EVM stack, bottom to top: each
slot is anonymous or carries a variable name.
-/

namespace EvmRecorder

open Stack

structure VarAssignment where
  name : String
  stackPosition : Nat
deriving DecidableEq, Repr

structure StackTracker where
  slots : List (Option String) := []
deriving DecidableEq, Repr

/-! ## §1  The effect of an opcode -/

/-- What one arm of the opcode match does to the slots. -/
inductive SlotEffect where
  /-- `pop_n` followed by that many `push_anon` -/
  | anon (pops pushes : Nat)
  /-- a PUSH, whose slot may get a label -/
  | push
  | dup (n : Nat)
  | swap (n : Nat)
deriving DecidableEq, Repr

/-- The opcode match of `process_step`, arm by arm. -/
def slotEffect (opcode : UInt8) : SlotEffect :=
  let o := opcode.toNat
  if o = 0x00 then .anon 0 0
  else if (0x01 ≤ o ∧ o ≤ 0x07) ∨ o = 0x0a ∨ o = 0x0b then .anon 2 1
  else if o = 0x08 ∨ o = 0x09 then .anon 3 1
  else if 0x10 ≤ o ∧ o ≤ 0x14 then .anon 2 1
  else if o = 0x15 then .anon 1 1
  else if 0x16 ≤ o ∧ o ≤ 0x18 then .anon 2 1
  else if o = 0x19 then .anon 1 1
  else if o = 0x1a then .anon 2 1
  else if 0x1b ≤ o ∧ o ≤ 0x1d then .anon 2 1
  else if o = 0x20 then .anon 2 1
  else if o = 0x30 then .anon 0 1
  else if o = 0x31 then .anon 1 1
  else if 0x32 ≤ o ∧ o ≤ 0x34 then .anon 0 1
  else if o = 0x35 then .anon 1 1
  else if o = 0x36 ∨ o = 0x38 then .anon 0 1
  else if o = 0x37 ∨ o = 0x39 then .anon 3 0
  else if o = 0x3a then .anon 0 1
  else if o = 0x3b then .anon 1 1
  else if o = 0x3c then .anon 4 0
  else if o = 0x3d then .anon 0 1
  else if o = 0x3e then .anon 3 0
  else if o = 0x3f then .anon 1 1
  else if o = 0x40 then .anon 1 1
  else if (0x41 ≤ o ∧ o ≤ 0x48) ∨ o = 0x4a then .anon 0 1
  else if o = 0x49 then .anon 1 1
  else if o = 0x50 then .anon 1 0
  else if o = 0x51 then .anon 1 1
  else if o = 0x52 ∨ o = 0x53 then .anon 2 0
  else if o = 0x54 then .anon 1 1
  else if o = 0x55 then .anon 2 0
  else if o = 0x56 then .anon 1 0
  else if o = 0x57 then .anon 2 0
  else if 0x58 ≤ o ∧ o ≤ 0x5a then .anon 0 1
  else if o = 0x5b then .anon 0 0
  else if o = 0x5c then .anon 1 1
  else if o = 0x5d then .anon 2 0
  else if o = 0x5e then .anon 3 0
  else if o = 0x5f then .push
  else if 0x60 ≤ o ∧ o ≤ 0x7f then .push
  else if 0x80 ≤ o ∧ o ≤ 0x8f then .dup (o - 0x80 + 1)
  else if 0x90 ≤ o ∧ o ≤ 0x9f then .swap (o - 0x90 + 1)
  else if 0xa0 ≤ o ∧ o ≤ 0xa4 then .anon (2 + (o - 0xa0)) 0
  else if o = 0xf0 then .anon 3 1
  else if o = 0xf1 ∨ o = 0xf2 then .anon 7 1
  else if o = 0xf3 ∨ o = 0xfd then .anon 2 0
  else if o = 0xf4 ∨ o = 0xfa then .anon 6 1
  else if o = 0xf5 then .anon 4 1
  else if o = 0xff then .anon 1 0
  else .anon 0 0

/-! ## §2  The tracker -/

namespace StackTracker

def new : StackTracker := {}

def reset (_self : StackTracker) : StackTracker := {}

def depth (self : StackTracker) : Nat := self.slots.length

/-- Anonymous slots up to `stackDepth`, the top ones labelled left to right,
unless there are more labels than slots. -/
def seedTopLabels (_self : StackTracker) (stackDepth : Nat) (labels : List String) :
    StackTracker :=
  if labels.isEmpty || stackDepth < labels.length then ⟨List.replicate stackDepth none⟩
  else ⟨List.replicate (stackDepth - labels.length) none ++ labels.map some⟩

def hasLabel (slots : List (Option String)) (name : String) : Bool :=
  slots.any (· = some name)

/-- The label `n` positions from the top (1 = top). -/
def peekFromTop (slots : List (Option String)) (n : Nat) : Option String :=
  if n = 0 ∨ slots.length < n then none else (slots[slots.length - n]?).getD none

/-- Priority: exact declaration offset, declaration range, statement range. -/
def labelForPush (sourceOffset : Option Int32) (varsInScope : List VarDecl) : Option String :=
  sourceOffset.bind fun offset =>
    ((varsInScope.find? (·.declarationOffset = offset)).orElse fun _ =>
      (varsInScope.find? (·.src.containsOffset offset)).orElse fun _ =>
        varsInScope.find? (·.statementContains offset)).map (·.name)

/-- The opcode match: new slots and the assignments it reports. -/
def execOpcode (slots : List (Option String)) (opcode : UInt8) (sourceOffset : Option Int32)
    (varsInScope : List VarDecl) : List (Option String) × List VarAssignment :=
  match slotEffect opcode with
  | .anon pops pushes => (popN slots pops ++ List.replicate pushes none, [])
  | .push =>
      let label := labelForPush sourceOffset varsInScope
      (slots ++ [label], label.toList.map fun name => ⟨name, slots.length⟩)
  | .dup n => (slots ++ [peekFromTop slots n], [])
  | .swap n => (swapTop slots n, [])

/-- One round of the recovery loop: a variable whose statement contains the
offset and that has no slot takes over the top slot. -/
def recoverLabel (offset : Int32) (acc : List (Option String) × List VarAssignment)
    (v : VarDecl) : List (Option String) × List VarAssignment :=
  if v.statementContains offset && !hasLabel acc.1 v.name && !acc.1.isEmpty then
    (acc.1.set (acc.1.length - 1) (some v.name),
      acc.2 ++ [⟨v.name, acc.1.length - 1⟩])
  else acc

/-- One opcode step, with the assignments it detects. The program counter of
the source's signature is unused there. -/
def processStep (self : StackTracker) (opcode : UInt8) (sourceOffset : Option Int32)
    (varsInScope : List VarDecl) : StackTracker × List VarAssignment :=
  let acc := execOpcode self.slots opcode sourceOffset varsInScope
  let acc := match sourceOffset with
    | some offset => varsInScope.foldl (recoverLabel offset) acc
    | none => acc
  (⟨acc.1⟩, acc.2)

/-- The concrete word at the topmost slot labelled `name`. -/
def getVariableValue (self : StackTracker) (name : String) (actualStack : List U256) :
    Option U256 := do
  let pos ← rposition (· = some name) self.slots
  actualStack[pos]?

/-- The walk over the slots with their positions; `seen` holds the names met so far. -/
def visibleValues (actualStack : List U256) :
    List (Option String × Nat) → List String → List (String × U256)
  | [], _ => []
  | (none, _) :: rest, seen => visibleValues actualStack rest seen
  | (some name, pos) :: rest, seen =>
      if name ∈ seen then visibleValues actualStack rest seen
      else match actualStack[pos]? with
        | some val => (name, val) :: visibleValues actualStack rest (name :: seen)
        | none => visibleValues actualStack rest (name :: seen)

/-- Top to bottom, so that the first occurrence of a name is the active one. -/
def allVariableValues (self : StackTracker) (actualStack : List U256) : List (String × U256) :=
  visibleValues actualStack self.slots.zipIdx.reverse []

end StackTracker

end EvmRecorder
