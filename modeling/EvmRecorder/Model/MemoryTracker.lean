import EvmRecorder.Library.Bytes
import EvmRecorder.Model.SolidityAst

/-!
# The memory tracker

Regions of EVM memory allocated for reference-typed locals, found by watching
stores to the free memory pointer at `0x40`. `u64` additions wrap, as in a
release build.
-/

namespace EvmRecorder

open Bytes

structure MemAssignment where
  name : String
  memoryOffset : Nat
  size : Nat
deriving DecidableEq, Repr

structure MemRegion where
  name : String
  typeName : String
  baseOffset : Nat
  sizeInBytes : Nat
deriving DecidableEq, Repr

def freeMemoryPointerOffset : Nat := 0x40

def initialFreeMemoryPointer : Nat := 0x80

/-- Bytes in a memory word. -/
def word : Nat := 32

/-- `u64` addition. -/
def addU64 (a b : Nat) : Nat := (a + b) % 2 ^ 64

def u256ToU64Saturating (v : U256) : Nat := min v.toNat (2 ^ 64 - 1)

/-- The 32-byte word at `offset`, zero-padded at the end of the snapshot. -/
def readWord (memory : List UInt8) (offset : Nat) : Option U256 :=
  if memory.isEmpty && offset ≠ 0 then none
  else if memory.length ≤ offset then some 0
  else
    let avail := (memory.drop offset).take word
    some (wordOfBytes (avail ++ List.replicate (word - avail.length) 0))

/-- Memory-resident variable whose ranges contain `offset`; priority as in
`label_for_push`. -/
def pickVarForOffset (offset : Int32) (varsInScope : List VarDecl) : Option VarDecl :=
  (varsInScope.find? fun v => v.isMemoryResident && v.declarationOffset = offset).orElse fun _ =>
    (varsInScope.find? fun v => v.isMemoryResident && v.src.containsOffset offset).orElse fun _ =>
      varsInScope.find? fun v => v.isMemoryResident && v.statementContains offset

structure MemoryTracker where
  regions : List MemRegion := []
  lastFmp : Nat := initialFreeMemoryPointer
deriving DecidableEq, Repr

namespace MemoryTracker

def new : MemoryTracker := {}

/-- The region registered last under `name`. -/
def region (self : MemoryTracker) (name : String) : Option MemRegion :=
  self.regions.reverse.find? (·.name = name)

def isAlreadyRegistered (self : MemoryTracker) (name : String) : Bool :=
  self.regions.any (·.name = name)

/-- Cache the low 8 bytes of the free memory pointer word, if captured. -/
def observeMemory (self : MemoryTracker) (memory : List UInt8) : MemoryTracker :=
  if memory.length < freeMemoryPointerOffset + word then self
  else { self with lastFmp := beNat ((memory.drop (freeMemoryPointerOffset + word - 8)).take 8) }

def handleFmpBump (self : MemoryTracker) (prevFmp newFmp : Nat) (sourceOffset : Option Int32)
    (varsInScope : List VarDecl) : MemoryTracker :=
  if newFmp ≤ prevFmp then self
  else
    let candidate := (sourceOffset.bind (pickVarForOffset · varsInScope)).orElse fun _ =>
      varsInScope.reverse.find? fun v => v.isMemoryResident && !self.isAlreadyRegistered v.name
    match candidate with
    | some v =>
        if self.isAlreadyRegistered v.name then self
        else { self with
          regions := self.regions ++ [⟨v.name, v.typeName, prevFmp, newFmp - prevFmp⟩] }
    | none => self

/-- `MSTORE offset, value`: the top of the pre-stack is the offset. -/
def handleMstore (self : MemoryTracker) (sourceOffset : Option Int32)
    (varsInScope : List VarDecl) (preStack : List U256) (prevFmp : Nat) :
    MemoryTracker × List MemAssignment :=
  match preStack.reverse with
  | destWord :: value :: _ =>
      let dest := u256ToU64Saturating destWord
      if dest = freeMemoryPointerOffset then
        (self.handleFmpBump prevFmp (u256ToU64Saturating value) sourceOffset varsInScope, [])
      else
        let hit := self.regions.find? fun r =>
          r.baseOffset ≤ dest && addU64 dest word ≤ addU64 r.baseOffset r.sizeInBytes
        (self, (hit.map fun r => ⟨r.name, dest, word⟩).toList)
  | _ => (self, [])

def handleMstore8 (self : MemoryTracker) (preStack : List U256) : List MemAssignment :=
  match preStack.reverse with
  | destWord :: _ :: _ =>
      let dest := u256ToU64Saturating destWord
      let hit := self.regions.find? fun r =>
        r.baseOffset ≤ dest && dest < addU64 r.baseOffset r.sizeInBytes
      (hit.map fun r => ⟨r.name, dest, 1⟩).toList
  | _ => []

/-- One opcode step against the memory and stack before it. -/
def processStep (self : MemoryTracker) (opcode : UInt8) (sourceOffset : Option Int32)
    (varsInScope : List VarDecl) (preStack : List U256) (preMemory : List UInt8) :
    MemoryTracker × List MemAssignment :=
  let prevFmp := self.lastFmp
  let self := self.observeMemory preMemory
  if opcode = 0x52 then self.handleMstore sourceOffset varsInScope preStack prevFmp
  else if opcode = 0x53 then (self, self.handleMstore8 preStack)
  else (self, [])

def getVariableValue (self : MemoryTracker) (name : String) (memory : List UInt8) :
    Option U256 := do
  let region ← self.region name
  readWord memory region.baseOffset

def getFieldValue (self : MemoryTracker) (name : String) (fieldOffset : Nat)
    (memory : List UInt8) : Option U256 := do
  let region ← self.region name
  if region.sizeInBytes < addU64 fieldOffset word then none
  else readWord memory (addU64 region.baseOffset fieldOffset)

/-- The header words of all regions, as far as the snapshot has any words. -/
def allVariableValues (self : MemoryTracker) (memory : List UInt8) : List (String × U256) :=
  self.regions.filterMap fun r => (readWord memory r.baseOffset).map fun v => (r.name, v)

end MemoryTracker

end EvmRecorder
