import EvmRecorder.Model.MemoryTracker
import EvmRecorder.Model.RevertDecode
import EvmRecorder.Model.StackTracker
import EvmRecorder.Model.StorageLayout
import EvmRecorder.Model.StructLog
import EvmRecorder.Model.TraceWriter

/-!
# What the two recorders share

The helper functions of the recorder, and the blocks its single-contract and
its multi-contract loop have in common, each as a function of the artifacts and
the per-frame state the loop at hand passes in.
-/

namespace EvmRecorder

open Stack Bytes Numeral

/-! ## §1  Artifacts of the executing contract -/

/-- Source map, sources, layout and AST in use at a log. -/
structure Artifacts where
  sourceMap : Option SourceMap := none
  pcToIdx : List Nat := []
  sourcePaths : List Path := []
  sourceContents : List String := []
  storageLayout : Option StorageLayout := none
  solidityAst : Option SolidityAst := none

namespace Artifacts

def entryForPc (self : Artifacts) (pc : Nat) : Option SourceMapEntry :=
  self.sourceMap.bind (·.getEntryForPc pc self.pcToIdx)

def resolvePc (self : Artifacts) (pc : Nat) : Option SourceLocation :=
  self.sourceMap.bind (·.resolvePc pc self.pcToIdx self.sourceContents)

/-- The offset of the entry for `pc`, unless compiler-generated. -/
def sourceOffset (self : Artifacts) (pc : Nat) : Option Int32 :=
  ((self.entryForPc pc).filter fun e => 0 ≤ e.fileIndex).map (·.offset)

/-- The path of a file, by default the main path. -/
def pathOf (self : Artifacts) (mainPath : Path) (fileIndex : Int32) : Path :=
  self.sourcePaths[asUsize fileIndex]?.getD mainPath

end Artifacts

/-! ## §2  Types and values -/

def startsWith (s : String) (pattern : String) : Bool := pattern.toList.isPrefixOf s.toList

def typeKindForSolidityType (typeName : String) : TypeKind :=
  if typeName = "bool" then .bool
  else if typeName = "string" then .string
  else if typeName = "bytes" then .seq
  else if typeName = "address" ∨ typeName = "address payable" then .raw
  else if startsWith typeName "bytes" then .raw
  else if startsWith typeName "uint" || startsWith typeName "int" then .int
  else if startsWith typeName "enum " then .int
  else .raw

def uint256TypeId : TypeId := ⟨.int, "uint256"⟩

/-- The value of every registered return. -/
def returnValue : ValueRecord := .raw ⟨"0x", uint256TypeId⟩

def valueRecordForLocal (value : U256) (typeName : String) (typeId : TypeId) : ValueRecord :=
  if typeKindForSolidityType typeName = .int && value.toNat < 2 ^ 63 then .int value.toNat typeId
  else .raw ⟨hexWord value, typeId⟩

/-! ## §3  Line tables and steps -/

/-- The loop over the bytes; `i` is the index of the next one. Lengths are cast
to `u32`. -/
def lineLengthsLoop : List UInt8 → Nat → Nat → List Nat
  | [], i, lineStart => if lineStart < i then [(i - lineStart) % 2 ^ 32] else []
  | b :: rest, i, lineStart =>
      if b = 0x0a then ((i - lineStart) % 2 ^ 32) :: lineLengthsLoop rest (i + 1) (i + 1)
      else lineLengthsLoop rest (i + 1) lineStart

def computeLineLengths (source : String) : List Nat := lineLengthsLoop (utf8Bytes source) 0 0

/-- `registered` is the recorder's `paths_with_line_lengths` set. -/
def ensurePathWithLineLengths (registered : List Path) (path : Path) (source : String) :
    List Path × List TraceEvent :=
  if path ∈ registered then (registered, [])
  else (path :: registered, [.registerPathWithLineLengths path (computeLineLengths source)])

/-- The step's location differs from the previous one in file or line. -/
def lineChanged (prevLine : Option SourceLocation) (loc : SourceLocation) : Bool :=
  prevLine.map (fun p => (p.fileIndex, p.line)) ≠ some (loc.fileIndex, loc.line)

/-- The cached variables re-emitted at `loc`: all of them at a step that changes
the line, none otherwise. The source walks a hash map; here the entries are walked as they
are listed, in `Model.MapOrders` in any order. -/
def carriedForward (prevLine : Option SourceLocation) (loc : SourceLocation)
    (storageState : NamedValues) : List (String × ValueRecord) :=
  if prevLine ≠ some loc && lineChanged prevLine loc then
    storageState.entries.map fun e => (e.1, e.2)
  else []

/-- A step event when the location changed: the path's line table on first
contact, the step, then the carried-forward variables. -/
def emitStep (a : Artifacts) (mainPath : Path) (registered : List Path)
    (prevLine : Option SourceLocation) (loc : SourceLocation) (storageState : NamedValues) :
    List Path × List TraceEvent :=
  if prevLine = some loc then (registered, [])
  else
    let stepPath := a.pathOf mainPath loc.fileIndex
    let reg := match a.sourceContents[asUsize loc.fileIndex]? with
      | some src => ensurePathWithLineLengths registered stepPath src
      | none => (registered, [])
    (reg.1, reg.2 ++ [.registerStepWithColumn stepPath loc.line (loc.column + 1)] ++
      (carriedForward prevLine loc storageState).map fun e =>
        .registerVariableWithFullValue e.1 e.2)

/-! ## §4  Local variables -/

/-- The function around the log's source offset, with that offset. -/
def enclosingFunction (a : Artifacts) (pc : Nat) (loc : SourceLocation) :
    Option (FunctionDef × Int32) := do
  let ast ← a.solidityAst
  let srcOff ← a.sourceOffset pc
  let func ← ast.functionAt srcOff loc.fileIndex
  some (func, srcOff)

/-- The variables in scope at a resolved log. -/
def inScopeAt (a : Artifacts) (pc : Nat) (loc : SourceLocation) : List VarDecl :=
  match enclosingFunction a pc loc with
  | some (func, srcOff) => func.varsInScopeAt srcOff
  | none => []

/-- The symbolic stack after the log's opcode, if the mnemonic is known. -/
def trackOpcode (tracker : StackTracker) (op : String) (sourceOffset : Option Int32)
    (inScope : List VarDecl) : StackTracker :=
  match opcodeFromName op with
  | some opcode => (tracker.processStep opcode sourceOffset inScope).1
  | none => tracker

/-- The memory tracker is driven by MLOAD, MSTORE and MSTORE8 inside a known
function. -/
def trackMemory (a : Artifacts) (log : StructLog) (loc : SourceLocation)
    (mtracker : MemoryTracker) : MemoryTracker :=
  match opcodeFromName log.op, enclosingFunction a log.pc loc with
  | some opcode, some (func, srcOff) =>
      if 0x51 ≤ opcode ∧ opcode ≤ 0x53 then
        (mtracker.processStep opcode (some srcOff) (func.varsInScopeAt srcOff)
          (log.stack.getD []) (decodeStructLogMemory log.memory)).1
      else mtracker
  | _, _ => mtracker

/-- The values found for the variables in scope: `tracker` names the slots,
`concreteStack` holds the words. -/
def localValues (tracker : StackTracker) (inScope : List VarDecl)
    (concreteStack : Option (List U256)) : List (VarDecl × U256) :=
  match concreteStack with
  | some stack => inScope.filterMap fun var =>
      (tracker.getVariableValue var.name stack).map fun val => (var, val)
  | none => []

def localEvents (values : List (VarDecl × U256)) : List TraceEvent :=
  values.flatMap fun (var, val) =>
    let typeId : TypeId := ⟨typeKindForSolidityType var.typeName, var.typeName⟩
    [.ensureTypeId typeId,
      .registerVariableWithFullValue var.name (valueRecordForLocal val var.typeName typeId)]

/-- The local values read at a resolved log; nothing when the mnemonic is
unknown or the log is outside every function. -/
def localsAt (a : Artifacts) (log : StructLog) (loc : SourceLocation) (tracker : StackTracker)
    (concreteStack : Option (List U256)) : List (VarDecl × U256) :=
  match opcodeFromName log.op, enclosingFunction a log.pc loc with
  | some _, some (func, srcOff) => localValues tracker (func.varsInScopeAt srcOff) concreteStack
  | _, _ => []

/-! ## §5  Internal calls -/

def internalCallLookahead : Nat := 5

/-- The function at the source offset of a log. -/
def functionAtLog (a : Artifacts) (log : StructLog) : Option FunctionDef := do
  let ast ← a.solidityAst
  let entry ← a.entryForPc log.pc
  if entry.fileIndex < 0 then none else ast.functionAt entry.offset entry.fileIndex

/-- The first function found in the next few logs. -/
def resolveInternalCallTarget (a : Artifacts) (structLogs : List StructLog) (currentIndex : Nat) :
    Option FunctionDef :=
  (List.range' 1 internalCallLookahead).findSome? fun step =>
    structLogs[currentIndex + step]?.bind (functionAtLog a)

/-- Fallback: the function around the jump itself. -/
def resolveEnclosingFunctionForJump (a : Artifacts) (structLogs : List StructLog)
    (currentIndex : Nat) : Option FunctionDef :=
  structLogs[currentIndex]?.bind (functionAtLog a)

def internalCallTarget (a : Artifacts) (structLogs : List StructLog) (i : Nat) :
    Option FunctionDef :=
  (resolveInternalCallTarget a structLogs i).orElse fun _ =>
    resolveEnclosingFunctionForJump a structLogs i

def displayName (a : Artifacts) (func : FunctionDef) : String :=
  match a.solidityAst with
  | some ast => ast.qualifiedFunctionName func
  | none => func.name

def internalCallName (a : Artifacts) (structLogs : List StructLog) (i : Nat)
    (target : Option FunctionDef) : String :=
  match target, structLogs[i + 1]? with
  | some func, _ => displayName a func
  | none, some nextLog =>
      match a.resolvePc nextLog.pc with
      | some loc => "fn_at_" ++ toString loc.fileIndex.toInt ++ ":" ++ toString loc.line
      | none => "fn_at_pc_" ++ toString nextLog.pc
  | none, none => "unknown_fn"

/-- Emit the callee's arguments from the concrete stack and seed its labels;
the tracker is reset when the callee or the stack is unknown. -/
def stageInternalCallArgs (tracker : StackTracker) (target : Option FunctionDef)
    (concreteStack : Option (List U256)) (stackItemsAboveParams : Nat) :
    StackTracker × List TraceEvent :=
  match target, concreteStack with
  | some func, some stack =>
      let paramNames := func.parameters.map (·.name)
      let calleeStackDepth := stack.length - stackItemsAboveParams
      let occupiedSlots := paramNames.length + stackItemsAboveParams
      let seeded := tracker.seedTopLabels calleeStackDepth paramNames
      if paramNames.isEmpty || stack.length < occupiedSlots then (seeded, [])
      else
        let words := (stack.drop (stack.length - occupiedSlots)).take paramNames.length
        (seeded, (func.parameters.zip words).flatMap fun (param, value) =>
          let typeId : TypeId := ⟨typeKindForSolidityType param.typeName, param.typeName⟩
          [.ensureTypeId typeId, .arg param.name (.raw ⟨hexWord value, typeId⟩)])
  | _, _ => (tracker.reset, [])

/-- A non-absorbed `Into`: function id, arguments, call. -/
def enterInternalCall (a : Artifacts) (mainPath : Path) (structLogs : List StructLog) (i : Nat)
    (log : StructLog) (loc : SourceLocation) (tracker : StackTracker) :
    StackTracker × List TraceEvent :=
  let target := internalCallTarget a structLogs i
  let fnId : FunctionId :=
    ⟨internalCallName a structLogs i target, a.pathOf mainPath loc.fileIndex, loc.line⟩
  let staged := stageInternalCallArgs tracker target log.stack 1
  (staged.1, [.ensureFunctionId fnId] ++ staged.2 ++ [.registerCall fnId])

/-! ## §6  Mapping slots -/

/-- Key bytes as a Solidity-style literal for the key type. -/
def formatMappingKey (keyTypeLabel : String) (keyBytes : List UInt8) : String :=
  if keyTypeLabel = "address" ∨ keyTypeLabel = "address payable" then
    "0x" ++ String.ofList (hexBytes (keyBytes.drop 12))
  else if startsWith keyTypeLabel "uint" || startsWith keyTypeLabel "int" ||
      keyTypeLabel = "bool" then hexWord (wordOfBytes keyBytes)
  else "0x" ++ String.ofList (hexBytes keyBytes)

/-- `<name>[<key>]`. -/
def indexedName (name key : String) : String := name ++ "[" ++ key ++ "]"

/-- The 64 input bytes of a KECCAK256 whose memory range is captured. -/
def keccakInput (log : StructLog) : Option (List UInt8) :=
  if log.op = "KECCAK256" ∨ log.op = "SHA3" then do
    let stack ← log.stack
    let (offset, size) ← topTwo stack
    if size = 64 then
      let off ← toUsize offset
      memoryRange log.memory off 64
    else none
  else none

/-- The name of the slot derived from `key . base`, when the base is a declared
mapping or an already named slot. Inner keys are printed as addresses. -/
def derivedSlotName (layout : StorageLayout) (names : MappingSlotNames) (input : List UInt8) :
    Option String :=
  let keyBytes := input.take 32
  let baseSlot := wordOfBytes (input.drop 32)
  match (toUsize baseSlot).bind layout.mappingAtBase with
  | some (mappingLabel, keyTypeLabel) =>
      some (indexedName mappingLabel (formatMappingKey keyTypeLabel keyBytes))
  | none => (names.lookup baseSlot).map fun parentName =>
      indexedName parentName (formatMappingKey "address" keyBytes)

/-- The KECCAK256 block; `keccak256` is the hash as a big-endian word. -/
def recordMappingSlot (keccak256 : List UInt8 → U256) (layout : Option StorageLayout)
    (log : StructLog) (names : MappingSlotNames) : MappingSlotNames :=
  match layout, keccakInput log with
  | some layout, some input =>
      match derivedSlotName layout names input with
      | some name => names.insert (keccak256 input) name
      | none => names
  | _, _ => names

/-! ## §7  Storage writes -/

/-- Slot and value of an SSTORE with at least two words on its stack. -/
def storageWrite (log : StructLog) : Option (U256 × U256) :=
  if log.op = "SSTORE" then log.stack.bind topTwo else none

/-- Layout slot, mapping cache, struct member, array element, placeholder. -/
def storageVarName (layout : Option StorageLayout) (names : MappingSlotNames) (slot : U256) :
    String :=
  let slotDecimal := Nat.repr slot.toNat
  let slotU64 := parseU64 slotDecimal
  (((layout.bind (·.resolveSlot slotDecimal)).map (·.label)).orElse fun _ =>
    (names.lookup slot).orElse fun _ =>
      ((slotU64.bind fun s => layout.bind (·.structMemberAt s)).map fun (parent, member) =>
        parent ++ "." ++ member).orElse fun _ =>
          (slotU64.bind fun s => layout.bind (·.arrayElementAt s)).map fun (parent, idx) =>
            indexedName parent (toString idx)).getD ("storage[" ++ slotDecimal ++ "]")

def storageTypeName (layout : Option StorageLayout) (slot : U256) : String :=
  ((layout.bind fun sl => (sl.resolveSlot (Nat.repr slot.toNat)).bind sl.typeInfo).map
    (·.label)).getD "uint256"

/-- The record of a single slot's value. -/
def slotRecord (layout : Option StorageLayout) (slot value : U256) : ValueRecord :=
  .raw ⟨hexWord value, ⟨.int, storageTypeName layout slot⟩⟩

def slotValueOrZero (slotValues : SlotValues) (slot : Nat) : RawValue :=
  ⟨hexWord ((slotValues.lookup slot).getD 0), uint256TypeId⟩

/-- Snapshot of a struct or fixed-size array from the cached slot values. -/
def buildCompoundValue (parentTi : StorageTypeInfo) (baseSlot slotCount : Nat)
    (slotValues : SlotValues) : List TraceEvent × Option ValueRecord :=
  match parentTi.members with
  | some members =>
      let typeId : TypeId := ⟨.struct, parentTi.label⟩
      ([.ensureTypeId uint256TypeId, .ensureTypeId typeId],
        (members.mapM fun member => (parseU64 member.slot).map fun memberOffset =>
          slotValueOrZero slotValues (wrappingAddU64 baseSlot memberOffset)).map
            (ValueRecord.struct · typeId))
  | none =>
      if parentTi.base.isSome then
        let typeId : TypeId := ⟨.array, parentTi.label⟩
        ([.ensureTypeId uint256TypeId, .ensureTypeId typeId],
          some (.sequence ((List.range slotCount).map fun offset =>
            slotValueOrZero slotValues (wrappingAddU64 baseSlot offset)) false typeId))
      else ([.ensureTypeId uint256TypeId], none)

/-- The capacity of the vector that `buildCompoundValue` allocates for the fields or elements. -/
def compoundCapacity (parentTi : StorageTypeInfo) (slotCount : Nat) : Nat :=
  match parentTi.members with
  | some members => members.length
  | none => if parentTi.base.isSome then slotCount else 0

/-- `buildCompoundValue` with its allocation: none where `Vec::with_capacity` panics, beyond
`isize::MAX` bytes. `recordSize` is the size of a `ValueRecord`. -/
def buildCompoundValueChecked (recordSize : Nat) (parentTi : StorageTypeInfo)
    (baseSlot slotCount : Nat) (slotValues : SlotValues) :
    Option (List TraceEvent × Option ValueRecord) :=
  if compoundCapacity parentTi slotCount * recordSize < 2 ^ 63 then
    some (buildCompoundValue parentTi baseSlot slotCount slotValues)
  else none

/-- The compound snapshot after a write to `slotU64`: parent label and record. -/
def compoundSnapshot (layout : StorageLayout) (slotU64 : Nat) (slotValues : SlotValues) :
    List TraceEvent × Option (String × ValueRecord) :=
  match layout.containingCompound slotU64 with
  | some (parent, parentTi, slotCount) =>
      let built := buildCompoundValue parentTi ((parseU64 parent.slot).getD 0) slotCount slotValues
      (built.1, built.2.map fun compound => (parent.label, compound))
  | none => ([], none)

/-- The cached slot values after a write; slots of 2^64 and more are not
cached. -/
def cacheSlotValue (layout : Option StorageLayout) (slot value : U256) (slotValues : SlotValues) :
    SlotValues :=
  match parseU64 (Nat.repr slot.toNat), layout with
  | some slotU64, some _ => slotValues.insert slotU64 value
  | _, _ => slotValues

/-- The compound snapshot of a write, made from the updated slot values. -/
def writeSnapshot (layout : Option StorageLayout) (slot : U256) (slotValues : SlotValues) :
    List TraceEvent × Option (String × ValueRecord) :=
  match parseU64 (Nat.repr slot.toNat), layout with
  | some slotU64, some layout => compoundSnapshot layout slotU64 slotValues
  | _, _ => ([], none)

/-- The SSTORE block: caches and emits the slot's variable, then the compound
that contains it. -/
def recordStorageWrite (layout : Option StorageLayout) (names : MappingSlotNames)
    (slot value : U256) (storageState : NamedValues) (slotValues : SlotValues) :
    NamedValues × SlotValues × List TraceEvent :=
  let varName := storageVarName layout names slot
  let val := slotRecord layout slot value
  let slotValues := cacheSlotValue layout slot value slotValues
  let snapshot := writeSnapshot layout slot slotValues
  let storageState := storageState.insert varName val
  let events : List TraceEvent :=
    [.ensureTypeId ⟨.int, storageTypeName layout slot⟩,
      .registerVariableWithFullValue varName val] ++ snapshot.1
  match snapshot.2 with
  | some (label, compound) =>
      (storageState.insert label compound, slotValues,
        events ++ [.registerVariableWithFullValue label compound])
  | none => (storageState, slotValues, events)

/-! ## §8  Special events -/

/-- LOGn, SELFDESTRUCT and precompile calls, in this order. -/
def specialEvents (log : StructLog) : List TraceEvent :=
  ((buildLogEventContent log.op log.stack log.memory).toList.map fun content =>
    .registerSpecialEvent .evmEvent log.op content) ++
  ((buildSelfdestructEventContent log.op log.stack).toList.map fun content =>
    .registerSpecialEvent .evmEvent "SELFDESTRUCT" content) ++
  ((buildPrecompileEventContent log.op log.stack).toList.map fun (metadata, content) =>
    .registerSpecialEvent .evmEvent metadata content)

end EvmRecorder
