import EvmRecorder.Model.MultiRecorder

/-!
# A recorder from `new` to `finalize`

`EvmRecorder` keeps the names of the types it has registered and the paths that
have a line table. It is initialised once, records any number of traces and
reverts, and is finalised. Its calls to the trace writer are listed in the order
they are made; whether the writer refuses a call is the writer's affair and a
parameter here.
-/

namespace EvmRecorder

inductive WriterCall where
  | beginWritingTraceEvents (eventsPath : Path)
  | enableColumnAwareSteps
  | enableColumnBreakpointsSupport
  | enableColumnMotionsSupport
  | registerType (typeId : TypeId)
  | event (e : TraceEvent)
  /-- `register_return(NONE_VALUE)`: a constant of the writer's own. -/
  | registerReturnNone
  | finishWritingTraceEvents
  | writeMetaDat (recorder : String)
  | close
deriving DecidableEq, Repr

namespace WriterCall

/-- The calls whose error ends the method that makes them. -/
def fallible : WriterCall → Bool
  | .beginWritingTraceEvents _ => true
  | .finishWritingTraceEvents => true
  | .writeMetaDat _ => true
  | .close => true
  | _ => false

/-- The calls made up to the first one that fails, and whether none did. -/
def attempt (accepts : WriterCall → Bool) : List WriterCall → List WriterCall × Bool
  | [] => ([], true)
  | c :: cs =>
      if c.fallible && !accepts c then ([c], false)
      else (c :: (attempt accepts cs).1, (attempt accepts cs).2)

theorem attempt_prefix (accepts : WriterCall → Bool) :
    ∀ cs : List WriterCall, (attempt accepts cs).1 <+: cs
  | [] => List.prefix_refl []
  | c :: cs => by
      rw [attempt]
      split
      · exact ⟨cs, rfl⟩
      · exact List.cons_prefix_cons.mpr ⟨rfl, attempt_prefix accepts cs⟩

end WriterCall

/-- The fields of `EvmRecorder`. -/
structure Session where
  typeNames : List String := []
  outputDir : Path
  pathsWithLineLengths : List Path := []

namespace Session

def new (outputDir : Path) : Session := { outputDir }

/-- The types of `register_evm_types`. -/
def evmTypes : List TypeId :=
  [⟨.int, "uint256"⟩, ⟨.int, "int256"⟩, ⟨.raw, "address"⟩, ⟨.raw, "bytes32"⟩, ⟨.seq, "bytes"⟩,
    ⟨.bool, "bool"⟩, ⟨.string, "string"⟩, ⟨.int, "uint8"⟩, ⟨.int, "uint16"⟩, ⟨.int, "uint32"⟩,
    ⟨.int, "uint64"⟩, ⟨.int, "uint128"⟩, ⟨.int, "int8"⟩, ⟨.int, "int16"⟩, ⟨.int, "int32"⟩,
    ⟨.int, "int64"⟩, ⟨.int, "int128"⟩, ⟨.raw, "bytes1"⟩, ⟨.raw, "bytes4"⟩, ⟨.raw, "bytes20"⟩]

def registerEvmTypes (self : Session) : Session × List WriterCall :=
  ({ self with typeNames := self.typeNames ++ evmTypes.map (·.name) },
    evmTypes.map .registerType)

/-- `initialize`. Nothing but the first call can fail, so the types are registered exactly when
it succeeds. -/
def initializeTrace (accepts : WriterCall → Bool) (self : Session) :
    Session × List WriterCall × Bool :=
  let typed := self.registerEvmTypes
  let attempted := WriterCall.attempt accepts
    ([.beginWritingTraceEvents ⟨self.outputDir.components ++ ["trace.json"]⟩,
      .enableColumnAwareSteps, .enableColumnBreakpointsSupport, .enableColumnMotionsSupport] ++
      typed.2)
  (if attempted.2 then typed.1 else self, attempted)

/-- `finalize`: closes the `<toplevel>` call that `start` opened. -/
def finalize (accepts : WriterCall → Bool) : List WriterCall × Bool :=
  WriterCall.attempt accepts
    [.registerReturnNone, .finishWritingTraceEvents, .writeMetaDat "codetracer-evm-recorder",
      .close]

/-- A call to one of the recorder's methods between `initialize` and `finalize`,
with its arguments. -/
inductive Request where
  | recordFromStructlog (structLogs : List StructLog) (sourceMap : SourceMap)
      (bytecode : List UInt8) (sourcePaths : List Path) (sourceContents : List String)
      (storageLayout : Option StorageLayout) (solidityAst : Option SolidityAst)
  | recordFromStructlogMultiContract (structLogs : List StructLog) (registry : ContractRegistry)
      (contractAddress : Address)
  | registerRevert (metadata reason : String)

variable (keccak256 : List UInt8 → U256)

def perform (self : Session) : Request → Session × List TraceEvent
  | .recordFromStructlog structLogs sourceMap bytecode sourcePaths sourceContents storageLayout
      solidityAst =>
      let a := Recorder.singleArtifacts sourceMap bytecode sourcePaths sourceContents
        storageLayout solidityAst
      let s := Recorder.stateBefore keccak256 self.pathsWithLineLengths a structLogs
        structLogs.length
      (if structLogs.isEmpty then self
        else { self with pathsWithLineLengths := s.pathsWithLineLengths },
        EvmRecorder.recordFromStructlog keccak256 self.pathsWithLineLengths a structLogs)
  | .recordFromStructlogMultiContract structLogs registry contractAddress =>
      let s := MultiRecorder.stateBefore keccak256 self.pathsWithLineLengths registry
        contractAddress structLogs structLogs.length
      (if structLogs.isEmpty then self
        else { self with pathsWithLineLengths := s.pathsWithLineLengths },
        (EvmRecorder.recordFromStructlogMultiContract keccak256 self.pathsWithLineLengths registry
          contractAddress structLogs).1)
  | .registerRevert metadata reason => (self, [.registerSpecialEvent .error metadata reason])

/-- The requests one after another. -/
def performAll (self : Session) (requests : List Request) : Session × List TraceEvent :=
  Machine.run (fun _ request self => perform keccak256 self request) 0 requests self

/-- All calls to the writer of a recorder that is created, initialised, given the
requests and finalised. -/
def calls (accepts : WriterCall → Bool) (outputDir : Path) (requests : List Request) :
    List WriterCall :=
  let opened := (new outputDir).initializeTrace accepts
  if opened.2.2 then
    opened.2.1 ++ (performAll keccak256 opened.1 requests).2.map .event ++ (finalize accepts).1
  else opened.2.1

end Session

end EvmRecorder
