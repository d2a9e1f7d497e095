import EvmRecorder.Library.Effects
import EvmRecorder.Model.CallData
import EvmRecorder.Model.CustomErrors
import EvmRecorder.Model.Session
import EvmRecorder.Model.YulCompile

/-!
# The `record` command

`record` compiles a source file, deploys and calls the contract on a node of its own
and writes the trace of the call. The environment, the file system, solc and the node
are given by a `CommandHost`; what they answer may depend on the calls made so far.
Notes on the standard error stream are left out.
-/

namespace EvmRecorder

open Effects Numeral Bytes

/-! ## §1  Calls to the outside -/

structure TransactionRequest where
  sender : Address
  to_ : Option Address
  input : List UInt8
  value : Option U256 := none
  gasLimit : Option Nat := none
deriving DecidableEq, Repr

structure TransactionReceipt where
  contractAddress : Option Address
  transactionHash : U256
  status : Bool
deriving DecidableEq, Repr

structure DefaultFrame where
  failed : Bool
  returnValue : List UInt8
  structLogs : List StructLog
deriving DecidableEq, Repr

inductive GethTrace where
  | default (frame : DefaultFrame)
  | other
deriving DecidableEq, Repr

/-- The calls that change something outside. -/
inductive HostCall where
  | createDirAll (dir : String)
  | spawnAnvil
  | sendTransaction (tx : TransactionRequest)
  | copy (src dst : String)
  | createTraceWriter (program : String)
  | writer (c : WriterCall)
deriving DecidableEq, Repr

/-- What is called outside. The hash of a pending transaction stands for it. -/
structure CommandHost extends YulHost where
  /-- `std::env::var`; a value that is no text is none. -/
  env : String → Option String
  canonicalize : String → Except String String
  readToString : String → Except String String
  layoutFromValue : Value → Option StorageLayout
  addressFromStr : String → Except String Address
  fromStrRadix : String → Nat → Except String U256
  createDirAll : List HostCall → (dir : String) → Except String Unit
  getAccounts : List HostCall → Except String (List Address)
  sendTransaction : List HostCall → TransactionRequest → Except String U256
  getReceipt : List HostCall → U256 → Except String TransactionReceipt
  getCodeAt : List HostCall → Address → Except String (List UInt8)
  debugTraceTransaction : List HostCall → U256 → Except String GethTrace
  copy : List HostCall → (src dst : String) → Except String Unit
  accepts : WriterCall → Bool

abbrev Command (α : Type) : Type := Program HostCall Stop α

/-- `r?`. -/
def try_ {α : Type} (r : Except String α) : Command α := .ofExcept (stopped r)

/-! ## §2  Arguments and the environment -/

structure RecordArgs where
  solidityFile : String
  outDir : Option String
  traceDir : Option String
  function : String
  sender : Option String
  value : String
deriving DecidableEq, Repr

def envOutDir : String := "CODETRACER_EVM_RECORDER_OUT_DIR"

def envDisabled : String := "CODETRACER_EVM_RECORDER_DISABLED"

/-- `str::eq_ignore_ascii_case`. -/
def eqIgnoreAsciiCase (cs ds : List Char) : Bool := cs.map Char.toLower = ds.map Char.toLower

def resolveOutDir (env : String → Option String) (cliOutDir cliTraceDir : Option String) :
    Except String String :=
  match cliOutDir with
  | some path => .ok path
  | none =>
      match cliTraceDir with
      | some path => .ok path
      | none =>
          match (env envOutDir).filter fun value => !value.isEmpty with
          | some value => .ok value
          | none => .error ("no output directory specified: pass --out-dir <PATH> (or set " ++
              envOutDir ++ ")")

def recordingDisabled (env : String → Option String) : Bool :=
  match env envDisabled with
  | some value =>
      let v := trim value.toList
      v = ['1'] || eqIgnoreAsciiCase v "true".toList
  | none => false

/-- `Path::file_name`. -/
def fileName (path : String) : Option String :=
  match ((path.toList.splitOn '/').filter fun part => !isTrivialComponent part).getLast? with
  | some part => if part = ['.', '.'] then none else some (String.ofList part)
  | none => none

/-- A name before and behind its last dot; a name that begins with its only dot has no
extension. -/
def splitAtDot (name : List Char) : List Char × Option (List Char) :=
  match name.reverse.dropWhile (· ≠ '.') with
  | _ :: c :: before => ((c :: before).reverse, some (name.reverse.takeWhile (· ≠ '.')).reverse)
  | _ => (name, none)

/-- `Path::file_stem`. -/
def fileStem (path : String) : Option String :=
  (fileName path).map fun name => String.ofList (splitAtDot name.toList).1

/-- `Path::extension`. -/
def pathExtension (path : String) : Option (List Char) :=
  (fileName path).bind fun name => (splitAtDot name.toList).2

def isYul (sourcePath : String) : Bool :=
  (pathExtension sourcePath).any fun e => eqIgnoreAsciiCase e "yul".toList

def solcPath (env : String → Option String) : String := (env "SOLC_PATH").getD "solc"

section Host

variable (host : CommandHost) (keccak256 : List UInt8 → U256)

def parseValueWei (s : String) : Except String U256 :=
  let trimmed := trim s.toList
  if trimmed.isEmpty then .ok 0
  else
    match (stripPrefix "0x".toList trimmed).or (stripPrefix "0X".toList trimmed) with
    | some rest => withContext ("invalid hex value: " ++ s)
        (host.fromStrRadix (String.ofList rest) 16)
    | none => withContext ("invalid decimal value: " ++ s)
        (host.fromStrRadix (String.ofList trimmed) 10)

/-! ## §3  The contract of a Solidity file -/

def resolveFunctionName (abi : List Value) (preferred : String) : String :=
  let functions := (abi.filter fun item => item.getStr "type" = some "function").filterMap
    fun item => item.getStr "name"
  if functions.contains preferred then preferred else functions.head?.getD preferred

/-- What the command reads off the output of solc. -/
structure CompiledContract where
  contractName : String
  deployBytecodeHex : String
  sourceMap : SourceMap
  storageLayout : Option StorageLayout
  runtimeBytecode : List UInt8
  sourceContents : String
  abi : List Value
  callInput : List UInt8
  constructorArgs : List UInt8
  solidityAst : SolidityAst

/-- The contract named like the file, or else the first one. -/
def chooseContract (contracts : List (String × Value)) (stem : String) :
    Except String (String × Value) :=
  okOr "no contracts found in solc output"
    ((contracts.find? fun c => (":" ++ stem).toList.isSuffixOf c.1.toList).orElse
      fun _ => contracts.head?)

/-- An array, or the text of one. -/
def readAbi (contractKey : String) (contractJson : Value) : Except String (List Value) :=
  match contractJson.getStr "abi" with
  | some s => withContext "failed to parse ABI JSON string" do
      okOr "invalid type" (← host.fromStr s).asArray
  | none => okOr ("missing or unexpected 'abi' format in contract JSON for " ++ contractKey)
      (contractJson.getArray "abi")

/-- The text solc prints, as it is and as JSON. -/
def runCombinedJson (sourcePath : String) : Except String (String × Value) := do
  let solcCmd := solcPath host.env
  let output ← withContext ("failed to run solc (" ++ solcCmd ++ ")") (host.output solcCmd
    ["--combined-json", "abi,bin,bin-runtime,srcmap-runtime,storage-layout,ast",
      "--no-cbor-metadata", sourcePath])
  if output.success then
    let text ← withContext "solc output is not valid UTF-8" (fromUtf8 output.stdout)
    let compiled ← withContext "solc output is not valid JSON" (host.fromStr text)
    pure (text, compiled)
  else .error ("solc compilation failed:\nstdout: " ++ fromUtf8Lossy output.stdout ++
    "\nstderr: " ++ fromUtf8Lossy output.stderr)

/-- The fields of the contract, the function to call and its call data. -/
def readContract (function sourcePath contractKey : String) (contractJson : Value)
    (solidityAst : SolidityAst) : Except String CompiledContract := do
  let field (name : String) : Except String String :=
    okOr ("missing '" ++ name ++ "' in contract JSON for " ++ contractKey)
      (contractJson.getStr name)
  let contractName := ((contractKey.toList.splitOn ':').getLast?.map String.ofList).getD contractKey
  let deployBytecodeHex ← field "bin"
  let runtimeBytecodeHex ← field "bin-runtime"
  let sourceMapRaw ← field "srcmap-runtime"
  let storageLayout := ((contractJson.get "storage-layout").filter fun v =>
    v.asObject.any fun fields => !fields.isEmpty).bind host.layoutFromValue
  let runtimeBytecode ← withContext "invalid runtime bytecode hex from solc"
    (host.hexDecode runtimeBytecodeHex)
  let sourceContents ← withContext ("failed to read source file: " ++ sourcePath)
    (host.readToString sourcePath)
  let abi ← readAbi host contractKey contractJson
  let (callSignature, encodedArgs) ←
    buildCallSignatureAndArgs abi (resolveFunctionName abi function)
  let constructorArgs ← encodeConstructorArgs abi contractName
  pure {
    contractName, deployBytecodeHex, storageLayout, runtimeBytecode, sourceContents, abi
    constructorArgs, solidityAst
    sourceMap := SourceMap.parse sourceMapRaw
    callInput := RevertDecode.keccakSelector keccak256 (utf8 callSignature) ++ encodedArgs }

def compileSolidity (function sourcePath : String) : Except String CompiledContract := do
  let (text, compiled) ← runCombinedJson host sourcePath
  let solidityAst ← withContext "failed to parse Solidity AST from solc output"
    (SolidityAst.fromCombinedJson host.fromStr text)
  let contracts ← okOr "unexpected solc output: missing 'contracts' object"
    ((compiled.get "contracts").bind Value.asObject)
  let (contractKey, contractJson) ← chooseContract contracts
    ((fileStem sourcePath).getD "Contract")
  readContract host keccak256 function sourcePath contractKey contractJson solidityAst

/-! ## §4  The node -/

def fetchStructLogs (made : List HostCall) (txHash : U256) : Except String DefaultFrame := do
  match ← errorAt "debug_traceTransaction failed: " (host.debugTraceTransaction made txHash) with
  | .default frame => pure frame
  | .other => .error "expected Default (structLog) trace, got a different tracer response"

def extractStructLogs (frame : DefaultFrame) : List StructLog := frame.structLogs

/-- A node of its own, and its first account. -/
def spawnNode : Command Address := do
  Program.call .spawnAnvil fun _ => .ok ()
  match ← Program.query fun made => stopped (host.getAccounts made) with
  | deployFrom :: _ => pure deployFrom
  | [] => .ofExcept (.error .panic)

/-- The sender of the call: `--from`, or else the deployer. -/
def callSender (args : RecordArgs) (deployFrom : Address) : Except String Address :=
  match args.sender with
  | some s => withContext ("--from is not a valid 0x-prefixed hex address: " ++ s)
      (host.addressFromStr s)
  | none => .ok deployFrom

/-- A transaction that is sent and its receipt. -/
def transact (name : String) (tx : TransactionRequest) : Command TransactionReceipt := do
  let pending ← Program.call (.sendTransaction tx) fun made =>
    stopped (withContext ("failed to send " ++ name ++ " transaction")
      (host.sendTransaction made tx))
  Program.query fun made =>
    stopped (withContext ("failed to get " ++ name ++ " receipt") (host.getReceipt made pending))

def deploy (name noAddress : String) (deployFrom : Address) (deployData : List UInt8) :
    Command Address := do
  let receipt ← transact host name { sender := deployFrom, to_ := none, input := deployData }
  try_ (okOr noAddress receipt.contractAddress)

/-- The call with its value and a fixed gas limit. -/
def callContract (name : String) (args : RecordArgs) (callFrom contractAddress : Address)
    (input : List UInt8) : Command TransactionReceipt := do
  let callValue ← try_ (withContext ("--value is not a valid wei amount: " ++ args.value)
    (parseValueWei host args.value))
  transact host name
    { sender := callFrom, to_ := some contractAddress, input
      value := some callValue, gasLimit := some 30000000 }

def fetchFrame (noLogs : String) (receipt : TransactionReceipt) : Command DefaultFrame := do
  let frame ← Program.query fun made =>
    stopped (withContext "failed to fetch structlogs via debug_traceTransaction"
      (fetchStructLogs host made receipt.transactionHash))
  if (extractStructLogs frame).isEmpty then try_ (.error noLogs) else pure frame

/-! ## §5  The trace -/

/-- The source file is copied next to the trace. -/
def copySource (sourcePath outDir : String) : Command String := do
  let sourceFilename ← try_ (okOr "source path has no filename component" (fileName sourcePath))
  let sourceCopyPath := joinText outDir sourceFilename
  Program.call (.copy sourcePath sourceCopyPath) fun made =>
    stopped (withContext ("failed to copy source file into trace dir: " ++ sourcePath ++ " -> " ++
      sourceCopyPath) (host.copy made sourcePath sourceCopyPath))
  pure sourceCopyPath

/-- What a trace is recorded with. -/
structure TraceArtifacts where
  sourceMap : SourceMap
  runtimeBytecode : List UInt8
  sourceContents : String
  storageLayout : Option StorageLayout
  solidityAst : Option SolidityAst
  errors : RevertDecode.CustomErrorRegistry

/-- The requests to the recorder; the second one says why the transaction failed. -/
def traceRequests (artifacts : TraceArtifacts) (sourceCopyPath : String) (frame : DefaultFrame)
    (txSucceeded : Bool) : List Session.Request :=
  .recordFromStructlog (extractStructLogs frame) artifacts.sourceMap artifacts.runtimeBytecode
      [Path.ofText sourceCopyPath] [artifacts.sourceContents] artifacts.storageLayout
      artifacts.solidityAst ::
    (if frame.failed || !txSucceeded then
      let decoded := RevertDecode.decodeRevertWithRegistry frame.returnValue artifacts.errors
      [.registerRevert decoded.kind decoded.message]
    else [])

/-- The requests one after another. -/
def performRequests (self : Session) : List Session.Request → Command Session
  | [] => pure self
  | request :: rest => do
      let performed := self.perform keccak256 request
      Program.callAll (performed.2.map (.writer ∘ .event)) (.ok ())
      performRequests performed.1 rest

def writeTrace (sourcePath outDir : String) (requests : List Session.Request) : Command Unit := do
  Program.call (.createTraceWriter sourcePath) fun _ => .ok ()
  let opened := (Session.new (Path.ofText outDir)).initializeTrace host.accepts
  Program.callAll (opened.2.1.map .writer)
    (if opened.2.2 then .ok () else .error (.error "failed to initialize EvmRecorder"))
  let _ ← performRequests keccak256 opened.1 requests
  let closed := Session.finalize host.accepts
  Program.callAll (closed.1.map .writer)
    (if closed.2 then .ok () else .error (.error "failed to finalize EvmRecorder"))

/-- A call that was made, up to its trace. -/
def recordCall (noLogs sourcePath outDir : String) (artifacts : TraceArtifacts)
    (receipt : TransactionReceipt) : Command Unit := do
  let frame ← fetchFrame host noLogs receipt
  let sourceCopyPath ← copySource host sourcePath outDir
  writeTrace host keccak256 sourcePath outDir
    (traceRequests artifacts sourceCopyPath frame receipt.status)

/-! ## §6  The command -/

/-- A Yul object has no functions to choose from; its code is read off the chain. -/
def recordYul (args : RecordArgs) (sourcePath outDir : String) : Command Unit := do
  let yulOut ← try_ (compileYul host.toYulHost (solcPath host.env) sourcePath)
  let sourceContents ← try_ (withContext ("failed to read source file: " ++ sourcePath)
    (host.readToString sourcePath))
  let deployFrom ← spawnNode host
  let callFrom ← try_ (callSender host args deployFrom)
  let contractAddress ← deploy host "Yul deploy"
    "Yul deploy transaction produced no contract address" deployFrom yulOut.deployBytecode
  let runtimeBytecode ← Program.query fun made => stopped (host.getCodeAt made contractAddress)
  if runtimeBytecode.isEmpty then
    try_ (.error
      "deployed Yul object has no runtime bytecode (eth_getCode returned 0 bytes)")
  else
    let receipt ← callContract host "Yul function call" args callFrom contractAddress []
    recordCall host keccak256
      "debug_traceTransaction returned no structlogs -- ensure anvil was started with --steps-tracing"
      sourcePath outDir
      { sourceMap := yulOut.runtimeSourceMap, runtimeBytecode, sourceContents
        storageLayout := none, solidityAst := none, errors := {} } receipt

def recordSolidity (args : RecordArgs) (sourcePath outDir : String) : Command Unit := do
  let contract ← try_ (compileSolidity host keccak256 args.function sourcePath)
  let deployFrom ← spawnNode host
  let callFrom ← try_ (callSender host args deployFrom)
  let deployBytecode ← try_ (withContext "invalid deploy bytecode hex from solc"
    (host.hexDecode contract.deployBytecodeHex))
  let contractAddress ← deploy host "deploy" "deploy transaction produced no contract address"
    deployFrom (deployBytecode ++ contract.constructorArgs)
  let receipt ← callContract host "function call" args callFrom contractAddress contract.callInput
  recordCall host keccak256
    "debug_traceTransaction returned no structlogs — ensure anvil was started with --steps-tracing"
    sourcePath outDir
    { sourceMap := contract.sourceMap, runtimeBytecode := contract.runtimeBytecode
      sourceContents := contract.sourceContents, storageLayout := contract.storageLayout
      solidityAst := some contract.solidityAst
      errors := .fromAbi keccak256 contract.abi } receipt

def record (args : RecordArgs) : Command Unit := do
  let sourcePath ← try_ (withContext ("source file not found: " ++ args.solidityFile)
    (host.canonicalize args.solidityFile))
  if recordingDisabled host.env then pure ()
  else
    let outDir ← try_ (resolveOutDir host.env args.outDir args.traceDir)
    Program.call (.createDirAll outDir) fun made =>
      stopped (withContext ("cannot create output dir: " ++ outDir) (host.createDirAll made outDir))
    if isYul sourcePath then recordYul host keccak256 args sourcePath outDir
    else recordSolidity host keccak256 args sourcePath outDir

end Host

end EvmRecorder
