import EvmRecorder.Library.Bytes
import EvmRecorder.Model.ContractRegistry
import EvmRecorder.Model.SolidityJson

/-!
# Artifacts of a Sourcify bundle

`compile_sourcify_bundle`: the sources of a verified contract are written to a
temporary directory, solc is run on them with the settings of their metadata, and
the artifacts are read off its output. File system, solc, the JSON and hex parsers
and the layout's deserializer are given by a `Host`. Errors are their texts.
-/

namespace EvmRecorder

open Bytes

/-! ## §1  Bundles and settings -/

structure SourcifySourceFile where
  name : String
  path : String
  content : String
deriving DecidableEq, Repr

/-- The match status is not looked at. -/
structure SourcifyContract where
  sources : List SourcifySourceFile
  metadataJson : Option String
deriving DecidableEq, Repr

structure MetadataSettings where
  solcVersion : String
  optimizerEnabled : Bool
  optimizerRuns : Nat
  evmVersion : Option String
deriving DecidableEq, Repr

structure MetadataOptimizer where
  enabled : Option Bool
  runs : Option Nat
deriving DecidableEq, Repr

structure MetadataSettingsDoc where
  optimizer : Option MetadataOptimizer
  evmVersion : Option String
deriving DecidableEq, Repr

/-- `version` is `compiler.version`. -/
structure MetadataDoc where
  version : String
  settings : Option MetadataSettingsDoc
deriving DecidableEq, Repr

/-! ## §2  Paths and texts -/

def isAbsolute (text : String) : Bool := text.toList.head? = some '/'

/-- Empty components and `.` are no components, but for a leading `.`. -/
def isTrivialComponent (part : List Char) : Bool := part = [] || part = ['.']

/-- `PathBuf::from`, compared by components; the root is the component `/`. -/
def Path.ofText (text : String) : Path :=
  let parts := text.toList.splitOn '/'
  ⟨(if isAbsolute text then ["/"] else if parts.head? = some ['.'] then ["."] else []) ++
    (parts.filter fun part => !isTrivialComponent part).map String.ofList⟩

/-- `base.join(relative)`. -/
def joinText (base relative : String) : String :=
  if isAbsolute relative then relative
  else if base.isEmpty || base.toList.getLast? = some '/' then base ++ relative
  else base ++ "/" ++ relative

def trimRight (relative : Bool) (parts : List (List Char)) : List (List Char) :=
  let kept := (parts.reverse.dropWhile isTrivialComponent).reverse
  if relative && kept.isEmpty && parts.head? = some ['.'] then [['.']] else kept

/-- `Path::parent`: the text before the last component. -/
def parentText (text : String) : Option String :=
  let relative := !isAbsolute text
  let root := if relative then [] else ['/']
  let kept := trimRight relative ((text.toList.drop root.length).splitOn '/')
  if kept.isEmpty then none
  else some (String.ofList (root ++ ['/'].intercalate (trimRight relative kept.dropLast)))

/-- Index of the first invalid byte and the length of the invalid sequence, none when
the text ends inside a character; `skip` bytes of the current character remain. -/
def utf8ErrorLoop : Nat → Nat → List UInt8 → Option (Nat × Option Nat)
  | _, _, [] => none
  | skip + 1, i, _ :: rest => utf8ErrorLoop skip (i + 1) rest
  | 0, i, lead :: rest =>
      let (c, width) := decodeNext lead rest
      if String.utf8EncodeChar c = (lead :: rest).take width then
        utf8ErrorLoop (width - 1) (i + 1) rest
      else some (i, if width = rest.length + 1 ∧ width < sequenceWidth lead then none
        else some width)

/-- `String::from_utf8`. -/
def fromUtf8 (bytes : List UInt8) : Except String String :=
  match utf8ErrorLoop 0 0 bytes with
  | none => .ok (fromUtf8Lossy bytes)
  | some (i, some length) => .error ("invalid utf-8 sequence of " ++ toString length ++
      " bytes from index " ++ toString i)
  | some (i, none) => .error ("incomplete utf-8 byte sequence from index " ++ toString i)

/-! ## §3  The host -/

structure SolcOutput where
  success : Bool
  stdout : List UInt8
  stderr : List UInt8

/-- What is called outside. `files` are the files written so far, oldest first. -/
structure Host where
  metadataFromStr : String → Except String MetadataDoc
  tempDir : Except String String
  createDirAll : (files : List (String × String)) → (dir : String) → Except String Unit
  write : (files : List (String × String)) → (path content : String) → Except String Unit
  output : (solcCmd : String) → (args : List String) → (files : List (String × String)) →
    Except String SolcOutput
  fromStr : String → Except String Value
  hexDecode : String → Except String (List UInt8)
  layoutFromValue : Value → Option StorageLayout

section Compile

variable (host : Host)

/-- `r.map_err(|e| eyre!("{context}{e}"))`. -/
def errorAt {α : Type} (context : String) (r : Except String α) : Except String α :=
  r.mapError (context ++ ·)

/-- `opt.ok_or_else(|| eyre!(text))`. -/
def okOr {α : Type} (text : String) : Option α → Except String α
  | some x => .ok x
  | none => .error text

def parseMetadataSettings (metadataJson : String) : Except String MetadataSettings := do
  let doc ← errorAt "metadata.json is not valid JSON: " (host.metadataFromStr metadataJson)
  let optimizer := doc.settings.bind (·.optimizer)
  pure {
    solcVersion := doc.version
    optimizerEnabled := (optimizer.bind (·.enabled)).getD false
    optimizerRuns := (optimizer.bind (·.runs)).getD 200
    evmVersion := doc.settings.bind (·.evmVersion) }

/-- Where a source is written: its path below the temporary directory. -/
def destination (tmp : String) (src : SourcifySourceFile) : String :=
  joinText tmp (String.ofList (src.path.toList.dropWhile (· = '/')))

/-- The directory of a file to be written. -/
def createParent (files : List (String × String)) (dst : String) : Except String Unit :=
  match parentText dst with
  | some parent => errorAt ("failed to create solc tempdir entry " ++ parent ++ ": ")
      (host.createDirAll files parent)
  | none => pure ()

/-- The loop over the sources; `files` are those written so far. -/
def writeSources (tmp : String) :
    List (String × String) → List SourcifySourceFile → Except String (List (String × String))
  | files, [] => pure files
  | files, src :: rest => do
      let dst := destination tmp src
      createParent host files dst
      errorAt ("failed to write source file " ++ dst ++ ": ") (host.write files dst src.content)
      writeSources tmp (files ++ [(dst, src.content)]) rest

def solcArgs (settings : MetadataSettings) (paths : List String) : List String :=
  ["--combined-json", "abi,bin,bin-runtime,srcmap-runtime,storage-layout,ast",
    "--no-cbor-metadata"] ++
    (if settings.optimizerEnabled then
      ["--optimize", "--optimize-runs", toString settings.optimizerRuns] else []) ++
    (match settings.evmVersion with
      | some evm => ["--evm-version", evm]
      | none => []) ++ paths

/-- The text solc prints. -/
def runSolc (solcCmd : String) (settings : MetadataSettings) (files : List (String × String)) :
    Except String String := do
  let output ← errorAt ("failed to run solc (" ++ solcCmd ++
      ") for Sourcify-recompile (version " ++ settings.solcVersion ++ "): ")
    (host.output solcCmd (solcArgs settings (files.map Prod.fst)) files)
  if output.success then errorAt "solc output is not valid UTF-8: " (fromUtf8 output.stdout)
  else .error ("solc Sourcify-recompile failed (version " ++ settings.solcVersion ++
    "):\nstdout: " ++ fromUtf8Lossy output.stdout ++
    "\nstderr: " ++ fromUtf8Lossy output.stderr)

/-- The temporary directory, and solc's output as a text and as JSON. -/
def recompile (bundle : SourcifyContract) (solcCmd : String) :
    Except String (String × String × Value) := do
  let metadataJson ← okOr "Sourcify bundle has no metadata.json; cannot recompile"
    bundle.metadataJson
  let settings ← parseMetadataSettings host metadataJson
  if bundle.sources.isEmpty then
    .error "Sourcify bundle has no Solidity source files; cannot recompile"
  else
    let tmp ← errorAt "failed to create solc tempdir: " host.tempDir
    let files ← writeSources host tmp [] bundle.sources
    let combinedText ← runSolc host solcCmd settings files
    let combined ← errorAt "solc output is not valid JSON: " (host.fromStr combinedText)
    pure (tmp, combinedText, combined)

/-- The contract with the preferred name, or else the first one with bytecode, or else
the first one. -/
def pickContract (contracts : List (String × Value)) (preferredContractName : Option String) :
    Except String (String × Value) :=
  match preferredContractName with
  | some name => okOr ("solc output does not contain a contract named " ++ "\x60" ++ name ++
      "\x60") (contracts.find? fun c => (":" ++ name).toList.isSuffixOf c.1.toList)
  | none => okOr "solc output's 'contracts' map is empty"
      ((contracts.find? fun c => (c.2.getStr "bin-runtime").any fun s => !s.isEmpty).orElse
        fun _ => contracts.head?)

structure CompiledArtifacts extends ContractArtifacts where
  name : String

/-- An absent, empty or malformed layout is none. -/
def storageLayoutOf (contractJson : Value) : Option StorageLayout :=
  ((contractJson.get "storage-layout").filter fun v =>
    v.asObject.any fun fields => !fields.isEmpty).bind host.layoutFromValue

/-- The artifacts of a contract; paths and contents are those of the bundle. -/
def assemble (bundle : SourcifyContract) (combinedText : String) (contractKey : String)
    (contractJson : Value) : Except String CompiledArtifacts := do
  let runtimeBytecodeHex ← okOr ("missing 'bin-runtime' for contract " ++ contractKey)
    (contractJson.getStr "bin-runtime")
  let runtimeBytecode ← errorAt ("invalid runtime bytecode hex for contract " ++ contractKey ++
    ": ") (host.hexDecode runtimeBytecodeHex)
  if runtimeBytecode.isEmpty then
    .error ("contract " ++ contractKey ++
      " has empty runtime bytecode (likely an interface or abstract contract)")
  else
    let sourceMapRaw ← okOr ("missing 'srcmap-runtime' for contract " ++ contractKey)
      (contractJson.getStr "srcmap-runtime")
    if sourceMapRaw.isEmpty then
      .error ("contract " ++ contractKey ++ " has empty 'srcmap-runtime'")
    else pure {
      name := ((contractKey.toList.splitOn ':').getLast?.map String.ofList).getD contractKey
      sourceMap := SourceMap.parse sourceMapRaw
      runtimeBytecode
      pcToIdx := (buildPcToInstructionIndex runtimeBytecode).getD []
      sourcePaths := bundle.sources.map fun src => Path.ofText src.path
      sourceContents := bundle.sources.map (·.content)
      storageLayout := storageLayoutOf host contractJson
      solidityAst := (SolidityAst.fromCombinedJson host.fromStr combinedText).toOption }

def compileSourcifyBundle (bundle : SourcifyContract) (solcCmd : String)
    (preferredContractName : Option String) : Except String CompiledArtifacts := do
  let (_, combinedText, combined) ← recompile host bundle solcCmd
  let contracts ← okOr "solc output is missing the 'contracts' object"
    ((combined.get "contracts").bind Value.asObject)
  let (contractKey, contractJson) ← pickContract contracts preferredContractName
  assemble host bundle combinedText contractKey contractJson

end Compile

/-! ## §4  Steps that may fail -/

theorem bind_eq_ok_iff {ε α β : Type} {x : Except ε α} {f : α → Except ε β} {y : β} :
    (x >>= f) = .ok y ↔ ∃ a, x = .ok a ∧ f a = .ok y := by
  cases x with
  | error e => simp [Bind.bind, Except.bind]
  | ok a => simp [Bind.bind, Except.bind]

theorem errorAt_eq_ok_iff {α : Type} {context : String} {r : Except String α} {x : α} :
    errorAt context r = .ok x ↔ r = .ok x := by
  cases r <;> simp [errorAt, Except.mapError]

theorem okOr_eq_ok_iff {α : Type} {text : String} {opt : Option α} {x : α} :
    okOr text opt = .ok x ↔ opt = some x := by
  cases opt <;> simp [okOr]

theorem writeSources_cons_eq_ok_iff {host : Host} {tmp : String} {files all : List (String × String)}
    {src : SourcifySourceFile} {rest : List SourcifySourceFile} :
    writeSources host tmp files (src :: rest) = .ok all ↔
      createParent host files (destination tmp src) = .ok () ∧
        host.write files (destination tmp src) src.content = .ok () ∧
        writeSources host tmp (files ++ [(destination tmp src, src.content)]) rest = .ok all := by
  simp only [writeSources, bind_eq_ok_iff, errorAt_eq_ok_iff]
  constructor
  · rintro ⟨⟨⟩, hparent, ⟨⟩, hwrite, hrest⟩
    exact ⟨hparent, hwrite, hrest⟩
  · rintro ⟨hparent, hwrite, hrest⟩
    exact ⟨(), hparent, (), hwrite, hrest⟩

/-- A file system that refuses nothing takes all sources. -/
structure Host.AcceptsFiles (host : Host) : Prop where
  createDirAll : ∀ files dir, host.createDirAll files dir = .ok ()
  write : ∀ files path content, host.write files path content = .ok ()

theorem Host.AcceptsFiles.createParent {host : Host} (h : host.AcceptsFiles)
    (files : List (String × String)) (dst : String) : createParent host files dst = .ok () := by
  unfold EvmRecorder.createParent
  cases parentText dst with
  | none => rfl
  | some parent => exact errorAt_eq_ok_iff.mpr (h.createDirAll files parent)

theorem Host.AcceptsFiles.writeSources {host : Host} (h : host.AcceptsFiles) (tmp : String)
    (files : List (String × String)) (sources : List SourcifySourceFile) :
    ∃ all, writeSources host tmp files sources = .ok all := by
  induction sources generalizing files with
  | nil => exact ⟨files, rfl⟩
  | cons src rest ih =>
      obtain ⟨all, hrest⟩ := ih (files ++ [(destination tmp src, src.content)])
      exact ⟨all, writeSources_cons_eq_ok_iff.mpr ⟨h.createParent files _, h.write files _ _, hrest⟩⟩

end EvmRecorder
