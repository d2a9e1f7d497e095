import EvmRecorder.Model.SourceFetcher
import EvmRecorder.SourceMap.LineTable

/-!
# The order of a bundle's sources

A source map refers to files by number, and solc numbers files in the order of its
`sourceList`. The artifacts of a bundle list paths and contents in the order of the
bundle, so file numbers find the right files exactly when the two orders agree.
-/

namespace EvmRecorder

open Bytes

/-! ## §1  Files by number -/

/-- The name of file `f` in `sourceList`. -/
def sourceNamed (combined : Value) (f : Nat) : Option String :=
  ((combined.getArray "sourceList").bind (·[f]?)).bind Value.asStr

section Numbering

variable (unitName : String → String) (tmp : String) (sources : List SourcifySourceFile)

/-- The source that solc calls `name`: the last one written to a path of this name.
`unitName` is solc's name for a path on its command line. -/
def fileNamed (name : String) : Option SourcifySourceFile :=
  sources.reverse.find? fun src => unitName (destination tmp src) = name

/-- Index `f` of paths and contents is the file that solc numbered `f`. -/
def AlignedWith (combined : Value) (sourcePaths : List Path) (sourceContents : List String) :
    Prop :=
  ∀ f name, sourceNamed combined f = some name →
    ∃ src, fileNamed unitName tmp sources name = some src ∧
      sourcePaths[f]? = some (Path.ofText src.path) ∧ sourceContents[f]? = some src.content

/-- The source at index `f` of the bundle is the file that solc numbered `f`. -/
def InSolcOrder (combined : Value) : Prop :=
  ∀ f name, sourceNamed combined f = some name →
    ∃ src listed, fileNamed unitName tmp sources name = some src ∧
      sources[f]? = some listed ∧ Path.ofText listed.path = Path.ofText src.path ∧
      listed.content = src.content

/-- A location is the line and column of the entry's offset in the file that solc gave
the entry's number. -/
def ReadsNumberedFiles (combined : Value) (a : ContractArtifacts) : Prop :=
  ∀ pc loc, a.sourceMap.resolvePc pc a.pcToIdx a.sourceContents = some loc →
    ∀ name, sourceNamed combined (asUsize loc.fileIndex) = some name →
      ∃ src entry, fileNamed unitName tmp sources name = some src ∧
        a.sourceMap.getEntryForPc pc a.pcToIdx = some entry ∧
        entry.fileIndex = loc.fileIndex ∧
        (loc.line, loc.column) = offsetToLineCol src.content (asUsize entry.offset)

variable {unitName tmp sources}

theorem alignedWith_bundle_iff {combined : Value} :
    AlignedWith unitName tmp sources combined (sources.map fun src => Path.ofText src.path)
        (sources.map (·.content)) ↔ InSolcOrder unitName tmp sources combined := by
  refine forall_congr' fun f => forall_congr' fun name => imp_congr_right fun _ => ?_
  refine exists_congr fun src => ?_
  rw [List.getElem?_map, List.getElem?_map]
  cases sources[f]? with
  | none => simp
  | some listed => simp

/-- Where every name is that of the source at its number, and no other source is
written there, the orders agree. -/
theorem inSolcOrder_of_names {combined : Value}
    (hdistinct : (sources.map fun src => unitName (destination tmp src)).Nodup)
    (hnames : ∀ f name, sourceNamed combined f = some name →
      (sources[f]?.map fun src => unitName (destination tmp src)) = some name) :
    InSolcOrder unitName tmp sources combined := by
  intro f name hname
  obtain ⟨listed, hlisted, hunit⟩ := Option.map_eq_some_iff.mp (hnames f name hname)
  have hfound : (sources.reverse.find? fun src => unitName (destination tmp src) = name).isSome := by
    rw [List.find?_isSome]
    exact ⟨listed, List.mem_reverse.mpr (List.mem_of_getElem? hlisted), by simpa using hunit⟩
  obtain ⟨src, hsrc⟩ := Option.isSome_iff_exists.mp hfound
  have hsame : src = listed := by
    have hunit' : unitName (destination tmp src) = name := by simpa using List.find?_some hsrc
    exact List.inj_on_of_nodup_map hdistinct (List.mem_reverse.mp (List.mem_of_find?_eq_some hsrc))
      (List.mem_of_getElem? hlisted) (hunit'.trans hunit.symm)
  exact ⟨src, listed, hsrc, hlisted, by rw [hsame], by rw [hsame]⟩

/-- Aligned contents are read at the right file. -/
theorem AlignedWith.readsNumberedFiles {combined : Value} {a : ContractArtifacts}
    (h : AlignedWith unitName tmp sources combined a.sourcePaths a.sourceContents) :
    ReadsNumberedFiles unitName tmp sources combined a := by
  intro pc loc hloc name hname
  obtain ⟨src, hsrc, -, hcontent⟩ := h _ name hname
  obtain ⟨entry, source, -, hentry, hsource, -, rfl⟩ := SourceMap.resolvePc_spec hloc
  obtain rfl := Option.some.inj (hsource.symm.trans hcontent)
  exact ⟨src, entry, hsrc, hentry, rfl, rfl⟩

end Numbering

/-! ## §2  The artifacts of a bundle -/

section Bundle

variable (host : Host) (unitName : String → String) (bundle : SourcifyContract)
  (solcCmd : String)

/-- The artifacts follow the numbers of the solc run they are made from. -/
def SourcesAligned (a : ContractArtifacts) : Prop :=
  ∀ tmp combinedText combined, recompile host bundle solcCmd = .ok (tmp, combinedText, combined) →
    AlignedWith unitName tmp bundle.sources combined a.sourcePaths a.sourceContents

/-- The bundle lists its sources in solc's order. -/
def BundleInSolcOrder : Prop :=
  ∀ tmp combinedText combined, recompile host bundle solcCmd = .ok (tmp, combinedText, combined) →
    InSolcOrder unitName tmp bundle.sources combined

variable {host bundle solcCmd}

theorem sources_of_assemble {combinedText contractKey : String} {contractJson : Value}
    {a : CompiledArtifacts}
    (h : assemble host bundle combinedText contractKey contractJson = .ok a) :
    a.sourcePaths = bundle.sources.map (fun src => Path.ofText src.path) ∧
      a.sourceContents = bundle.sources.map (·.content) := by
  simp only [assemble, bind_eq_ok_iff] at h
  obtain ⟨_, -, runtimeBytecode, -, h⟩ := h
  split at h
  · cases h
  · rw [bind_eq_ok_iff] at h
    obtain ⟨sourceMapRaw, -, h⟩ := h
    split at h
    · cases h
    · cases h
      exact ⟨rfl, rfl⟩

/-- A bundle that compiles was recompiled, and its own order is kept. -/
theorem sources_of_compile {preferredContractName : Option String} {a : CompiledArtifacts}
    (h : compileSourcifyBundle host bundle solcCmd preferredContractName = .ok a) :
    (∃ run, recompile host bundle solcCmd = .ok run) ∧
      a.sourcePaths = bundle.sources.map (fun src => Path.ofText src.path) ∧
      a.sourceContents = bundle.sources.map (·.content) := by
  simp only [compileSourcifyBundle, bind_eq_ok_iff] at h
  obtain ⟨run, hrun, contracts, -, picked, -, hassemble⟩ := h
  exact ⟨⟨run, hrun⟩, sources_of_assemble hassemble⟩

end Bundle

/-- **Source order.** The artifacts of a bundle have at every index the file that solc
numbered so exactly when the bundle lists its sources in solc's order; then every
location is read in the file of its source-map entry. -/
theorem sourcesAligned_iff {host : Host} (unitName : String → String)
    {bundle : SourcifyContract} {solcCmd : String} {preferredContractName : Option String}
    {a : CompiledArtifacts}
    (hok : compileSourcifyBundle host bundle solcCmd preferredContractName = .ok a) :
    (SourcesAligned host unitName bundle solcCmd a.toContractArtifacts ↔
        BundleInSolcOrder host unitName bundle solcCmd) ∧
      (BundleInSolcOrder host unitName bundle solcCmd → ∀ tmp combinedText combined,
        recompile host bundle solcCmd = .ok (tmp, combinedText, combined) →
          ReadsNumberedFiles unitName tmp bundle.sources combined a.toContractArtifacts) := by
  obtain ⟨-, hpaths, hcontents⟩ := sources_of_compile hok
  have haligned : SourcesAligned host unitName bundle solcCmd a.toContractArtifacts ↔
      BundleInSolcOrder host unitName bundle solcCmd := by
    refine forall_congr' fun tmp => forall_congr' fun combinedText =>
      forall_congr' fun combined => imp_congr_right fun _ => ?_
    rw [hpaths, hcontents]
    exact alignedWith_bundle_iff
  refine ⟨haligned, fun horder tmp combinedText combined hrun => ?_⟩
  exact (haligned.mpr horder tmp combinedText combined hrun).readsNumberedFiles

/-! ## §3  Two files -/

def IsAscii (text : String) : Prop := ∀ c ∈ text.toList, c.toNat < 128

theorem isAscii_ofList {chars : List Char} (h : (chars.all fun c => c.toNat < 128) = true) :
    IsAscii (String.ofList chars) := by
  intro c hc
  rw [String.toList_ofList] at hc
  exact of_decide_eq_true (List.all_eq_true.mp h c hc)

theorem IsAscii.append {first second : String} (hfirst : IsAscii first)
    (hsecond : IsAscii second) : IsAscii (first ++ second) := by
  intro c hc
  rw [String.toList_append, List.mem_append] at hc
  rcases hc with hc | hc
  · exact hfirst c hc
  · exact hsecond c hc

theorem utf8ErrorLoop_ascii : ∀ {chars : List Char} (i : Nat), (∀ c ∈ chars, c.toNat < 128) →
    utf8ErrorLoop 0 i (chars.flatMap String.utf8EncodeChar) = none
  | [], _, _ => rfl
  | c :: chars, i, h => by
      have hc : c.toNat < 128 := h c List.mem_cons_self
      rw [List.flatMap_cons, utf8EncodeChar_ascii hc, List.singleton_append, utf8ErrorLoop,
        decodeNext_ascii hc]
      dsimp only
      rw [if_pos (by exact utf8EncodeChar_ascii hc)]
      exact utf8ErrorLoop_ascii (i + 1) fun d hd => h d (List.mem_cons_of_mem c hd)

/-- The bytes of an ASCII text are valid UTF-8 and read as the text. -/
theorem IsAscii.fromUtf8 {text : String} (h : IsAscii text) :
    fromUtf8 (utf8Bytes text) = .ok text := by
  rw [EvmRecorder.fromUtf8, utf8Bytes, utf8ErrorLoop_ascii 0 h]
  dsimp only
  exact congrArg Except.ok (fromUtf8Lossy_utf8 text)

def ownerSource : SourcifySourceFile :=
  { name := "Owner.sol", path := "/src/Owner.sol", content := "contract Owner \x7b\x7d" }

def vaultSource : SourcifySourceFile :=
  { name := "Vault.sol", path := "/src/Vault.sol", content := "contract Vault \x7b\x7d" }

def pairMetadata : String := "\x7b\"compiler\":\x7b\"version\":\"0.8.28\"\x7d\x7d"

def pairBundle (sources : List SourcifySourceFile) : SourcifyContract :=
  { sources, metadataJson := some pairMetadata }

/-- What solc prints for both files, whatever their order on the command line, less the
fields that do not matter here. -/
def pairOutput : String :=
  "\x7b\"contracts\":\x7b\"/t/src/Owner.sol:Owner\":" ++
    "\x7b\"bin-runtime\":\"60806040525f5ffdfe\",\"srcmap-runtime\":\"0:17:0:-:0;;;;;\"\x7d," ++
    "\"/t/src/Vault.sol:Vault\":" ++
    "\x7b\"bin-runtime\":\"60806040525f5ffdfe\",\"srcmap-runtime\":\"0:17:1:-:0;;;;;\"\x7d\x7d," ++
    "\"sourceList\":[\"/t/src/Owner.sol\",\"/t/src/Vault.sol\"]\x7d"

def pairValue : Value :=
  .object [("contracts", .object [
      ("/t/src/Owner.sol:Owner", .object
        [("bin-runtime", .string "60806040525f5ffdfe"),
          ("srcmap-runtime", .string "0:17:0:-:0;;;;;")]),
      ("/t/src/Vault.sol:Vault", .object
        [("bin-runtime", .string "60806040525f5ffdfe"),
          ("srcmap-runtime", .string "0:17:1:-:0;;;;;")])]),
    ("sourceList", .array [.string "/t/src/Owner.sol", .string "/t/src/Vault.sol"])]

/-- Two pushes, a store and a revert. -/
def pairBytecode : List UInt8 := [0x60, 0x80, 0x60, 0x40, 0x52, 0x5f, 0x5f, 0xfd, 0xfe]

/-- A parser on the one text it is asked about. -/
def parsing {α : Type} (text : String) (x : α) (given : String) : Except String α :=
  if given = text then .ok x else .error "unexpected text"

theorem parsing_self {α : Type} (text : String) (x : α) : parsing text x text = .ok x :=
  if_pos rfl

def pairHost : Host where
  metadataFromStr := parsing pairMetadata ⟨"0.8.28", none⟩
  tempDir := .ok "/t"
  createDirAll _ _ := .ok ()
  write _ _ _ := .ok ()
  output _ _ _ := .ok ⟨true, utf8Bytes pairOutput, []⟩
  fromStr := parsing pairOutput pairValue
  hexDecode := parsing "60806040525f5ffdfe" pairBytecode
  layoutFromValue _ := none

theorem fromUtf8_pairOutput : fromUtf8 (utf8Bytes pairOutput) = .ok pairOutput := by
  have hascii : IsAscii pairOutput := by
    unfold pairOutput
    refine IsAscii.append (IsAscii.append (IsAscii.append (IsAscii.append ?_ ?_) ?_) ?_) ?_
    all_goals exact isAscii_ofList rfl
  exact hascii.fromUtf8

theorem acceptsFiles_pairHost : pairHost.AcceptsFiles := ⟨fun _ _ => rfl, fun _ _ _ => rfl⟩

theorem metadataFromStr_pairHost :
    pairHost.metadataFromStr pairMetadata = .ok ⟨"0.8.28", none⟩ :=
  parsing_self pairMetadata _

theorem fromStr_pairHost : pairHost.fromStr pairOutput = .ok pairValue := by
  simp only [pairHost, parsing_self]

theorem hexDecode_pairHost : pairHost.hexDecode "60806040525f5ffdfe" = .ok pairBytecode :=
  parsing_self "60806040525f5ffdfe" _

theorem recompile_pairBundle (src : SourcifySourceFile) (rest : List SourcifySourceFile) :
    recompile pairHost (pairBundle (src :: rest)) "solc" = .ok ("/t", pairOutput, pairValue) := by
  obtain ⟨files, hfiles⟩ := acceptsFiles_pairHost.writeSources "/t" [] (src :: rest)
  have hsettings : parseMetadataSettings pairHost pairMetadata =
      .ok ⟨"0.8.28", false, 200, none⟩ := by
    simp only [parseMetadataSettings, bind_eq_ok_iff, errorAt_eq_ok_iff]
    exact ⟨_, metadataFromStr_pairHost, rfl⟩
  have hsolc : runSolc pairHost "solc" ⟨"0.8.28", false, 200, none⟩ files = .ok pairOutput := by
    simp only [runSolc, bind_eq_ok_iff, errorAt_eq_ok_iff]
    refine ⟨⟨true, utf8Bytes pairOutput, []⟩, rfl, ?_⟩
    simpa only [↓reduceIte, errorAt_eq_ok_iff] using fromUtf8_pairOutput
  simp only [recompile, bind_eq_ok_iff]
  refine ⟨pairMetadata, rfl, _, hsettings, ?_⟩
  rw [if_neg (by simp [pairBundle])]
  simp only [bind_eq_ok_iff, errorAt_eq_ok_iff]
  exact ⟨"/t", rfl, files, hfiles, pairOutput, hsolc, pairValue, fromStr_pairHost, rfl⟩

def pairArtifacts (sources : List SourcifySourceFile) : CompiledArtifacts where
  name := "Vault"
  sourceMap := SourceMap.parse "0:17:1:-:0;;;;;"
  runtimeBytecode := pairBytecode
  pcToIdx := (buildPcToInstructionIndex pairBytecode).getD []
  sourcePaths := sources.map fun src => Path.ofText src.path
  sourceContents := sources.map (·.content)
  solidityAst := (SolidityAst.fromCombinedJson pairHost.fromStr pairOutput).toOption

theorem compile_pairBundle (src : SourcifySourceFile) (rest : List SourcifySourceFile) :
    compileSourcifyBundle pairHost (pairBundle (src :: rest)) "solc" (some "Vault") =
      .ok (pairArtifacts (src :: rest)) := by
  simp only [compileSourcifyBundle, bind_eq_ok_iff]
  refine ⟨_, recompile_pairBundle src rest, _, rfl, _, rfl, ?_⟩
  simp only [assemble, bind_eq_ok_iff, errorAt_eq_ok_iff]
  refine ⟨"60806040525f5ffdfe", rfl, pairBytecode, hexDecode_pairHost, ?_⟩
  rw [if_neg (by decide)]
  simp only [bind_eq_ok_iff]
  refine ⟨"0:17:1:-:0;;;;;", rfl, ?_⟩
  rw [if_neg (by decide)]
  rfl

/-- The bundle lists its files as solc does. -/
theorem sourcesAligned_sorted :
    SourcesAligned pairHost id (pairBundle [ownerSource, vaultSource]) "solc"
      (pairArtifacts [ownerSource, vaultSource]).toContractArtifacts := by
  refine (sourcesAligned_iff id (compile_pairBundle ownerSource [vaultSource])).1.mpr ?_
  intro tmp combinedText combined hrun
  rw [recompile_pairBundle] at hrun
  cases hrun
  refine inSolcOrder_of_names (by decide) fun f name hname => ?_
  rcases f with _ | _ | f
  · cases hname
    decide
  · cases hname
    decide
  · cases hname

/-- The bundle lists `Vault.sol` first: at index 1, the number of `Vault.sol`, the artifacts
have the text of `Owner.sol`. -/
theorem sources_swapped :
    compileSourcifyBundle pairHost (pairBundle [vaultSource, ownerSource]) "solc" (some "Vault") =
        .ok (pairArtifacts [vaultSource, ownerSource]) ∧
      ¬ SourcesAligned pairHost id (pairBundle [vaultSource, ownerSource]) "solc"
        (pairArtifacts [vaultSource, ownerSource]).toContractArtifacts := by
  refine ⟨compile_pairBundle vaultSource [ownerSource], fun haligned => ?_⟩
  obtain ⟨src, hsrc, -, hcontent⟩ := haligned _ _ _ (recompile_pairBundle vaultSource
    [ownerSource]) 1 "/t/src/Vault.sol" rfl
  have hvault : fileNamed id "/t" [vaultSource, ownerSource] "/t/src/Vault.sol" =
      some vaultSource := by
    decide
  obtain rfl := Option.some.inj (hvault.symm.trans hsrc)
  exact absurd (Option.some.inj hcontent) (by decide)

end EvmRecorder
