import EvmRecorder.Model.Sourcify
import EvmRecorder.MultiRecorder.StepLocations
import EvmRecorder.Session.Scope
import EvmRecorder.SourceFetcher.SourceOrder

/-!
# Where the lines of a session come from

Artifacts of verified contracts are fetched, compiled and registered, and traces are
recorded with them. Each line table and each step that then reaches the writer is
that of a source file in a response of the server, and the step stands at an offset
of that file's text.
-/

namespace EvmRecorder

variable {files : Set (Path × String)}

/-! ## §1  Grounded events -/

/-- Line tables and steps are about files in `files`. -/
def TraceEvent.Grounded (files : Set (Path × String)) : TraceEvent → Prop
  | .registerPathWithLineLengths path lineLengths =>
      ∃ content, (path, content) ∈ files ∧ lineLengths = computeLineLengths content
  | .registerStepWithColumn path line column =>
      ∃ content offset, (path, content) ∈ files ∧ offset ≤ byteLen content ∧
        (line, column) =
          ((offsetToLineCol content offset).1, (offsetToLineCol content offset).2 + 1)
  | _ => True

/-- All events of a block are grounded. -/
def Grounded (files : Set (Path × String)) (events : List TraceEvent) : Prop :=
  ∀ e ∈ events, e.Grounded files

namespace Grounded

variable {events events' : List TraceEvent}

theorem append (h : Grounded files events) (h' : Grounded files events') :
    Grounded files (events ++ events') := by
  intro e he
  rcases List.mem_append.mp he with he | he
  · exact h e he
  · exact h' e he

/-- Blocks without tables and steps. -/
theorem of_issues {kinds : List EventKind} (h : Issues kinds events) (htable : .lineTable ∉ kinds)
    (hstep : .step ∉ kinds) : Grounded files events := by
  intro e he
  have hkind := h e he
  cases e with
  | registerPathWithLineLengths path lineLengths => exact absurd hkind htable
  | registerStepWithColumn path line column => exact absurd hkind hstep
  | _ => trivial

theorem ensurePath {path : Path} {content : String} (h : (path, content) ∈ files)
    (registered : List Path) :
    Grounded files (ensurePathWithLineLengths registered path content).2 := by
  unfold ensurePathWithLineLengths
  intro e he
  split at he
  · cases he
  · obtain rfl := List.mem_singleton.mp he
    exact ⟨content, h, rfl⟩

end Grounded

/-- The files of the artifacts are in `files`. -/
structure Artifacts.HasFiles (files : Set (Path × String)) (a : Artifacts) : Prop where
  lengths : a.sourcePaths.length = a.sourceContents.length
  mem : ∀ (i : Nat) path content, a.sourcePaths[i]? = some path →
    a.sourceContents[i]? = some content → (path, content) ∈ files

theorem hasFiles_empty : Artifacts.HasFiles files {} where
  lengths := rfl
  mem := by
    intro i path content hpath
    cases hpath

/-! ## §2  Blocks -/

section Blocks

variable {a : Artifacts}

theorem grounded_emitStep (h : a.HasFiles files) {pc : Nat} {loc : SourceLocation}
    (hloc : a.resolvePc pc = some loc) (mainPath : Path) (registered : List Path)
    (prevLine : Option SourceLocation) (storageState : NamedValues) :
    Grounded files (emitStep a mainPath registered prevLine loc storageState).2 := by
  obtain ⟨_, entry, content, -, -, -, hcontent, hoffset, rfl⟩ := a.resolvePc_spec hloc
  have hlt : asUsize entry.fileIndex < a.sourcePaths.length :=
    h.lengths ▸ (List.getElem?_eq_some_iff.mp hcontent).1
  have hpath : a.sourcePaths[asUsize entry.fileIndex]? =
      some a.sourcePaths[asUsize entry.fileIndex] := List.getElem?_eq_getElem hlt
  have hmem := h.mem _ _ _ hpath hcontent
  unfold emitStep
  split
  · exact .of_issues Issues.nil List.not_mem_nil List.not_mem_nil
  · dsimp only
    rw [hcontent, Artifacts.pathOf, hpath, Option.getD_some]
    refine Grounded.append (.append (.ensurePath hmem registered) ?_) ?_
    · intro e he
      obtain rfl := List.mem_singleton.mp he
      exact ⟨content, _, hmem, hoffset, rfl⟩
    · intro e he
      obtain ⟨x, -, rfl⟩ := List.mem_map.mp he
      trivial

theorem grounded_located (h : a.HasFiles files) {pc : Nat} {loc : SourceLocation}
    (hloc : a.resolvePc pc = some loc) (mainPath : Path) (registered : List Path)
    (prevLine : Option SourceLocation) (storageState : NamedValues)
    (values : List (VarDecl × U256)) {jump : List TraceEvent}
    (hjump : Issues [.setup, .argument, .call, .ret] jump) :
    Grounded files ((emitStep a mainPath registered prevLine loc storageState).2 ++
      localEvents values ++ jump) :=
  ((grounded_emitStep h hloc mainPath registered prevLine storageState).append
    (.of_issues (issues_localEvents values) (by decide) (by decide))).append
      (.of_issues hjump (by decide) (by decide))

theorem grounded_preamble (h : a.HasFiles files) (registered : List Path) :
    Grounded files (Recorder.preamble registered a) := by
  refine Grounded.append ?_ ?_
  · unfold Recorder.registerMain
    split
    · next path content hpath hcontent =>
        rw [List.head?_eq_getElem?] at hpath hcontent
        exact .ensurePath (h.mem 0 path content hpath hcontent) registered
    · exact .of_issues Issues.nil List.not_mem_nil List.not_mem_nil
  · intro e he
    rcases List.mem_pair.mp he with rfl | rfl <;> trivial

end Blocks

/-! ## §3  Recordings -/

section Recordings

variable (keccak256 : List UInt8 → U256)

theorem grounded_recordFromStructlog {a : Artifacts} (h : a.HasFiles files)
    (registered : List Path) (structLogs : List StructLog) :
    Grounded files (recordFromStructlog keccak256 registered a structLogs) := by
  unfold recordFromStructlog
  split
  · exact .of_issues Issues.nil List.not_mem_nil List.not_mem_nil
  · refine (grounded_preamble h registered).append (Machine.forall_mem_run ?_ _ _)
    intro i log _ s
    dsimp only [Recorder.step]
    refine Grounded.append (.append (.append ?_ ?_) ?_) ?_
    · exact .of_issues (Recorder.issues_depthEvents _ _ _ _ _ _) (by decide) (by decide)
    · unfold Recorder.handleLocation
      split
      · next loc hloc =>
          exact grounded_located h hloc _ _ _ _ _ (Recorder.issues_handleJump _ _ _ _ _ _ _)
      · exact .of_issues Issues.nil List.not_mem_nil List.not_mem_nil
    · exact .of_issues (Recorder.issues_handleStorage _ _ _ _) (by decide) (by decide)
    · exact .of_issues (issues_specialEvents log) (by decide) (by decide)

open MultiRecorder in
theorem aboutSources_hasFiles : AboutSources (Artifacts.HasFiles files) where
  unknown := hasFiles_empty
  layout _ _ h := ⟨h.lengths, h.mem⟩
  index _ _ h := ⟨h.lengths, h.mem⟩

theorem grounded_recordFromStructlogMultiContract {registry : ContractRegistry}
    (h : ∀ entry ∈ registry.contracts, entry.2.artifacts.HasFiles files)
    (registered : List Path) (contractAddress : Address) (structLogs : List StructLog) :
    Grounded files (recordFromStructlogMultiContract keccak256 registered registry contractAddress
      structLogs).1 := by
  unfold recordFromStructlogMultiContract
  split
  · exact .of_issues Issues.nil List.not_mem_nil List.not_mem_nil
  · have hinitial := aboutSources_hasFiles.initialArtifacts contractAddress h
    refine (grounded_preamble hinitial registered).append (Machine.forall_mem_run ?_ _ _)
    intro i log _ s
    have hfiles : (MultiRecorder.artifactsFor registry contractAddress structLogs i log s).HasFiles
        files := aboutSources_hasFiles.artifactsOn contractAddress h _
    dsimp only [MultiRecorder.stepOf, MultiRecorder.step]
    refine Grounded.append (.append (.append ?_ ?_) ?_) ?_
    · exact .of_issues (MultiRecorder.issues_depthEvents _ _ _) (by decide) (by decide)
    · unfold MultiRecorder.handleLocation
      split
      · next loc hloc =>
          exact grounded_located hfiles hloc _ _ _ _ _
            (MultiRecorder.issues_handleJump _ _ _ _ _ _ _)
      · exact .of_issues Issues.nil List.not_mem_nil List.not_mem_nil
    · exact .of_issues (MultiRecorder.issues_handleStorage _ _ _ _) (by decide) (by decide)
    · exact .of_issues (issues_specialEvents log) (by decide) (by decide)

end Recordings

/-! ## §4  Verified contracts -/

section Verified

variable (host : FetchHost)

/-- A response of the server, by the body it was parsed from. -/
inductive Responds : SourcifyResponse → Prop where
  | mk {chainId : Nat} {address : Address} {resp : HttpResponse} {body : String}
      {raw : SourcifyResponse} (hget : host.get (buildSourcifyUrl host chainId address) = .ok resp)
      (hstatus : 200 ≤ resp.status ∧ resp.status < 300) (hbody : resp.text = .ok body)
      (hraw : host.responseFromStr body = .ok raw)
      (hmatch : raw.status = "full" ∨ raw.status = "partial") : Responds raw

/-- The source files of the server's responses. -/
def verifiedFiles : Set (Path × String) :=
  {file | ∃ raw f, Responds host raw ∧ f ∈ raw.files ∧ isSourceName f.name = true ∧
    file = (Path.ofText f.path, f.content)}

/-- Artifacts that `fetch_contract_source` has returned. -/
def Fetched (artifacts : ContractArtifacts) : Prop :=
  ∃ address chainId preferredContractName,
    fetchContractSource host address chainId preferredContractName = .ok (some artifacts)

/-- A registry to which only fetched artifacts have been added. -/
inductive Built : ContractRegistry → Prop where
  | new : Built .new
  | register {registry : ContractRegistry} {address : Address} {artifacts : ContractArtifacts}
      (h : Built registry) (hfetched : Fetched host artifacts) :
      Built (registry.register address artifacts)
  | setDefault {registry : ContractRegistry} {address : Address} (h : Built registry) :
      Built (registry.setDefault address)

/-- A request whose source files have all been fetched. -/
inductive FromServer : Session.Request → Prop where
  | single {artifacts : ContractArtifacts} {structLogs : List StructLog}
      (hfetched : Fetched host artifacts) :
      FromServer (.recordFromStructlog structLogs artifacts.sourceMap artifacts.runtimeBytecode
        artifacts.sourcePaths artifacts.sourceContents artifacts.storageLayout
        artifacts.solidityAst)
  | multi {registry : ContractRegistry} {structLogs : List StructLog} {contractAddress : Address}
      (hbuilt : Built host registry) :
      FromServer (.recordFromStructlogMultiContract structLogs registry contractAddress)
  | revert {metadata reason : String} : FromServer (.registerRevert metadata reason)

end Verified

variable {host : FetchHost}

/-- Sources keep their order, the last metadata file counts. -/
theorem sortFiles_eq (rest : List SourcifySourceFile) : ∀ metadataJson sources,
    sortFiles metadataJson sources rest =
      (((rest.filter (·.name = "metadata.json")).getLast?.map (·.content)).or metadataJson,
        sources ++ rest.filter fun f => isSourceName f.name) := by
  have hmetadata : isSourceName "metadata.json" = false := by decide
  induction rest with
  | nil => simp [sortFiles]
  | cons f rest ih =>
      intro metadataJson sources
      rw [sortFiles]
      by_cases hname : f.name = "metadata.json"
      · rw [if_pos hname, ih, List.filter_cons_of_pos (by simpa using hname),
          List.filter_cons_of_neg (by rw [hname, hmetadata]; exact Bool.false_ne_true)]
        cases (rest.filter (·.name = "metadata.json")) with
        | nil => rfl
        | cons g gs => simp [List.getLast?_cons]
      · rw [if_neg hname, List.filter_cons_of_neg (by simpa using hname)]
        by_cases hsource : isSourceName f.name = true
        · rw [if_pos hsource, ih, List.filter_cons, if_pos hsource, List.append_assoc]
          rfl
        · rw [if_neg hsource, ih, List.filter_cons, if_neg hsource]

theorem matchOf_eq_ok {status : String} {m : SourcifyMatch} (h : matchOf status = .ok m) :
    status = "full" ∨ status = "partial" := by
  unfold matchOf at h
  split at h
  · exact .inl rfl
  · exact .inr rfl
  · cases h

/-- A bundle has the sources of a response. -/
theorem fetchSourcifyFiles_spec {chainId : Nat} {address : Address} {bundle : MatchedContract}
    (h : fetchSourcifyFiles host chainId address = .ok (some bundle)) :
    ∃ raw, Responds host raw ∧
      bundle.sources = raw.files.filter fun f => isSourceName f.name := by
  simp only [fetchSourcifyFiles, bind_eq_ok_iff, errorAt_eq_ok_iff] at h
  obtain ⟨resp, hget, h⟩ := h
  split at h
  · cases h
  · split at h
    · next hstatus =>
        simp only [bind_eq_ok_iff, errorAt_eq_ok_iff] at h
        obtain ⟨body, hbody, contract, hcontract, h⟩ := h
        cases h
        simp only [parseSourcifyResponse, bind_eq_ok_iff, errorAt_eq_ok_iff] at hcontract
        obtain ⟨raw, hraw, matchStatus, hmatch, hcontract⟩ := hcontract
        cases hcontract
        refine ⟨raw, .mk hget hstatus hbody hraw (matchOf_eq_ok hmatch), ?_⟩
        rw [sortFiles_eq]
        rfl
    · cases h

theorem Fetched.hasFiles {artifacts : ContractArtifacts} (h : Fetched host artifacts) :
    artifacts.artifacts.HasFiles (verifiedFiles host) := by
  obtain ⟨address, chainId, preferredContractName, h⟩ := h
  simp only [fetchContractSource, bind_eq_ok_iff] at h
  obtain ⟨_ | bundle, hfetch, h⟩ := h
  · cases h
  · dsimp only at h
    rw [bind_eq_ok_iff] at h
    obtain ⟨compiled, hcompile, h⟩ := h
    cases h
    obtain ⟨raw, hresponds, hsources⟩ := fetchSourcifyFiles_spec hfetch
    obtain ⟨-, hpaths, hcontents⟩ := sources_of_compile hcompile
    constructor
    · show compiled.sourcePaths.length = compiled.sourceContents.length
      rw [hpaths, hcontents, List.length_map, List.length_map]
    · intro i path content hpath hcontent
      replace hpath : compiled.sourcePaths[i]? = some path := hpath
      replace hcontent : compiled.sourceContents[i]? = some content := hcontent
      rw [hpaths, List.getElem?_map] at hpath
      rw [hcontents, List.getElem?_map] at hcontent
      obtain ⟨f, hf, rfl⟩ := Option.map_eq_some_iff.mp hpath
      obtain ⟨g, hg, rfl⟩ := Option.map_eq_some_iff.mp hcontent
      obtain rfl := Option.some.inj (hf.symm.trans hg)
      have hmem := List.mem_of_getElem? hf
      rw [hsources, List.mem_filter] at hmem
      exact ⟨raw, f, hresponds, hmem.1, hmem.2, rfl⟩

theorem Built.hasFiles {registry : ContractRegistry} (h : Built host registry) :
    ∀ entry ∈ registry.contracts, entry.2.artifacts.HasFiles (verifiedFiles host) := by
  induction h with
  | new => exact fun entry hentry => nomatch hentry
  | register h hfetched ih =>
      intro entry hentry
      rcases List.mem_cons.mp hentry with rfl | hentry
      · exact hfetched.hasFiles
      · exact ih entry hentry
  | setDefault h ih => exact ih

theorem grounded_perform (keccak256 : List UInt8 → U256) {request : Session.Request}
    (h : FromServer host request) (self : Session) :
    Grounded (verifiedFiles host) (self.perform keccak256 request).2 := by
  cases h with
  | single hfetched =>
      have hfiles := hfetched.hasFiles
      dsimp only [Session.perform]
      refine grounded_recordFromStructlog keccak256 ?_ _ _
      exact ⟨hfiles.lengths, hfiles.mem⟩
  | multi hbuilt => exact grounded_recordFromStructlogMultiContract keccak256 hbuilt.hasFiles _ _ _
  | revert =>
      intro e he
      obtain rfl := List.mem_singleton.mp he
      trivial

/-- **Only verified lines.** When all source files of a session were fetched, every line
table that reaches the writer is that of a source file in a response of the server, and
every step stands at the line and column of an offset in the text of one. -/
theorem verifiedCalls_grounded (keccak256 : List UInt8 → U256) (accepts : WriterCall → Bool)
    (outputDir : Path) {requests : List Session.Request}
    (h : ∀ request ∈ requests, FromServer host request) :
    ∀ e, .event e ∈ Session.calls keccak256 accepts outputDir requests →
      e.Grounded (verifiedFiles host) := by
  intro e he
  unfold Session.calls at he
  dsimp only at he
  split at he
  · rw [List.mem_append, List.mem_append] at he
    rcases he with (he | he) | he
    · exact absurd rfl (Session.ne_event_initializeTrace accepts _ _ he e)
    · obtain ⟨e', he', heq⟩ := List.mem_map.mp he
      cases heq
      exact Machine.forall_mem_run
        (fun _ request hrequest self => grounded_perform keccak256 (h request hrequest) self)
        0 _ e he'
    · exact absurd rfl (Session.ne_event_finalize accepts _ he e)
  · exact absurd rfl (Session.ne_event_initializeTrace accepts _ _ he e)

/-- A server that has one contract. -/
def vaultServer : FetchHost where
  toHost := pairHost
  env _ := none
  addressText _ := "0x00"
  get _ := .ok ⟨200, "200 OK", .ok "body"⟩
  responseFromStr _ := .ok ⟨"full", [ownerSource, vaultSource, ⟨"metadata.json", "", pairMetadata⟩]⟩

theorem fetched_vault : Fetched vaultServer
    (pairArtifacts [ownerSource, vaultSource]).toContractArtifacts := by
  refine ⟨0, 1, some "Vault", ?_⟩
  have hfetch : fetchSourcifyFiles vaultServer 1 0 =
      .ok (some { pairBundle [ownerSource, vaultSource] with matchStatus := .full }) := by
    decide +kernel
  simp only [fetchContractSource, bind_eq_ok_iff]
  refine ⟨_, hfetch, ?_⟩
  dsimp only
  rw [bind_eq_ok_iff]
  exact ⟨_, compile_pairBundle ownerSource [vaultSource], rfl⟩

/-- A trace of one instruction of the fetched contract. -/
def vaultRequest : Session.Request :=
  .recordFromStructlogMultiContract [{ pc := 0, op := "PUSH1", depth := 1 }]
    (ContractRegistry.new.register 0
      (pairArtifacts [ownerSource, vaultSource]).toContractArtifacts) 0

theorem verifiedCalls_grounded_vault :
    (.event (.registerStepWithColumn (Path.ofText "/src/Vault.sol") 1 1) ∈
        Session.calls (fun _ => 0) (fun _ => true) ⟨["out"]⟩ [vaultRequest]) ∧
      ∀ e, .event e ∈ Session.calls (fun _ => 0) (fun _ => true) ⟨["out"]⟩ [vaultRequest] →
        e.Grounded (verifiedFiles vaultServer) := by
  refine ⟨by decide +kernel, verifiedCalls_grounded _ _ _ fun request hrequest => ?_⟩
  obtain rfl := List.mem_singleton.mp hrequest
  exact .multi (.register .new fetched_vault)

end EvmRecorder
