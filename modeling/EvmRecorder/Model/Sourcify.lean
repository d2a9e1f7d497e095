import EvmRecorder.Model.SourceFetcher

/-!
# Verified contracts

`fetch_contract_source`: the bundle of a verified contract is requested by chain and
address, its files are sorted into sources and metadata, and the bundle is compiled.
The HTTP client, the JSON parser of the response and the text of an address are given
by a `FetchHost`.
-/

namespace EvmRecorder

inductive SourcifyMatch where
  | full
  | partialMatch
deriving DecidableEq, Repr

structure SourcifyResponse where
  status : String
  files : List SourcifySourceFile
deriving DecidableEq, Repr

/-- A bundle with its match status. -/
structure MatchedContract extends SourcifyContract where
  matchStatus : SourcifyMatch
deriving DecidableEq, Repr

/-- `statusText` is how the status is shown; reading the body may fail. -/
structure HttpResponse where
  status : Nat
  statusText : String
  text : Except String String

/-- What is called outside. -/
structure FetchHost extends Host where
  env : String → Option String
  addressText : Address → String
  get : (url : String) → Except String HttpResponse
  responseFromStr : String → Except String SourcifyResponse

def endsWith (s pattern : String) : Bool := pattern.toList.isSuffixOf s.toList

def matchOf (status : String) : Except String SourcifyMatch :=
  match status with
  | "full" => .ok .full
  | "partial" => .ok .partialMatch
  | other => .error ("Sourcify response has unknown status \x60" ++ other ++
      "\x60 (expected \x60full\x60 or \x60partial\x60)")

def isSourceName (name : String) : Bool := endsWith name ".sol" || endsWith name ".vy"

/-- The loop over the files, with the metadata and the sources found so far. -/
def sortFiles : Option String → List SourcifySourceFile → List SourcifySourceFile →
    Option String × List SourcifySourceFile
  | metadataJson, sources, [] => (metadataJson, sources)
  | metadataJson, sources, f :: rest =>
      if f.name = "metadata.json" then sortFiles (some f.content) sources rest
      else if isSourceName f.name then sortFiles metadataJson (sources ++ [f]) rest
      else sortFiles metadataJson sources rest

def sourcifyBaseUrl : String := "https://sourcify.dev/server"

section Fetch

variable (host : FetchHost)

def buildSourcifyUrl (chainId : Nat) (address : Address) : String :=
  sourcifyBaseUrl ++ "/files/any/" ++ toString chainId ++ "/" ++ host.addressText address

def parseSourcifyResponse (body : String) : Except String MatchedContract := do
  let raw ← errorAt "Sourcify response is not valid JSON: " (host.responseFromStr body)
  let matchStatus ← matchOf raw.status
  let (metadataJson, sources) := sortFiles none [] raw.files
  pure { matchStatus, sources, metadataJson }

def fetchSourcifyFiles (chainId : Nat) (address : Address) :
    Except String (Option MatchedContract) := do
  let url := buildSourcifyUrl host chainId address
  let resp ← errorAt ("Sourcify GET " ++ url ++ " failed: ") (host.get url)
  if resp.status = 404 then pure none
  else if 200 ≤ resp.status ∧ resp.status < 300 then
    let body ← errorAt ("failed to read Sourcify response body from " ++ url ++ ": ") resp.text
    let contract ← parseSourcifyResponse host body
    pure (some contract)
  else .error ("Sourcify GET " ++ url ++ " returned HTTP status " ++ resp.statusText)

def fetchContractSource (address : Address) (chainId : Nat)
    (preferredContractName : Option String) : Except String (Option ContractArtifacts) := do
  match ← fetchSourcifyFiles host chainId address with
  | none => pure none
  | some bundle =>
      let artifacts ← compileSourcifyBundle host.toHost bundle.toSourcifyContract
        ((host.env "SOLC_PATH").getD "solc") preferredContractName
      pure (some artifacts.toContractArtifacts)

end Fetch

end EvmRecorder
