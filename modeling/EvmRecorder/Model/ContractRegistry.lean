import EvmRecorder.Model.CallTree
import EvmRecorder.Model.RecorderParts

/-!
# Contract registry

Artifacts by contract address, with a default address for unknown ones, and the
combined view of a delegated call.
-/

namespace EvmRecorder

structure ContractArtifacts where
  sourceMap : SourceMap
  runtimeBytecode : List UInt8 := []
  pcToIdx : List Nat := []
  sourcePaths : List Path := []
  sourceContents : List String := []
  storageLayout : Option StorageLayout := none
  solidityAst : Option SolidityAst := none

def ContractArtifacts.artifacts (self : ContractArtifacts) : Artifacts :=
  { sourceMap := some self.sourceMap
    pcToIdx := self.pcToIdx
    sourcePaths := self.sourcePaths
    sourceContents := self.sourceContents
    storageLayout := self.storageLayout
    solidityAst := self.solidityAst }

structure ContractRegistry where
  contracts : List (Address × ContractArtifacts) := []
  defaultAddress : Option Address := none

namespace ContractRegistry

def new : ContractRegistry := {}

/-- `HashMap::insert`; the newest entry of an address is found first. -/
def register (self : ContractRegistry) (address : Address) (artifacts : ContractArtifacts) :
    ContractRegistry :=
  { self with contracts := (address, artifacts) :: self.contracts }

def setDefault (self : ContractRegistry) (address : Address) : ContractRegistry :=
  { self with defaultAddress := some address }

/-- The artifacts of an address, or else of the default address. -/
def get (self : ContractRegistry) (address : Address) : Option ContractArtifacts :=
  match self.contracts.lookup address with
  | some a => some a
  | none => self.defaultAddress.bind fun address => self.contracts.lookup address

/-- Code of the implementation, storage layout of the proxy. -/
def getDelegatecall (self : ContractRegistry) (implementation proxy : Address) :
    Option Artifacts :=
  (self.get implementation).map fun implArtifacts =>
    { implArtifacts.artifacts with
      storageLayout := (self.contracts.lookup proxy).bind (·.storageLayout) }

end ContractRegistry

end EvmRecorder
