import EvmRecorder.Model.Inspector
import EvmRecorder.Model.YulCompile

/-!
# Replay of a transaction

`replay_transaction`: the transaction and its block are fetched, the transactions
before it are executed on the state behind the parent block, and the transaction
itself is executed with a `CodeTracerInspector`. The node and the EVM are given by a
`ReplayHost`.
-/

namespace EvmRecorder.Replay

open Inspector

/-! ## §1  Transactions and blocks -/

structure TransactionResponse where
  sender : Address
  to_ : Option Address
  gasLimit : Nat
  gasPrice : Option Nat
  maxFeePerGas : Nat
  maxPriorityFeePerGas : Option Nat
  value : U256
  input : List UInt8
  nonce : Nat
  chainId : Option Nat
  blockNumber : Option Nat
  transactionIndex : Option Nat
deriving DecidableEq, Repr

structure Header where
  beneficiary : Address
  timestamp : Nat
  difficulty : U256
  baseFeePerGas : Option Nat
  gasLimit : Nat
  mixHash : Option U256
  excessBlobGas : Option Nat
  withdrawalsRoot : Option U256
  requestsHash : Option U256
deriving DecidableEq, Repr

inductive BlockTransactions where
  | full (txs : List TransactionResponse)
  | other
deriving DecidableEq, Repr

structure Block where
  header : Header
  transactions : BlockTransactions
deriving DecidableEq, Repr

inductive TxKind where
  | call (address : Address)
  | create
deriving DecidableEq, Repr

/-- A field that is none keeps the builder's default. -/
structure TxEnv where
  caller : Address
  gasLimit : Nat
  gasPrice : Nat
  kind : TxKind
  value : U256
  data : List UInt8
  nonce : Nat
  gasPriorityFee : Option Nat
  chainId : Option Nat
deriving DecidableEq, Repr

structure BlockEnv where
  number : Nat
  beneficiary : Address
  timestamp : Nat
  difficulty : U256
  basefee : Nat
  gasLimit : Nat
  prevrandao : Option U256
  excessBlobGas : Option Nat
deriving DecidableEq, Repr

inductive SpecId where
  | berlin
  | london
  | shanghai
  | cancun
  | prague
deriving DecidableEq, Repr

def alloyTxToRevmTx (tx : TransactionResponse) : TxEnv where
  caller := tx.sender
  gasLimit := tx.gasLimit
  gasPrice := tx.gasPrice.getD tx.maxFeePerGas
  kind := match tx.to_ with
    | some address => .call address
    | none => .create
  value := tx.value
  data := tx.input
  nonce := tx.nonce
  gasPriorityFee := tx.maxPriorityFeePerGas
  chainId := tx.chainId

def specFromBlockHeader (header : Header) : SpecId :=
  if header.requestsHash.isSome then .prague
  else if header.excessBlobGas.isSome then .cancun
  else if header.withdrawalsRoot.isSome then .shanghai
  else if header.baseFeePerGas.isSome then .london
  else .berlin

def blockEnvOf (blockNumber : Nat) (header : Header) : BlockEnv where
  number := blockNumber
  beneficiary := header.beneficiary
  timestamp := header.timestamp
  difficulty := header.difficulty
  basefee := header.baseFeePerGas.getD 0
  gasLimit := header.gasLimit
  prevrandao := header.mixHash
  excessBlobGas := header.excessBlobGas

/-! ## §2  Replay -/

/-- What the EVM is built with. -/
structure EvmConfig where
  spec : SpecId
  blockEnv : BlockEnv
  chainId : Nat
deriving DecidableEq, Repr

/-- `σ` are the states of the chain; `fork` is the state behind a block. Both ways to execute
a transaction commit the state they return, the second one calls hooks. -/
structure ReplayHost (σ : Type) where
  getTransactionByHash : U256 → Except String (Option TransactionResponse)
  getBlockByNumber : Nat → Except String (Option Block)
  getChainId : Except String Nat
  fork : (blockNumber : Nat) → σ
  transactCommit : EvmConfig → σ → TxEnv → Except String σ
  inspectTxCommit : EvmConfig → σ → TxEnv → Except String (List Hook × σ)

section Replay

variable {σ : Type} (host : ReplayHost σ) (opCodeName : UInt8 → Option String)

/-- The loop over the transactions before the target, from index `i`. -/
def replayPrior (config : EvmConfig) (txIndex : Nat) :
    Nat → List TransactionResponse → σ → Except Stop σ
  | _, [], state => .ok state
  | i, priorTx :: rest, state =>
      if txIndex ≤ i then .ok state
      else do
        let state ← stopped (errorAt ("failed to replay prior tx " ++ toString i ++ ": ")
          (host.transactCommit config state (alloyTxToRevmTx priorTx)))
        replayPrior config txIndex (i + 1) rest state

/-- The target with a new inspector. -/
def inspectTarget (config : EvmConfig) (targetTx : TransactionResponse) (state : σ) :
    Except Stop ExecutionData := do
  let (hooks, _) ← stopped (errorAt "failed to replay target tx: "
    (host.inspectTxCommit config state (alloyTxToRevmTx targetTx)))
  pure (({} : CodeTracerInspector).inspect opCodeName hooks).data

/-- Block numbers are `u64`. -/
def parentOf (blockNumber : Nat) : Nat := (blockNumber + (2 ^ 64 - 1)) % 2 ^ 64

/-- An index out of range panics. -/
def replayTransaction (txHash : U256) (txHashText : String) : Except Stop ExecutionData := do
  let found ← stopped (withContext "eth_getTransactionByHash failed"
    (host.getTransactionByHash txHash))
  let tx ← stopped (okOr ("transaction " ++ txHashText ++ " not found") found)
  let blockNumber ← stopped (okOr "transaction is pending (no block number)" tx.blockNumber)
  let txIndex ← stopped (okOr "transaction has no index" tx.transactionIndex)
  let found ← stopped (withContext "eth_getBlockByNumber failed"
    (host.getBlockByNumber blockNumber))
  let block ← stopped (okOr ("block " ++ toString blockNumber ++ " not found") found)
  let chainId ← stopped (withContext "eth_chainId failed" host.getChainId)
  let config : EvmConfig :=
    { spec := specFromBlockHeader block.header
      blockEnv := blockEnvOf blockNumber block.header
      chainId }
  match block.transactions with
  | .full transactions => do
      let state ← replayPrior host config txIndex 0 transactions (host.fork (parentOf blockNumber))
      match transactions[txIndex]? with
      | some targetTx => inspectTarget host opCodeName config targetTx state
      | none => .error .panic
  | .other => .error (.error "block did not return full transactions")

end Replay

end EvmRecorder.Replay
