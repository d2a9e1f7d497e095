import EvmRecorder.Model.Replay
import Mathlib.Data.List.Forall2

/-!
# Replays of one block

Each transaction is replayed on a state of its own: the transactions before it are
executed again, without an inspector. As long as the inspector only looks on, the
replays of a block's transactions show what one execution of the block shows that is
inspected throughout.
-/

namespace EvmRecorder.Replay

open Inspector

variable {σ : Type} {host : ReplayHost σ} {opCodeName : UInt8 → Option String}
  {config : EvmConfig}

/-! ## §1  Executed transactions -/

/-- The transactions one after another, without an inspector. -/
def Commits (host : ReplayHost σ) (config : EvmConfig) : List TransactionResponse → σ → σ → Prop
  | [], state, last => state = last
  | tx :: rest, state, last => ∃ after,
      host.transactCommit config state (alloyTxToRevmTx tx) = .ok after ∧
        Commits host config rest after last

theorem Commits.unique : ∀ {txs : List TransactionResponse} {state last last' : σ},
    Commits host config txs state last → Commits host config txs state last' → last = last'
  | [], _, _, _, rfl, rfl => rfl
  | _ :: _, _, _, _, ⟨_, hafter, hrest⟩, ⟨_, hafter', hrest'⟩ => by
      obtain rfl := Except.ok.inj (hafter.symm.trans hafter')
      exact hrest.unique hrest'

theorem Commits.concat {tx : TransactionResponse} {last after : σ}
    (hlast : host.transactCommit config last (alloyTxToRevmTx tx) = .ok after) :
    ∀ {txs : List TransactionResponse} {state : σ}, Commits host config txs state last →
      Commits host config (txs ++ [tx]) state after
  | [], _, rfl => ⟨after, hlast, rfl⟩
  | _ :: _, _, ⟨next, hnext, hrest⟩ => ⟨next, hnext, hrest.concat hlast⟩

/-- The loop executes the transactions before the target. -/
theorem replayPrior_eq_ok_iff (txIndex : Nat) : ∀ (txs : List TransactionResponse) (i : Nat)
    (state last : σ), replayPrior host config txIndex i txs state = .ok last ↔
      Commits host config (txs.take (txIndex - i)) state last
  | [], i, state, last => by
      rw [replayPrior, List.take_nil, Commits, Except.ok.injEq]
  | tx :: txs, i, state, last => by
      rw [replayPrior]
      by_cases hi : txIndex ≤ i
      · rw [if_pos hi, Nat.sub_eq_zero_of_le hi, List.take_zero, Commits, Except.ok.injEq]
      · have hsub : txIndex - i = txIndex - (i + 1) + 1 := by omega
        rw [if_neg hi, hsub, List.take_succ_cons, Commits, bind_eq_ok_iff]
        simp only [stopped_eq_ok_iff, errorAt_eq_ok_iff, replayPrior_eq_ok_iff txIndex txs]

/-- What the inspector collects of a transaction on a state, and the state behind it. -/
def Shows (host : ReplayHost σ) (opCodeName : UInt8 → Option String) (config : EvmConfig)
    (state : σ) (tx : TransactionResponse) (data : ExecutionData) (after : σ) : Prop :=
  ∃ hooks, host.inspectTxCommit config state (alloyTxToRevmTx tx) = .ok (hooks, after) ∧
    data = (({} : CodeTracerInspector).inspect opCodeName hooks).data

/-- One execution of the transactions with a new inspector for each. -/
def inspectAll (host : ReplayHost σ) (opCodeName : UInt8 → Option String) (config : EvmConfig) :
    List TransactionResponse → σ → Except String (List ExecutionData × σ)
  | [], state => .ok ([], state)
  | tx :: rest, state => do
      let (hooks, after) ← host.inspectTxCommit config state (alloyTxToRevmTx tx)
      let (datas, last) ← inspectAll host opCodeName config rest after
      .ok ((({} : CodeTracerInspector).inspect opCodeName hooks).data :: datas, last)

theorem inspectAll_cons_eq_ok_iff {tx : TransactionResponse} {rest : List TransactionResponse}
    {state last : σ} {all : List ExecutionData} :
    inspectAll host opCodeName config (tx :: rest) state = .ok (all, last) ↔
      ∃ data datas after, all = data :: datas ∧
        Shows host opCodeName config state tx data after ∧
        inspectAll host opCodeName config rest after = .ok (datas, last) := by
  rw [inspectAll, bind_eq_ok_iff]
  constructor
  · rintro ⟨⟨hooks, after⟩, hinspect, hrest⟩
    rw [bind_eq_ok_iff] at hrest
    obtain ⟨⟨datas, last'⟩, hdatas, hall⟩ := hrest
    cases hall
    exact ⟨_, datas, after, rfl, ⟨hooks, hinspect, rfl⟩, hdatas⟩
  · rintro ⟨data, datas, after, rfl, ⟨hooks, hinspect, rfl⟩, hdatas⟩
    refine ⟨(hooks, after), hinspect, ?_⟩
    rw [bind_eq_ok_iff]
    exact ⟨(datas, last), hdatas, rfl⟩

/-- An inspector that calls nothing back changes nothing: with or without it a transaction
is executed alike. -/
def LooksOn (host : ReplayHost σ) : Prop :=
  ∀ config state tx after, host.transactCommit config state tx = .ok after ↔
    ∃ hooks, host.inspectTxCommit config state tx = .ok (hooks, after)

/-! ## §2  Served blocks -/

/-- The node knows the block and its transactions; `hash i` is that of transaction `i`. -/
structure Serves (host : ReplayHost σ) (blockNumber chainId : Nat) (header : Header)
    (txs : List TransactionResponse) (hash : Nat → U256) : Prop where
  block : host.getBlockByNumber blockNumber = .ok (some ⟨header, .full txs⟩)
  chainId : host.getChainId = .ok chainId
  transaction : ∀ i < txs.length, ∃ tx, host.getTransactionByHash (hash i) = .ok (some tx) ∧
    tx.blockNumber = some blockNumber ∧ tx.transactionIndex = some i

def configOf (blockNumber chainId : Nat) (header : Header) : EvmConfig where
  spec := specFromBlockHeader header
  blockEnv := blockEnvOf blockNumber header
  chainId := chainId

section Served

variable {blockNumber chainId : Nat} {header : Header} {txs : List TransactionResponse}
  {hash : Nat → U256}

/-- A replay shows the target on the state behind the transactions before it. -/
theorem Serves.replay_eq_ok_iff (h : Serves host blockNumber chainId header txs hash) {i : Nat}
    {tx : TransactionResponse} (htx : txs[i]? = some tx) (txHashText : String)
    (data : ExecutionData) :
    replayTransaction host opCodeName (hash i) txHashText = .ok data ↔
      ∃ state after, Commits host (configOf blockNumber chainId header) (txs.take i)
          (host.fork (parentOf blockNumber)) state ∧
        Shows host opCodeName (configOf blockNumber chainId header) state tx data after := by
  obtain ⟨found, hfound, hnumber, hindex⟩ := h.transaction i (List.getElem?_eq_some_iff.mp htx).1
  simp only [replayTransaction, bind_eq_ok_iff, stopped_eq_ok_iff, withContext_eq_ok_iff,
    okOr_eq_ok_iff]
  constructor
  · rintro ⟨_, hfound', tx', rfl, _, hnumber', _, hindex', _, hblock, block, rfl, _, hchain, hrun⟩
    cases hfound'.symm.trans hfound
    cases hnumber'.symm.trans hnumber
    cases hindex'.symm.trans hindex
    cases hblock.symm.trans h.block
    cases hchain.symm.trans h.chainId
    obtain ⟨state, hprior, htarget⟩ := bind_eq_ok_iff.mp hrun
    rw [htx] at htarget
    obtain ⟨⟨hooks, after⟩, hinspect, hdata⟩ := bind_eq_ok_iff.mp htarget
    rw [replayPrior_eq_ok_iff, Nat.sub_zero] at hprior
    refine ⟨state, after, hprior, hooks, ?_, (Except.ok.inj hdata).symm⟩
    exact errorAt_eq_ok_iff.mp (stopped_eq_ok_iff.mp hinspect)
  · rintro ⟨state, after, hprior, hooks, hinspect, rfl⟩
    refine ⟨_, hfound, found, rfl, _, hnumber, i, hindex, _, h.block, _, rfl, chainId, h.chainId,
      ?_⟩
    refine bind_eq_ok_iff.mpr ⟨state, (replayPrior_eq_ok_iff i _ 0 _ _).mpr hprior, ?_⟩
    rw [htx]
    exact bind_eq_ok_iff.mpr ⟨(hooks, after), stopped_eq_ok_iff.mpr
      (errorAt_eq_ok_iff.mpr hinspect), rfl⟩

/-- From the state behind the transactions `before` on. -/
theorem Serves.replays_from (h : Serves host blockNumber chainId header txs hash)
    (hlooks : LooksOn host) (text : U256 → String) (later : List TransactionResponse) :
    ∀ {before rest : List TransactionResponse} {state : σ} {datas : List ExecutionData},
      txs = before ++ (rest ++ later) →
      Commits host (configOf blockNumber chainId header) before (host.fork (parentOf blockNumber))
        state →
      (List.Forall₂ (fun i data =>
          replayTransaction host opCodeName (hash i) (text (hash i)) = .ok data)
          (List.range' before.length rest.length) datas ↔
        ∃ last, inspectAll host opCodeName (configOf blockNumber chainId header) rest state =
          .ok (datas, last))
  | before, [], state, datas, _, _ => by
      rw [List.length_nil, List.range'_zero, List.forall₂_nil_left_iff]
      constructor
      · rintro rfl
        exact ⟨state, rfl⟩
      · rintro ⟨last, hlast⟩
        cases hlast
        rfl
  | before, tx :: rest, state, all, htxs, hbefore => by
      have htx : txs[before.length]? = some tx := by
        rw [htxs, List.getElem?_append_right (Nat.le_refl _), Nat.sub_self]
        rfl
      have htake : txs.take before.length = before := by
        rw [htxs, List.take_left]
      have hnext : txs = (before ++ [tx]) ++ (rest ++ later) := by
        rw [htxs, List.append_assoc]
        rfl
      have hlength : (before ++ [tx]).length = before.length + 1 := by
        rw [List.length_append, List.length_singleton]
      have hshows : ∀ data, replayTransaction host opCodeName (hash before.length)
          (text (hash before.length)) = .ok data ↔
            ∃ after, Shows host opCodeName (configOf blockNumber chainId header) state tx data
              after := by
        intro data
        rw [h.replay_eq_ok_iff htx, htake]
        constructor
        · rintro ⟨state', after, hstate', hshows⟩
          obtain rfl := hbefore.unique hstate'
          exact ⟨after, hshows⟩
        · rintro ⟨after, hshows⟩
          exact ⟨state, after, hbefore, hshows⟩
      have hcommits : ∀ {data after}, Shows host opCodeName (configOf blockNumber chainId header)
          state tx data after → Commits host (configOf blockNumber chainId header)
            (before ++ [tx]) (host.fork (parentOf blockNumber)) after := by
        rintro data after ⟨hooks, hinspect, -⟩
        exact hbefore.concat ((hlooks _ _ _ _).mpr ⟨hooks, hinspect⟩)
      rw [List.length_cons, List.range'_succ]
      constructor
      · rintro (_ | ⟨hfirst, hrest⟩)
        obtain ⟨after, hafter⟩ := (hshows _).mp hfirst
        rw [← hlength] at hrest
        obtain ⟨last, hlast⟩ := (h.replays_from hlooks text later hnext (hcommits hafter)).mp hrest
        exact ⟨last, inspectAll_cons_eq_ok_iff.mpr ⟨_, _, after, rfl, hafter, hlast⟩⟩
      · rintro ⟨last, hlast⟩
        obtain ⟨data, datas, after, rfl, hafter, hrest⟩ := inspectAll_cons_eq_ok_iff.mp hlast
        refine .cons ((hshows data).mpr ⟨after, hafter⟩) ?_
        rw [← hlength]
        exact (h.replays_from hlooks text later hnext (hcommits hafter)).mpr ⟨last, hrest⟩

/-- **Replays of a block.** The replays of the first `n` transactions of a block succeed with
the data `datas` exactly when one inspected execution of these transactions on the state
behind the parent block shows `datas`. -/
theorem replays_eq_inspectAll (h : Serves host blockNumber chainId header txs hash)
    (hlooks : LooksOn host) (opCodeName : UInt8 → Option String) (text : U256 → String) {n : Nat}
    (hn : n ≤ txs.length) (datas : List ExecutionData) :
    List.Forall₂ (fun i data =>
        replayTransaction host opCodeName (hash i) (text (hash i)) = .ok data)
        (List.range n) datas ↔
      ∃ last, inspectAll host opCodeName (configOf blockNumber chainId header) (txs.take n)
        (host.fork (parentOf blockNumber)) = .ok (datas, last) := by
  have hsplit : txs = [] ++ (txs.take n ++ txs.drop n) := (List.take_append_drop n txs).symm
  refine Iff.trans ?_ (h.replays_from hlooks text (txs.drop n) hsplit rfl)
  rw [List.length_take_of_le hn, List.length_nil, List.range_eq_range']

end Served

/-- The sender's nonce, and slot 0 of a contract that counts its calls. -/
structure Counter where
  nonce : Nat
  count : U256
deriving DecidableEq, Repr

namespace Counter

/-- Transaction `i` of the block calls the counter. -/
def sent (i : Nat) : TransactionResponse where
  sender := 1
  to_ := some 2
  gasLimit := 100000
  gasPrice := none
  maxFeePerGas := 1
  maxPriorityFeePerGas := none
  value := 0
  input := []
  nonce := i
  chainId := none
  blockNumber := some 8
  transactionIndex := some i

/-- A transaction with another nonce is refused. -/
def execute (self : Counter) (tx : TxEnv) : Except String Counter :=
  if tx.nonce = self.nonce then .ok ⟨self.nonce + 1, self.count + 1⟩
  else .error "nonce of the sender"

/-- `PUSH1 0; SLOAD; PUSH1 1; ADD; PUSH1 0; SSTORE; STOP`. -/
def hooks (self : Counter) : List Hook :=
  [.call ⟨.call, 1, 2, some 0, 79000⟩,
    .step ⟨0, 0x60, [], 0⟩,
    .step ⟨2, 0x54, [0], 0⟩,
    .step ⟨3, 0x60, [self.count], 0⟩,
    .step ⟨5, 0x01, [self.count, 1], 0⟩,
    .step ⟨6, 0x60, [self.count + 1], 0⟩,
    .step ⟨8, 0x55, [self.count + 1, 0], 0⟩,
    .step ⟨9, 0x00, [], 0⟩,
    .callEnd]

def header : Header := ⟨0, 0, 0, none, 0, none, none, none, none⟩

def chain : ReplayHost Counter where
  getTransactionByHash hash := .ok [sent 0, sent 1][hash.toNat]?
  getBlockByNumber _ := .ok (some ⟨header, .full [sent 0, sent 1]⟩)
  getChainId := .ok 1
  fork _ := ⟨0, 0⟩
  transactCommit _ state tx := state.execute tx
  inspectTxCommit _ state tx := (state.execute tx).map (state.hooks, ·)

def instructionName : UInt8 → Option String
  | 0x00 => some "STOP"
  | 0x01 => some "ADD"
  | 0x54 => some "SLOAD"
  | 0x55 => some "SSTORE"
  | 0x60 => some "PUSH1"
  | _ => none

/-- What a call shows that finds `count` in the slot. -/
def data (count : U256) : ExecutionData where
  steps :=
    [⟨0, 0x60, "PUSH1", 1, [], 0⟩,
      ⟨2, 0x54, "SLOAD", 1, [0], 0⟩,
      ⟨3, 0x60, "PUSH1", 1, [count], 0⟩,
      ⟨5, 0x01, "ADD", 1, [count, 1], 0⟩,
      ⟨6, 0x60, "PUSH1", 1, [count + 1], 0⟩,
      ⟨8, 0x55, "SSTORE", 1, [count + 1, 0], 0⟩,
      ⟨9, 0x00, "STOP", 1, [], 0⟩]
  calls := [⟨.call, 1, 2, 0, 79000⟩]

theorem serves : Serves chain 8 1 header [sent 0, sent 1] (BitVec.ofNat 256) := by
  refine ⟨rfl, rfl, fun i hi => ⟨sent i, ?_, rfl, rfl⟩⟩
  match i, hi with
  | 0, _ => rfl
  | 1, _ => rfl

theorem looksOn : LooksOn chain := by
  intro config state tx after
  change state.execute tx = .ok after ↔
    ∃ hooks, (state.execute tx).map (state.hooks, ·) = .ok (hooks, after)
  cases state.execute tx with
  | error reason => exact ⟨nofun, nofun⟩
  | ok next =>
      constructor
      · rintro ⟨⟩
        exact ⟨state.hooks, rfl⟩
      · rintro ⟨hooks, ⟨⟩⟩
        rfl

end Counter

theorem replays_eq_inspectAll_counting :
    List.Forall₂ (fun (i : Nat) data => replayTransaction Counter.chain Counter.instructionName
        (BitVec.ofNat 256 i) "" = .ok data) (List.range 2) [Counter.data 0, Counter.data 1] :=
  (replays_eq_inspectAll Counter.serves Counter.looksOn _ (fun _ => "") (Nat.le_refl 2) _).mpr
    ⟨⟨2, 2⟩, rfl⟩

end EvmRecorder.Replay
