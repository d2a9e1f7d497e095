import EvmRecorder.MultiRecorder.CarryForward

/-!
# Artifacts of delegated frames

In the EVM a frame runs the code of one address on the storage of another: its
own for CALL and STATICCALL, the caller's storage for DELEGATECALL and CALLCODE.
The recorder keeps the address of the caller's code as the proxy of a
DELEGATECALL, and treats CALLCODE as CALL. The layout in use is therefore that of
the storage exactly when, at every such call, both addresses have the same
layout; the other artifacts are always those of the code.
-/

namespace EvmRecorder.MultiRecorder

open Levels Stack

/-! ## §1  Frames of the EVM -/

/-- The address whose code runs and the one whose storage it acts on. -/
structure EvmFrame where
  code : Address
  storage : Address
deriving DecidableEq, Repr

/-- The frame that the call at `prevLog` enters. -/
def EvmFrame.called (caller : EvmFrame) (prevLog : Option StructLog) : EvmFrame where
  code := calleeAddress (prevLog.bind (·.stack))
  storage := enteredContext caller.storage 0 prevLog

section Frames

variable (structLogs : List StructLog) (root : Address)

/-- The outermost frame runs the entry-point contract on its own storage. -/
def rootFrame : EvmFrame := ⟨root, root⟩

def evmFrameStep (i : Nat) (log : StructLog) (frames : List EvmFrame) :
    List EvmFrame × List Unit :=
  (resize log.depth
    ((frames.getLast?.getD (rootFrame root)).called (prevLogOf structLogs i)) frames, [])

/-- The open frames before log `k`, outermost first. -/
def evmFramesBefore (k : Nat) : List EvmFrame :=
  Machine.stateBefore (evmFrameStep structLogs root) structLogs [rootFrame root] k

/-- The frame that executes log `k`. -/
def evmFrameAt (k : Nat) : EvmFrame :=
  (evmFramesBefore structLogs root (k + 1)).getLast?.getD (rootFrame root)

/-- Every frame is entered by a call. -/
def CallFrames : Prop :=
  ∀ k prev log, structLogs[k]? = some prev → structLogs[k + 1]? = some log →
    prev.depth < log.depth → prev.op ∈ ["CALL", "STATICCALL", "DELEGATECALL", "CALLCODE"]

end Frames

/-! ## §2  Artifacts of a frame -/

section Registry

variable (registry : ContractRegistry)

/-- The layout registered for an address. -/
def layoutOf (address : Address) : Option StorageLayout :=
  (registry.contracts.lookup address).bind (·.storageLayout)

/-- The artifacts of the code with the layout of the storage. -/
def ArtifactsOf (frame : EvmFrame) (a : Artifacts) : Prop :=
  ∃ contract, registry.contracts.lookup frame.code = some contract ∧
    a = { contract.artifacts with storageLayout := layoutOf registry frame.storage }

/-- The call at `prev` enters a frame whose layout the recorder finds. -/
def DelegationAgrees (caller callee : EvmFrame) (prev : StructLog) : Prop :=
  (prev.op = "DELEGATECALL" → layoutOf registry caller.code = layoutOf registry caller.storage) ∧
    (prev.op = "CALLCODE" → layoutOf registry callee.code = layoutOf registry caller.storage)

/-- The layout the recorder uses in a frame. -/
def usedLayout (frame : FrameContext) : Option StorageLayout :=
  if frame.isDelegate then frame.delegateProxy.bind (layoutOf registry)
  else layoutOf registry frame.address

variable {registry}

/-- Code, sources and AST are those of the frame's address. -/
theorem artifactsOn_eq {contractAddress : Address} {frameStack : List FrameContext}
    {frame : FrameContext} {contract : ContractArtifacts} (hlast : frameStack.getLast? = some frame)
    (hcontract : registry.contracts.lookup frame.address = some contract)
    (hproxy : frame.isDelegate → frame.delegateProxy.isSome) :
    artifactsOn registry contractAddress frameStack =
      { contract.artifacts with storageLayout := usedLayout registry frame } := by
  have hget : registry.get frame.address = some contract := by
    rw [ContractRegistry.get, hcontract]
  unfold artifactsOn currentArtifacts usedLayout
  simp only [hlast, Option.map_some, Option.getD_some, Option.bind_some]
  by_cases hdelegate : frame.isDelegate
  · obtain ⟨proxy, hproxy⟩ := Option.isSome_iff_exists.mp (hproxy hdelegate)
    rw [if_pos hdelegate, if_pos hdelegate, hproxy]
    simp only [Option.bind_some, ContractRegistry.getDelegatecall, hget, Option.map_some,
      Option.getD_some]
    rfl
  · rw [if_neg hdelegate, if_neg hdelegate, hget, layoutOf, hcontract]
    rfl

/-- A frame of the recorder and the frame of the EVM it stands for. -/
structure Stands (frame : FrameContext) (evm : EvmFrame) : Prop where
  code : frame.address = evm.code
  proxy : frame.isDelegate → frame.delegateProxy.isSome

theorem stands_own (address : Address) (storage : Address) :
    Stands { address := address } ⟨address, storage⟩ :=
  ⟨rfl, fun h => nomatch h⟩

/-- The entered frame stands for the called one; its layout is found exactly when
the call agrees. -/
theorem stands_entered {frameStack : List FrameContext} {caller : FrameContext}
    {evm : EvmFrame} {prev : StructLog} (hlast : frameStack.getLast? = some caller)
    (hcaller : caller.address = evm.code)
    (hop : prev.op ∈ ["CALL", "STATICCALL", "DELEGATECALL", "CALLCODE"]) :
    Stands (enteredFrame frameStack (some prev)).1 (evm.called (some prev)) ∧
      (usedLayout registry (enteredFrame frameStack (some prev)).1 =
          layoutOf registry (evm.called (some prev)).storage ↔
        DelegationAgrees registry evm (evm.called (some prev)) prev) := by
  simp only [List.mem_cons, List.not_mem_nil, or_false] at hop
  unfold enteredFrame EvmFrame.called enteredContext DelegationAgrees usedLayout
  simp only [Option.map_some, Option.getD_some, hlast, hcaller]
  rcases hop with hop | hop | hop | hop
  · simp [hop, stands_own]
  · simp [hop, stands_own]
  · simp only [hop, String.reduceEq, or_self, if_false, if_true, true_or]
    exact ⟨⟨rfl, fun _ => rfl⟩, by simp⟩
  · simp [hop, stands_own]

end Registry

/-! ## §3  Runs -/

section Runs

variable (registry : ContractRegistry) (contractAddress : Address) (structLogs : List StructLog)

/-- Every call that enters a frame agrees. -/
def DelegationsAgree : Prop :=
  ∀ k prev log, structLogs[k]? = some prev → structLogs[k + 1]? = some log →
    prev.depth < log.depth →
      DelegationAgrees registry (evmFrameAt structLogs contractAddress k)
        (evmFrameAt structLogs contractAddress (k + 1)) prev

/-- The frames correspond, and where every call agrees their layouts do. -/
def Corresponds (frame : FrameContext) (evm : EvmFrame) : Prop :=
  Stands frame evm ∧
    (DelegationsAgree registry contractAddress structLogs →
      usedLayout registry frame = layoutOf registry evm.storage)

variable {keccak256 : List UInt8 → U256} {registered : List Path} {registry contractAddress
  structLogs}

theorem evmFramesBefore_succ {k : Nat} {log : StructLog} (hlog : structLogs[k]? = some log) :
    evmFramesBefore structLogs contractAddress (k + 1) =
      resize log.depth (((evmFramesBefore structLogs contractAddress k).getLast?.getD
        (rootFrame contractAddress)).called (prevLogOf structLogs k))
        (evmFramesBefore structLogs contractAddress k) := by
  rw [evmFramesBefore, Machine.stateBefore_succ hlog]
  rfl

/-- The frame stack at a log, with that of the log before it. -/
theorem frameStack_enterDepth (hdepths : LegalDepths (structLogs.map (·.depth))) {k : Nat}
    {log : StructLog} (hlog : structLogs[k]? = some log) :
    (enterDepth structLogs k log
      (stateBefore keccak256 registered registry contractAddress structLogs k)).frameStack =
        resize log.depth (enteredFrame (stateBefore keccak256 registered registry contractAddress
          structLogs k).frameStack (prevLogOf structLogs k)).1
          (stateBefore keccak256 registered registry contractAddress structLogs k).frameStack ∧
    (stateBefore keccak256 registered registry contractAddress structLogs (k + 1)).frameStack =
      (enterDepth structLogs k log
        (stateBefore keccak256 registered registry contractAddress structLogs k)).frameStack := by
  have hk : k ≤ structLogs.length := (List.getElem?_eq_some_iff.mp hlog).1.le
  have hbefore := @framesBefore_stateBefore keccak256 registered registry contractAddress structLogs
    hdepths k hk
  obtain ⟨hpos, hrise⟩ := hdepths.rise hbefore.depth (getElem?_depths hlog)
  have hresized := resized_enterDepth structLogs (i := k) hbefore.lockstep hpos hrise
  refine ⟨hresized.frameStack, ?_⟩
  rw [stateBefore, Machine.stateBefore_succ hlog, ← stateBefore]
  have hsame := sameStorage_handleLocation
    (Recorder.mainPathOf (initialArtifacts registry contractAddress).sourcePaths) structLogs
    (artifactsFor registry contractAddress structLogs k log
      (stateBefore keccak256 registered registry contractAddress structLogs k)) k log
    (enterDepth structLogs k log
      (stateBefore keccak256 registered registry contractAddress structLogs k))
  have hstored := (stored_handleStorage keccak256
    (artifactsFor registry contractAddress structLogs k log
      (stateBefore keccak256 registered registry contractAddress structLogs k)) hpos
    (hsame.lockstep hresized.lockstep)).1
  exact hstored.frameStack.trans hsame.frameStack

theorem getLast?_resize_new {α : Type} {d : Nat} {x : α} {xs : List α} (h : d = xs.length + 1) :
    (resize d x xs).getLast? = some x := by
  rw [← append_eq_resize h, List.getLast?_concat]

/-- The frames before log `k` correspond. -/
def FramesCorrespond (keccak256 : List UInt8 → U256) (registered : List Path)
    (registry : ContractRegistry) (contractAddress : Address) (structLogs : List StructLog)
    (k : Nat) : Prop :=
  List.Forall₂ (Corresponds registry contractAddress structLogs)
    (stateBefore keccak256 registered registry contractAddress structLogs k).frameStack
    (evmFramesBefore structLogs contractAddress k)

/-- A frame is entered at log `k + 1`. -/
theorem entered_at_rise (hdepths : LegalDepths (structLogs.map (·.depth)))
    (hcalls : CallFrames structLogs) {k : Nat} {prev log : StructLog}
    (hprev : structLogs[k]? = some prev) (hlog : structLogs[k + 1]? = some log)
    (hrise : prev.depth < log.depth)
    (h : FramesCorrespond keccak256 registered registry contractAddress structLogs (k + 1)) :
    ∃ frame, frame = (enteredFrame (stateBefore keccak256 registered registry contractAddress
        structLogs (k + 1)).frameStack (some prev)).1 ∧
      (enterDepth structLogs (k + 1) log (stateBefore keccak256 registered registry contractAddress
        structLogs (k + 1))).frameStack.getLast? = some frame ∧
      evmFrameAt structLogs contractAddress (k + 1) =
        (evmFrameAt structLogs contractAddress k).called (some prev) ∧
      Stands frame (evmFrameAt structLogs contractAddress (k + 1)) ∧
      (usedLayout registry frame =
          layoutOf registry (evmFrameAt structLogs contractAddress (k + 1)).storage ↔
        DelegationAgrees registry (evmFrameAt structLogs contractAddress k)
          (evmFrameAt structLogs contractAddress (k + 1)) prev) := by
  have hk : k + 1 ≤ structLogs.length := (List.getElem?_eq_some_iff.mp hlog).1.le
  have hbefore := @framesBefore_stateBefore keccak256 registered registry contractAddress structLogs
    hdepths (k + 1) hk
  have hdepth := prevDepth_stateBefore_succ keccak256 registered registry contractAddress hprev
  obtain ⟨hpos, hstep⟩ := hdepths.rise hbefore.depth (getElem?_depths hlog)
  have hlen := hbefore.lockstep.frameStack
  rw [hdepth] at hlen hstep
  have hnew : log.depth = (stateBefore keccak256 registered registry contractAddress structLogs
      (k + 1)).frameStack.length + 1 := by omega
  have hevmNew : log.depth = (evmFramesBefore structLogs contractAddress (k + 1)).length + 1 := by
    rw [← h.length_eq]
    exact hnew
  -- the caller is on top of both stacks
  have hne : (stateBefore keccak256 registered registry contractAddress structLogs
      (k + 1)).frameStack ≠ [] := by
    intro hnil
    have hone := (hdepths.positive prev.depth (List.mem_of_getElem? (getElem?_depths hprev)))
    rw [hnil, List.length_nil] at hlen
    omega
  obtain ⟨caller, evm, hcaller, hevm, hstands, -⟩ := exists_getLast?_of_forall₂ h hne
  have hevmAt : evmFrameAt structLogs contractAddress k = evm := by
    rw [evmFrameAt, hevm]
    rfl
  have hentered : evmFrameAt structLogs contractAddress (k + 1) = evm.called (some prev) := by
    rw [evmFrameAt, evmFramesBefore_succ hlog, getLast?_resize_new hevmNew, prevLogOf_succ hprev,
      hevm]
    rfl
  have hop := hcalls k prev log hprev hlog hrise
  have hcalled := @stands_entered registry _ caller evm prev hcaller hstands.code hop
  refine ⟨_, rfl, ?_, ?_, ?_, ?_⟩
  · rw [(frameStack_enterDepth hdepths hlog).1, getLast?_resize_new hnew, prevLogOf_succ hprev]
  · rw [hentered, hevmAt]
  · rw [hentered]
    exact hcalled.1
  · rw [hentered, hevmAt]
    exact hcalled.2

/-- One change of depth: the frames that stay open correspond, and so does a new
one. -/
theorem corresponds_enterDepth (hdepths : LegalDepths (structLogs.map (·.depth)))
    (hcalls : CallFrames structLogs) {k : Nat} {log : StructLog}
    (hlog : structLogs[k]? = some log)
    (h : FramesCorrespond keccak256 registered registry contractAddress structLogs k) :
    List.Forall₂ (Corresponds registry contractAddress structLogs)
      (enterDepth structLogs k log
        (stateBefore keccak256 registered registry contractAddress structLogs k)).frameStack
      (evmFramesBefore structLogs contractAddress (k + 1)) := by
  have hk : k ≤ structLogs.length := (List.getElem?_eq_some_iff.mp hlog).1.le
  have hbefore := @framesBefore_stateBefore keccak256 registered registry contractAddress structLogs
    hdepths k hk
  rw [(frameStack_enterDepth hdepths hlog).1, evmFramesBefore_succ hlog]
  refine forall₂_resize_of _ (fun hnew => ?_) h
  rw [hbefore.lockstep.frameStack] at hnew
  rcases k with _ | k
  · have hone := hdepths.starts log.depth (by
      rw [List.head?_eq_getElem?]
      exact getElem?_depths hlog)
    have hzero : (stateBefore keccak256 registered registry contractAddress structLogs
        0).prevDepth = 1 := by
      rw [stateBefore, Machine.stateBefore_zero]
      rfl
    omega
  · have hprev : structLogs[k]? = some structLogs[k] := List.getElem?_eq_getElem hk
    rw [prevDepth_stateBefore_succ keccak256 registered registry contractAddress hprev] at hnew
    obtain ⟨frame, hframe, -, hevm, hstands, hlayout⟩ :=
      entered_at_rise hdepths hcalls hprev hlog hnew h
    rw [prevLogOf_succ hprev, ← hframe]
    change Corresponds registry contractAddress structLogs frame
      ((evmFrameAt structLogs contractAddress k).called (some structLogs[k]))
    rw [← hevm]
    exact ⟨hstands, fun hagree => hlayout.mpr (hagree k _ log hprev hlog hnew)⟩

theorem framesCorrespond (hdepths : LegalDepths (structLogs.map (·.depth)))
    (hcalls : CallFrames structLogs) : ∀ k, k ≤ structLogs.length →
      FramesCorrespond keccak256 registered registry contractAddress structLogs k
  | 0, _ => by
      rw [FramesCorrespond, stateBefore, evmFramesBefore, Machine.stateBefore_zero,
        Machine.stateBefore_zero]
      exact .cons ⟨stands_own contractAddress contractAddress, fun _ => rfl⟩ .nil
  | k + 1, hk => by
      have hlog : structLogs[k]? = some structLogs[k] := List.getElem?_eq_getElem hk
      have ih := framesCorrespond hdepths hcalls k (Nat.le_of_lt hk)
      rw [FramesCorrespond, (frameStack_enterDepth hdepths hlog).2]
      exact corresponds_enterDepth hdepths hcalls hlog ih

/-- The artifacts of a log are those of the frame on top. -/
theorem artifactsOf_iff {k : Nat} {log : StructLog}
    {frame : FrameContext}
    (hregistered : (registry.contracts.lookup (evmFrameAt structLogs contractAddress k).code).isSome)
    (hlast : (enterDepth structLogs k log (stateBefore keccak256 registered registry contractAddress
      structLogs k)).frameStack.getLast? = some frame)
    (hstands : Stands frame (evmFrameAt structLogs contractAddress k)) :
    ArtifactsOf registry (evmFrameAt structLogs contractAddress k)
        (artifactsAt keccak256 registered registry contractAddress structLogs k log) ↔
      usedLayout registry frame =
        layoutOf registry (evmFrameAt structLogs contractAddress k).storage := by
  obtain ⟨contract, hcontract⟩ := Option.isSome_iff_exists.mp hregistered
  have hartifacts : artifactsAt keccak256 registered registry contractAddress structLogs k log =
      { contract.artifacts with storageLayout := usedLayout registry frame } :=
    artifactsOn_eq hlast (hstands.code ▸ hcontract) hstands.proxy
  constructor
  · rintro ⟨contract', -, heq⟩
    rw [hartifacts] at heq
    exact congrArg (·.storageLayout) heq
  · intro hlayout
    exact ⟨contract, hcontract, by rw [hartifacts, hlayout]⟩

end Runs

/-- **Artifacts under delegation.** When every address whose code runs is
registered, the artifacts of every log are those of its code with the layout of
its storage exactly when, at every DELEGATECALL that enters a frame, the caller's
code and storage have the same layout and, at every CALLCODE, the callee's code
and the caller's storage. -/
theorem artifacts_match_iff (keccak256 : List UInt8 → U256) (registered : List Path)
    (registry : ContractRegistry) (contractAddress : Address) {structLogs : List StructLog}
    (hdepths : LegalDepths (structLogs.map (·.depth))) (hcalls : CallFrames structLogs)
    (hregistered : ∀ k, k < structLogs.length →
      (registry.contracts.lookup (evmFrameAt structLogs contractAddress k).code).isSome) :
    (∀ k log, structLogs[k]? = some log →
      ArtifactsOf registry (evmFrameAt structLogs contractAddress k)
        (artifactsAt keccak256 registered registry contractAddress structLogs k log)) ↔
      DelegationsAgree registry contractAddress structLogs := by
  constructor
  · intro hmatch k prev log hprev hlog hrise
    have hk : k + 1 < structLogs.length := (List.getElem?_eq_some_iff.mp hlog).1
    have hframes : FramesCorrespond keccak256 registered registry contractAddress structLogs
        (k + 1) := framesCorrespond hdepths hcalls (k + 1) hk.le
    obtain ⟨frame, -, hlast, -, hstands, hlayout⟩ :=
      entered_at_rise hdepths hcalls hprev hlog hrise hframes
    exact hlayout.mp ((artifactsOf_iff (hregistered _ hk) hlast hstands).mp
      (hmatch (k + 1) log hlog))
  · intro hagree k log hlog
    have hk : k < structLogs.length := (List.getElem?_eq_some_iff.mp hlog).1
    have hbefore : FramesCorrespond keccak256 registered registry contractAddress structLogs k :=
      framesCorrespond hdepths hcalls k hk.le
    have hframes := corresponds_enterDepth hdepths hcalls hlog hbefore
    have hpos : 1 ≤ log.depth :=
      hdepths.positive log.depth (List.mem_of_getElem? (getElem?_depths hlog))
    have hne : (enterDepth structLogs k log (stateBefore keccak256 registered registry
        contractAddress structLogs k)).frameStack ≠ [] := by
      rw [(frameStack_enterDepth hdepths hlog).1]
      intro hnil
      have := congrArg List.length hnil
      rw [length_resize, List.length_nil] at this
      omega
    obtain ⟨frame, evm, hlast, hevm, hstands, hlayout⟩ := exists_getLast?_of_forall₂ hframes hne
    have hevmAt : evmFrameAt structLogs contractAddress k = evm := by
      rw [evmFrameAt, hevm]
      rfl
    subst hevmAt
    exact (artifactsOf_iff (hregistered k hk) hlast hstands).mpr (hlayout hagree)

/-- A proxy with a layout, and two implementations without. -/
def proxyRegistry : ContractRegistry :=
  { contracts := [(1, counterContract), (2, { counterContract with storageLayout := none }),
      (3, { counterContract with storageLayout := none })] }

/-- The proxy delegates, and so does its implementation. -/
def nestedDelegation : List StructLog :=
  [Recorder.counterLog 1 1 "DELEGATECALL" [2, 0], Recorder.counterLog 2 1 "DELEGATECALL" [3, 0],
    Recorder.counterLog 3 2 "SSTORE" [7, 0]]

theorem callFrames_nestedDelegation : CallFrames nestedDelegation := by
  rintro (_ | _ | k) prev log hprev hlog -
  · cases hprev
    decide
  · cases hprev
    decide
  · cases hlog

/-- The inner frame runs on the proxy's storage, with the layout of the
implementation that called it. -/
theorem artifacts_nestedDelegation :
    LegalDepths (nestedDelegation.map (·.depth)) ∧ CallFrames nestedDelegation ∧
      (∀ k, k < nestedDelegation.length →
        (proxyRegistry.contracts.lookup (evmFrameAt nestedDelegation 1 k).code).isSome) ∧
      ¬ ∀ k log, nestedDelegation[k]? = some log →
        ArtifactsOf proxyRegistry (evmFrameAt nestedDelegation 1 k)
          (artifactsAt (fun _ => 0) [] proxyRegistry 1 nestedDelegation k log) := by
  refine ⟨by decide, callFrames_nestedDelegation, by decide, fun h => ?_⟩
  obtain ⟨contract, -, ha⟩ := h 2 (Recorder.counterLog 3 2 "SSTORE" [7, 0]) rfl
  have hlayout := congrArg (·.storageLayout) ha
  revert hlayout
  show ¬ (artifactsAt (fun _ => 0) [] proxyRegistry 1 nestedDelegation 2
    (Recorder.counterLog 3 2 "SSTORE" [7, 0])).storageLayout =
      layoutOf proxyRegistry (evmFrameAt nestedDelegation 1 2).storage
  decide

theorem delegationsAgree_oneHop :
    DelegationsAgree proxyRegistry 1 (nestedDelegation.take 2) := by
  rintro (_ | k) prev log hprev hlog -
  · cases hprev
    exact ⟨fun _ => rfl, fun h => absurd h (by decide)⟩
  · cases hlog

/-- With one hop every layout is found. -/
theorem artifacts_match_oneHop :
    CallFrames (nestedDelegation.take 2) ∧
      ∀ k log, (nestedDelegation.take 2)[k]? = some log →
        ArtifactsOf proxyRegistry (evmFrameAt (nestedDelegation.take 2) 1 k)
          (artifactsAt (fun _ => 0) [] proxyRegistry 1 (nestedDelegation.take 2) k log) := by
  have hcalls : CallFrames (nestedDelegation.take 2) := by
    rintro (_ | k) prev log hprev hlog -
    · cases hprev
      decide
    · cases hlog
  refine ⟨hcalls, ?_⟩
  exact (artifacts_match_iff (fun _ => 0) [] proxyRegistry 1 (by decide) hcalls (by decide)).mpr
    delegationsAgree_oneHop

end EvmRecorder.MultiRecorder
