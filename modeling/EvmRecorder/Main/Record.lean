import EvmRecorder.Model.Main

/-!
# The calls of a recording

Whatever fails, and wherever: `record` makes its calls in one order. The output
directory comes first, then a node, a deployment and one call of what was deployed;
the source file is copied only when the call has a trace, and the writer is given one
session, about that trace and the copied file. A command that succeeds has gone
through all of it.
-/

namespace EvmRecorder

open Effects

section

variable (host : CommandHost) (keccak256 : List UInt8 → U256) (args : RecordArgs)

/-! ## §1  What a command is about -/

/-- What a source file says about the deployment, the call and its trace. The artifacts may
depend on the code that is deployed. -/
structure Target where
  deployData : List UInt8
  callInput : List UInt8
  artifacts : List UInt8 → TraceArtifacts

def solidityTarget (contract : CompiledContract) (deployBytecode : List UInt8) : Target where
  deployData := deployBytecode ++ contract.constructorArgs
  callInput := contract.callInput
  artifacts _ :=
    { sourceMap := contract.sourceMap, runtimeBytecode := contract.runtimeBytecode
      sourceContents := contract.sourceContents, storageLayout := contract.storageLayout
      solidityAst := some contract.solidityAst
      errors := .fromAbi keccak256 contract.abi }

def yulTarget (yulOut : YulCompileOutput) (sourceContents : String) : Target where
  deployData := yulOut.deployBytecode
  callInput := []
  artifacts runtimeBytecode :=
    { sourceMap := yulOut.runtimeSourceMap, runtimeBytecode, sourceContents
      storageLayout := none, solidityAst := none, errors := {} }

/-- The target of a source file, by its extension. -/
inductive Compiles (sourcePath : String) : Target → Prop where
  | solidity {contract : CompiledContract} {deployBytecode : List UInt8}
      (hyul : isYul sourcePath = false)
      (hcontract : compileSolidity host keccak256 args.function sourcePath = .ok contract)
      (hbytecode : host.hexDecode contract.deployBytecodeHex = .ok deployBytecode) :
      Compiles sourcePath (solidityTarget keccak256 contract deployBytecode)
  | yul {yulOut : YulCompileOutput} {sourceContents : String} (hyul : isYul sourcePath = true)
      (hcompile : compileYul host.toYulHost (solcPath host.env) sourcePath = .ok yulOut)
      (hcontents : host.readToString sourcePath = .ok sourceContents) :
      Compiles sourcePath (yulTarget yulOut sourceContents)

/-- The source file and the output directory of a command that is not disabled. -/
structure Asked (sourcePath outDir : String) : Prop where
  enabled : recordingDisabled host.env = false
  sourcePath : host.canonicalize args.solidityFile = .ok sourcePath
  outDir : resolveOutDir host.env args.outDir args.traceDir = .ok outDir

/-! ## §2  The stages of a recording -/

/-- A transaction that is sent after the calls `before`, and its receipt. -/
def Sent (before : List HostCall) (tx : TransactionRequest) (receipt : TransactionReceipt) : Prop :=
  ∃ pending, host.sendTransaction before tx = .ok pending ∧
    host.getReceipt (before ++ [.sendTransaction tx]) pending = .ok receipt

/-- The node's first account is `deployFrom`. -/
def OnNode (outDir : String) (deployFrom : Address) (made : List HostCall) : Prop :=
  made = [.createDirAll outDir, .spawnAnvil] ∧
    ∃ others, host.getAccounts made = .ok (deployFrom :: others)

def deployment (target : Target) (deployFrom : Address) : TransactionRequest :=
  { sender := deployFrom, to_ := none, input := target.deployData }

/-- The call of the contract at `address`. -/
inductive IsCall (target : Target) (deployFrom address : Address) : TransactionRequest → Prop where
  | mk {sender : Address} {value : U256} (hsender : callSender host args deployFrom = .ok sender)
      (hvalue : parseValueWei host args.value = .ok value) :
      IsCall target deployFrom address
        { sender, to_ := some address, input := target.callInput, value := some value
          gasLimit := some 30000000 }

/-- The target is deployed at `address`. -/
def Deployed (outDir : String) (target : Target) (deployFrom address : Address)
    (made : List HostCall) : Prop :=
  ∃ before receipt, OnNode host outDir deployFrom before ∧
    made = before ++ [.sendTransaction (deployment target deployFrom)] ∧
    Sent host before (deployment target deployFrom) receipt ∧
    receipt.contractAddress = some address

/-- The code of a Yul object is what the node says; for Solidity it does not matter. -/
def CodeAt (sourcePath : String) (address : Address) (code : List UInt8)
    (made : List HostCall) : Prop :=
  isYul sourcePath = true → host.getCodeAt made address = .ok code ∧ code ≠ []

/-- The contract has been called. -/
def Called (sourcePath outDir : String) (target : Target) (code : List UInt8)
    (receipt : TransactionReceipt) (made : List HostCall) : Prop :=
  ∃ deployFrom address tx before, Deployed host outDir target deployFrom address before ∧
    CodeAt host sourcePath address code before ∧ IsCall host args target deployFrom address tx ∧
    made = before ++ [.sendTransaction tx] ∧ Sent host before tx receipt

/-- The call has a trace that is not empty. -/
def Traced (sourcePath outDir : String) (target : Target) (code : List UInt8)
    (receipt : TransactionReceipt) (frame : DefaultFrame) (made : List HostCall) : Prop :=
  Called host args sourcePath outDir target code receipt made ∧
    fetchStructLogs host made receipt.transactionHash = .ok frame ∧ frame.structLogs ≠ []

/-- Where the source file is copied to. -/
def IsCopy (sourcePath outDir dst : String) : Prop :=
  ∃ name, fileName sourcePath = some name ∧ dst = joinText outDir name

/-- The source file has been copied, and the recorder is to be given `requests`. -/
def Copied (sourcePath outDir : String) (target : Target) (requests : List Session.Request)
    (made : List HostCall) : Prop :=
  ∃ code receipt frame before dst,
    Traced host args sourcePath outDir target code receipt frame before ∧
    IsCopy sourcePath outDir dst ∧ made = before ++ [.copy sourcePath dst] ∧
    host.copy before sourcePath dst = .ok () ∧
    requests = traceRequests (target.artifacts code) dst frame receipt.status

/-- The writer has been given `written`. -/
def Writing (sourcePath outDir : String) (target : Target) (requests : List Session.Request)
    (written : List WriterCall) (made : List HostCall) : Prop :=
  ∃ before, Copied host args sourcePath outDir target requests before ∧
    made = before ++ .createTraceWriter sourcePath :: written.map .writer

/-- The calls to the writer, none of which is refused. -/
def SessionCalls (outDir : String) (requests : List Session.Request) (cs : List WriterCall) :
    Prop :=
  cs = Session.calls keccak256 host.accepts (Path.ofText outDir) requests ∧
    ((Session.new (Path.ofText outDir)).initializeTrace host.accepts).2.2 = true ∧
    (Session.finalize host.accepts).2 = true

/-- When a call may be made, for the source file, output directory and target of a command. -/
inductive MayIn (sourcePath outDir : String) (target : Target) : List HostCall → HostCall → Prop
    where
  | deploy {made : List HostCall} {deployFrom : Address}
      (hnode : OnNode host outDir deployFrom made) :
      MayIn sourcePath outDir target made (.sendTransaction (deployment target deployFrom))
  | call {made : List HostCall} {deployFrom address : Address} {tx : TransactionRequest}
      (hdeployed : Deployed host outDir target deployFrom address made)
      (htx : IsCall host args target deployFrom address tx) :
      MayIn sourcePath outDir target made (.sendTransaction tx)
  | copy {made : List HostCall} {code : List UInt8} {receipt : TransactionReceipt}
      {frame : DefaultFrame} {dst : String}
      (htraced : Traced host args sourcePath outDir target code receipt frame made)
      (hdst : IsCopy sourcePath outDir dst) :
      MayIn sourcePath outDir target made (.copy sourcePath dst)
  | createTraceWriter {made : List HostCall} {requests : List Session.Request}
      (hcopied : Copied host args sourcePath outDir target requests made) :
      MayIn sourcePath outDir target made (.createTraceWriter sourcePath)
  | writer {made : List HostCall} {requests : List Session.Request} {written : List WriterCall}
      {c : WriterCall} (hwriting : Writing host args sourcePath outDir target requests written made)
      (hnext : written ++ [c] <+:
        Session.calls keccak256 host.accepts (Path.ofText outDir) requests) :
      MayIn sourcePath outDir target made (.writer c)

/-- The compiler has accepted the source file. -/
def IsCompiled (sourcePath : String) : Prop :=
  if isYul sourcePath then
    ∃ yulOut, compileYul host.toYulHost (solcPath host.env) sourcePath = .ok yulOut
  else ∃ contract, compileSolidity host keccak256 args.function sourcePath = .ok contract

/-- When a call may be made: no node without a compiled source file. -/
inductive May (made : List HostCall) (c : HostCall) : Prop where
  | createDirAll {sourcePath outDir : String} (hasked : Asked host args sourcePath outDir)
      (hmade : made = []) (hc : c = .createDirAll outDir)
  | spawnAnvil {sourcePath outDir : String} (hasked : Asked host args sourcePath outDir)
      (hcompiled : IsCompiled host keccak256 args sourcePath)
      (hmade : made = [.createDirAll outDir]) (hc : c = .spawnAnvil)
  | inside {sourcePath outDir : String} {target : Target}
      (hasked : Asked host args sourcePath outDir)
      (htarget : Compiles host keccak256 args sourcePath target)
      (hmay : MayIn host keccak256 args sourcePath outDir target made c)

/-- How a command that succeeds ends. -/
inductive Done (made : List HostCall) : Prop where
  | disabled (hdisabled : recordingDisabled host.env = true) (hmade : made = [])
  | recorded {sourcePath outDir : String} {target : Target} {requests : List Session.Request}
      {written : List WriterCall} (hasked : Asked host args sourcePath outDir)
      (htarget : Compiles host keccak256 args sourcePath target)
      (hwriting : Writing host args sourcePath outDir target requests written made)
      (hcalls : SessionCalls host keccak256 outDir requests written)

end

variable {host : CommandHost} {keccak256 : List UInt8 → U256} {args : RecordArgs}
  {sourcePath outDir : String} {target : Target}

/-! ## §3  The parts of the command -/

section

variable {may : List HostCall → HostCall → Prop} {P : List HostCall → Prop} {α β : Type}

/-- What does not fail is known from there on. -/
theorem bind_try {R : β → List HostCall → Prop} {r : Except String α} {f : α → Command β}
    (hf : ∀ x, r = .ok x → Meets may P (f x) R) : Meets may P (try_ r >>= f) R :=
  .bind_ofExcept fun x hx => hf x (stopped_eq_ok_iff.mp hx)

theorem meets_spawnNode (hmay : ∀ made, P made → may made .spawnAnvil) :
    Meets may P (spawnNode host) fun deployFrom made =>
      ∃ before others, P before ∧ made = before ++ [.spawnAnvil] ∧
        host.getAccounts made = .ok (deployFrom :: others) := by
  unfold spawnNode
  apply Meets.bind_call hmay
  intro _
  apply Meets.bind_query
  rintro (_ | ⟨deployFrom, others⟩)
  · exact .error
  · apply Meets.pure
    rintro made ⟨⟨before, hP, hmade, -⟩, haccounts⟩
    exact ⟨before, others, hP, hmade, stopped_eq_ok_iff.mp haccounts⟩

theorem meets_transact {name : String} {tx : TransactionRequest}
    (hmay : ∀ made, P made → may made (.sendTransaction tx)) :
    Meets may P (transact host name tx) fun receipt made =>
      ∃ before, P before ∧ made = before ++ [.sendTransaction tx] ∧
        Sent host before tx receipt := by
  unfold transact
  apply Meets.bind_call hmay
  intro pending
  apply Meets.query
  rintro made receipt ⟨before, hP, rfl, hpending⟩ hreceipt
  exact ⟨before, hP, rfl, pending, withContext_eq_ok_iff.mp (stopped_eq_ok_iff.mp hpending),
    withContext_eq_ok_iff.mp (stopped_eq_ok_iff.mp hreceipt)⟩

end

theorem meets_deploy {name noAddress : String} {deployFrom : Address} :
    Meets (MayIn host keccak256 args sourcePath outDir target) (OnNode host outDir deployFrom)
      (deploy host name noAddress deployFrom target.deployData)
      (Deployed host outDir target deployFrom) := by
  unfold deploy
  apply Meets.bind (meets_transact fun made hnode => .deploy hnode)
  intro receipt
  apply Meets.ofExcept
  rintro made address ⟨before, hnode, hmade, hsent⟩ haddress
  exact ⟨before, receipt, hnode, hmade, hsent, okOr_eq_ok_iff.mp (stopped_eq_ok_iff.mp haddress)⟩

theorem meets_callContract {name : String} {deployFrom callFrom address : Address}
    {code : List UInt8} (hsender : callSender host args deployFrom = .ok callFrom) :
    Meets (MayIn host keccak256 args sourcePath outDir target)
      (fun made => Deployed host outDir target deployFrom address made ∧
        CodeAt host sourcePath address code made)
      (callContract host name args callFrom address target.callInput)
      (Called host args sourcePath outDir target code) := by
  unfold callContract
  apply bind_try
  intro value hvalue
  have htx : IsCall host args target deployFrom address _ :=
    .mk hsender (withContext_eq_ok_iff.mp hvalue)
  refine (meets_transact fun made hdeployed => .call hdeployed.1 htx).weaken ?_
  rintro receipt made ⟨before, ⟨hdeployed, hcode⟩, hmade, hsent⟩
  exact ⟨deployFrom, address, _, before, hdeployed, hcode, htx, hmade, hsent⟩

theorem meets_fetchFrame {noLogs : String} {code : List UInt8} {receipt : TransactionReceipt} :
    Meets (MayIn host keccak256 args sourcePath outDir target)
      (Called host args sourcePath outDir target code receipt) (fetchFrame host noLogs receipt)
      (Traced host args sourcePath outDir target code receipt) := by
  unfold fetchFrame
  apply Meets.bind_query
  intro frame
  apply Meets.ite
  · exact fun _ => .error
  · intro hlogs
    apply Meets.pure
    rintro made ⟨hcalled, hframe⟩
    refine ⟨hcalled, withContext_eq_ok_iff.mp (stopped_eq_ok_iff.mp hframe), fun hnil => hlogs ?_⟩
    rw [extractStructLogs, hnil]
    rfl

theorem meets_copySource {code : List UInt8} {receipt : TransactionReceipt} {frame : DefaultFrame} :
    Meets (MayIn host keccak256 args sourcePath outDir target)
      (Traced host args sourcePath outDir target code receipt frame)
      (copySource host sourcePath outDir) fun dst => Copied host args sourcePath outDir target
        (traceRequests (target.artifacts code) dst frame receipt.status) := by
  unfold copySource
  apply bind_try
  intro name hname
  have hcopy : IsCopy sourcePath outDir (joinText outDir name) :=
    ⟨name, okOr_eq_ok_iff.mp hname, rfl⟩
  apply Meets.bind_call fun made htraced => .copy htraced hcopy
  intro _
  apply Meets.pure
  rintro made ⟨before, htraced, hmade, hcopied⟩
  exact ⟨code, receipt, frame, before, _, htraced, hcopy, hmade,
    withContext_eq_ok_iff.mp (stopped_eq_ok_iff.mp hcopied), rfl⟩

theorem performRequests_eq (requests : List Session.Request) : ∀ (i : Nat) (self : Session),
    performRequests keccak256 self requests =
      let performed := Machine.run (fun _ request self => self.perform keccak256 request) i requests
        self
      Program.callAll (performed.2.map (.writer ∘ .event)) (.ok performed.1) := by
  induction requests with
  | nil => exact fun _ _ => rfl
  | cons request requests ih =>
      intro i self
      funext made
      rw [performRequests, ih (i + 1)]
      show Program.andThen (.callAll _ _) _ made = _
      simp [Program.andThen, Program.callAll, Machine.run]

/-- The writer gets the calls of a session. -/
theorem writeTrace_eq (host : CommandHost) (keccak256 : List UInt8 → U256)
    (sourcePath outDir : String) (requests : List Session.Request) :
    ∃ result, writeTrace host keccak256 sourcePath outDir requests =
        Program.callAll (.createTraceWriter sourcePath ::
          (Session.calls keccak256 host.accepts (Path.ofText outDir) requests).map .writer) result ∧
      (result = .ok () →
        ((Session.new (Path.ofText outDir)).initializeTrace host.accepts).2.2 = true ∧
          (Session.finalize host.accepts).2 = true) := by
  unfold writeTrace Session.calls
  simp only [performRequests_eq _ 0]
  rcases (Session.new (Path.ofText outDir)).initializeTrace host.accepts with
    ⟨opened, calls, _ | _⟩
  · refine ⟨.error (.error "failed to initialize EvmRecorder"), ?_, fun h => nomatch h⟩
    funext made
    simp [bind, Program.andThen, Program.call, Program.callAll]
  · rcases Session.finalize host.accepts with ⟨closed, _ | _⟩
    · refine ⟨.error (.error "failed to finalize EvmRecorder"), ?_, fun h => nomatch h⟩
      funext made
      simp [bind, Program.andThen, Program.call, Program.callAll, Session.performAll]
    · refine ⟨.ok (), ?_, fun _ => ⟨rfl, rfl⟩⟩
      funext made
      simp [bind, Program.andThen, Program.call, Program.callAll, Session.performAll]

theorem allowed_writeTrace {requests : List Session.Request} {made : List HostCall}
    (hcopied : Copied host args sourcePath outDir target requests made) :
    Allowed (MayIn host keccak256 args sourcePath outDir target) made
      (.createTraceWriter sourcePath ::
        (Session.calls keccak256 host.accepts (Path.ofText outDir) requests).map .writer) := by
  intro pre c post hcs
  rcases pre with _ | ⟨first, pre⟩
  · obtain ⟨rfl, -⟩ := List.cons.inj hcs
    rw [List.append_nil]
    exact .createTraceWriter hcopied
  · obtain ⟨rfl, hcalls⟩ := List.cons.inj hcs
    obtain ⟨written, rest, hsplit, rfl, hrest⟩ := List.map_eq_append_iff.mp hcalls
    obtain ⟨next, others, rfl, rfl, -⟩ := List.map_eq_cons_iff.mp hrest
    have hnext : written ++ [next] <+:
        Session.calls keccak256 host.accepts (Path.ofText outDir) requests :=
      ⟨others, by rw [hsplit, List.append_assoc, List.singleton_append]⟩
    exact .writer ⟨made, hcopied, rfl⟩ hnext

theorem meets_writeTrace (requests : List Session.Request) :
    Meets (MayIn host keccak256 args sourcePath outDir target)
      (Copied host args sourcePath outDir target requests)
      (writeTrace host keccak256 sourcePath outDir requests) fun _ made =>
        ∃ written, Writing host args sourcePath outDir target requests written made ∧
          SessionCalls host keccak256 outDir requests written := by
  obtain ⟨result, heq, haccepted⟩ := writeTrace_eq host keccak256 sourcePath outDir requests
  rw [heq]
  apply Meets.callAll fun made hcopied => allowed_writeTrace hcopied
  intro made _ hcopied hresult
  exact ⟨_, ⟨made, hcopied, rfl⟩, rfl, haccepted hresult⟩

/-! ## §4  The command -/

/-- The session of a command has been written, and the writer has refused nothing. -/
def InSession (host : CommandHost) (keccak256 : List UInt8 → U256) (args : RecordArgs)
    (sourcePath outDir : String) (target : Target) (made : List HostCall) : Prop :=
  ∃ requests written, Writing host args sourcePath outDir target requests written made ∧
    SessionCalls host keccak256 outDir requests written

theorem meets_recordCall {noLogs : String} {code : List UInt8} {receipt : TransactionReceipt} :
    Meets (MayIn host keccak256 args sourcePath outDir target)
      (Called host args sourcePath outDir target code receipt)
      (recordCall host keccak256 noLogs sourcePath outDir (target.artifacts code) receipt)
      fun _ => InSession host keccak256 args sourcePath outDir target := by
  unfold recordCall
  apply Meets.bind meets_fetchFrame
  intro frame
  apply Meets.bind meets_copySource
  intro dst
  exact (meets_writeTrace _).weaken fun _ _ h => ⟨_, h⟩

/-- The call and what follows it. -/
theorem meets_afterDeploy (code : List UInt8) {noLogs name : String}
    {deployFrom callFrom address : Address}
    (hsender : callSender host args deployFrom = .ok callFrom) :
    Meets (MayIn host keccak256 args sourcePath outDir target)
      (fun made => Deployed host outDir target deployFrom address made ∧
        CodeAt host sourcePath address code made)
      (callContract host name args callFrom address target.callInput >>=
        recordCall host keccak256 noLogs sourcePath outDir (target.artifacts code))
      fun _ => InSession host keccak256 args sourcePath outDir target :=
  (meets_callContract hsender).bind fun _ => meets_recordCall

/-- How far a command has come that is not disabled. -/
def Finished (host : CommandHost) (keccak256 : List UInt8 → U256) (args : RecordArgs)
    (sourcePath outDir : String) (made : List HostCall) : Prop :=
  ∃ target, Compiles host keccak256 args sourcePath target ∧
    InSession host keccak256 args sourcePath outDir target made

theorem Finished.done (hasked : Asked host args sourcePath outDir) {made : List HostCall}
    (h : Finished host keccak256 args sourcePath outDir made) : Done host keccak256 args made := by
  obtain ⟨target, htarget, requests, written, hwriting, hcalls⟩ := h
  exact .recorded hasked htarget hwriting hcalls

theorem meets_inside (hasked : Asked host args sourcePath outDir)
    (htarget : Compiles host keccak256 args sourcePath target) {P : List HostCall → Prop}
    {p : Command Unit} (h : Meets (MayIn host keccak256 args sourcePath outDir target) P p
      fun _ => InSession host keccak256 args sourcePath outDir target) :
    Meets (May host keccak256 args) P p fun _ => Finished host keccak256 args sourcePath outDir :=
  (h.mono fun _ _ hmay => .inside hasked htarget hmay).weaken fun _ _ h => ⟨target, htarget, h⟩

theorem meets_spawn (hasked : Asked host args sourcePath outDir)
    (hcompiled : IsCompiled host keccak256 args sourcePath) :
    Meets (May host keccak256 args) (· = [.createDirAll outDir]) (spawnNode host)
      (OnNode host outDir) := by
  refine (meets_spawnNode fun made hmade => .spawnAnvil hasked hcompiled hmade rfl).weaken ?_
  rintro deployFrom made ⟨before, others, rfl, rfl, haccounts⟩
  exact ⟨rfl, others, haccounts⟩

theorem meets_recordYul (hasked : Asked host args sourcePath outDir)
    (hyul : isYul sourcePath = true) :
    Meets (May host keccak256 args) (· = [.createDirAll outDir])
      (recordYul host keccak256 args sourcePath outDir)
      fun _ => Finished host keccak256 args sourcePath outDir := by
  unfold recordYul
  apply bind_try
  intro yulOut hcompile
  apply bind_try
  intro sourceContents hcontents
  have htarget : Compiles host keccak256 args sourcePath (yulTarget yulOut sourceContents) :=
    .yul hyul hcompile (withContext_eq_ok_iff.mp hcontents)
  have hcompiled : IsCompiled host keccak256 args sourcePath := by
    rw [IsCompiled, if_pos hyul]
    exact ⟨yulOut, hcompile⟩
  apply Meets.bind (meets_spawn hasked hcompiled)
  intro deployFrom
  apply bind_try
  intro callFrom hsender
  apply meets_inside hasked htarget
  apply Meets.bind meets_deploy
  intro address
  apply Meets.bind_query
  intro code
  apply Meets.ite
  · exact fun _ => .error
  · intro hcode
    refine (meets_afterDeploy code hsender).strengthen ?_
    rintro made ⟨hdeployed, hget⟩
    refine ⟨hdeployed, fun _ => ⟨stopped_eq_ok_iff.mp hget, ?_⟩⟩
    rintro rfl
    exact hcode rfl

theorem meets_recordSolidity (hasked : Asked host args sourcePath outDir)
    (hyul : isYul sourcePath = false) :
    Meets (May host keccak256 args) (· = [.createDirAll outDir])
      (recordSolidity host keccak256 args sourcePath outDir)
      fun _ => Finished host keccak256 args sourcePath outDir := by
  unfold recordSolidity
  apply bind_try
  intro contract hcontract
  have hcompiled : IsCompiled host keccak256 args sourcePath := by
    rw [IsCompiled, hyul, if_neg Bool.false_ne_true]
    exact ⟨contract, hcontract⟩
  apply Meets.bind (meets_spawn hasked hcompiled)
  intro deployFrom
  apply bind_try
  intro callFrom hsender
  apply bind_try
  intro deployBytecode hbytecode
  apply meets_inside hasked
    (Compiles.solidity hyul hcontract (withContext_eq_ok_iff.mp hbytecode))
  apply Meets.bind meets_deploy
  intro address
  refine (meets_afterDeploy [] hsender).strengthen fun made hdeployed => ⟨hdeployed, fun h => ?_⟩
  rw [hyul] at h
  cases h

/-- **A recording, however far it comes.** Every call to the outside is made when it may be
made, whatever the node, the compiler, the file system and the writer answer: in particular
nothing at all is done by a disabled recorder, and nothing is written before there is a trace.
A command that succeeds was disabled or has handed the writer the whole session of the call. -/
theorem record_calls (host : CommandHost) (keccak256 : List UInt8 → U256) (args : RecordArgs) :
    Allowed (May host keccak256 args) [] (record host keccak256 args []).1 ∧
      ((record host keccak256 args []).2 = .ok () →
        Done host keccak256 args (record host keccak256 args []).1) := by
  have hmeets : Meets (May host keccak256 args) (· = []) (record host keccak256 args)
      fun _ => Done host keccak256 args := by
    unfold record
    apply bind_try
    intro sourcePath hsource
    apply Meets.ite
    · exact fun hdisabled => .pure fun made hmade => .disabled hdisabled hmade
    · intro henabled
      apply bind_try
      intro outDir hdir
      have hasked : Asked host args sourcePath outDir :=
        ⟨Bool.eq_false_iff.mpr henabled, withContext_eq_ok_iff.mp hsource, hdir⟩
      apply Meets.bind_call fun made hmade => .createDirAll hasked hmade rfl
      intro _
      have hbody : Meets (May host keccak256 args) (· = [.createDirAll outDir])
          (if isYul sourcePath then recordYul host keccak256 args sourcePath outDir
            else recordSolidity host keccak256 args sourcePath outDir)
          fun _ => Finished host keccak256 args sourcePath outDir :=
        .ite (meets_recordYul hasked) fun hyul =>
          meets_recordSolidity hasked (Bool.eq_false_iff.mpr hyul)
      have hdone := hbody.weaken fun _ _ h => h.done hasked
      refine hdone.strengthen ?_
      rintro made ⟨before, rfl, hmade, -⟩
      exact hmade
  exact ⟨hmeets.allowed [] rfl, fun hok => by simpa using hmeets.result [] () rfl hok⟩

/-- A host on which nothing fails. -/
def quietHost : CommandHost where
  output _ _ := .ok ⟨true, [], []⟩
  fromStr _ := .ok (.object [("contracts", .object [("a.sol:a", .object [("bin", .string ""),
    ("bin-runtime", .string ""), ("srcmap-runtime", .string ""), ("abi", .array [])])])])
  hexDecode _ := .ok []
  env _ := none
  canonicalize := .ok
  readToString _ := .ok ""
  layoutFromValue _ := none
  addressFromStr _ := .ok 0
  fromStrRadix _ _ := .ok 0
  createDirAll _ _ := .ok ()
  getAccounts _ := .ok [1]
  sendTransaction _ _ := .ok 7
  getReceipt _ _ := .ok ⟨some 2, 7, true⟩
  getCodeAt _ _ := .ok []
  debugTraceTransaction _ _ := .ok (.default ⟨false, [], [{ pc := 0, op := "STOP", depth := 1 }]⟩)
  copy _ _ _ := .ok ()
  accepts _ := true

example :
    let run := record quietHost (fun _ => 0) ⟨"/a.sol", some "out", none, "run", none, "0"⟩ []
    run.2 = .ok () ∧ run.1.take 6 =
      [.createDirAll "out", .spawnAnvil, .sendTransaction { sender := 1, to_ := none, input := [] },
        .sendTransaction { sender := 1, to_ := some 2, input := [0, 0, 0, 0], value := some 0
                           gasLimit := some 30000000 },
        .copy "/a.sol" "out/a.sol", .createTraceWriter "/a.sol"] := by
  decide +kernel

end EvmRecorder
