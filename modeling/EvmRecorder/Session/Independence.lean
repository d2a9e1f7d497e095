import EvmRecorder.Session.LineTables
import EvmRecorder.Model.MapOrders

/-!
# Recordings do not depend on each other

What one recorder has recorded before shows in a later recording in one way only:
line tables it has registered are not registered again. All other events, and the
call tree, are those of a recorder that is used for the first time. What is said of two
recorders holds up to the order in which each walks its hash maps.
-/

namespace EvmRecorder

open Commuting Levels

/-- All events but line tables. -/
def notTable (e : TraceEvent) : Option TraceEvent :=
  if e.kind = .lineTable then none else some e

def dropTables (events : List TraceEvent) : List TraceEvent := events.filterMap notTable

section Blocks

variable (a : Artifacts) (mainPath : Path)

theorem dropTables_append (xs ys : List TraceEvent) :
    dropTables (xs ++ ys) = dropTables xs ++ dropTables ys :=
  List.filterMap_append

theorem UpToOrder.dropTables {events events' : List TraceEvent} (h : UpToOrder events events') :
    UpToOrder (dropTables events) (EvmRecorder.dropTables events') := by
  refine Reordered.filterMap (fun e e' x x' hcommutes hx hx' => ?_) h
  have hkept : ∀ {e x : TraceEvent}, notTable e = some x → x = e := by
    intro e x hx
    rw [notTable] at hx
    split at hx
    · cases hx
    · exact (Option.some.inj hx).symm
  rwa [hkept hx, hkept hx']

theorem dropTables_blocks {xs ys zs xs' ys' zs' : List TraceEvent}
    (hxs : dropTables xs = dropTables xs') (hys : dropTables ys = dropTables ys')
    (hzs : dropTables zs = dropTables zs') :
    dropTables (xs ++ ys ++ zs) = dropTables (xs' ++ ys' ++ zs') := by
  rw [dropTables_append, dropTables_append, dropTables_append, dropTables_append, hxs, hys, hzs]

theorem dropTables_ensurePath (registered : List Path) (path : Path) (source : String) :
    dropTables (ensurePathWithLineLengths registered path source).2 = [] :=
  (issues_ensurePath registered path source).filterMap_eq_nil fun e he => by
    rw [notTable, if_pos (List.mem_singleton.mp he)]

theorem dropTables_emitStep (registered registered' : List Path) (prevLine : Option SourceLocation)
    (loc : SourceLocation) (storageState : NamedValues) :
    dropTables (emitStep a mainPath registered prevLine loc storageState).2 =
      dropTables (emitStep a mainPath registered' prevLine loc storageState).2 := by
  unfold emitStep
  split
  · rfl
  · dsimp only
    rw [dropTables_append, dropTables_append, dropTables_append, dropTables_append]
    cases a.sourceContents[asUsize loc.fileIndex]? with
    | none => rfl
    | some source =>
        dsimp only
        rw [dropTables_ensurePath, dropTables_ensurePath]

theorem dropTables_preamble (registered registered' : List Path) :
    dropTables (Recorder.preamble registered a) = dropTables (Recorder.preamble registered' a) := by
  unfold Recorder.preamble Recorder.registerMain
  rw [dropTables_append, dropTables_append]
  split
  · rw [dropTables_ensurePath, dropTables_ensurePath]
  · rfl

end Blocks

namespace Recorder

variable (keccak256 : List UInt8 → U256) (a : Artifacts) (mainPath : Path)
  (structLogs : List StructLog)

def setPaths (registered : List Path) (s : RecorderState) : RecorderState :=
  { s with pathsWithLineLengths := registered }

theorem handleJump_setPaths (i : Nat) (log : StructLog) (loc : SourceLocation)
    (registered : List Path) (s : RecorderState) :
    handleJump a mainPath structLogs i log loc (setPaths registered s) =
      (setPaths registered (handleJump a mainPath structLogs i log loc s).1,
        (handleJump a mainPath structLogs i log loc s).2) := by
  unfold handleJump
  split
  · unfold jumpInto
    by_cases habsorbed : s.firstInternalCallAbsorbed = true
    · rw [if_pos habsorbed, if_pos (show (setPaths registered s).firstInternalCallAbsorbed = true
        from habsorbed)]
      rfl
    · rw [if_neg habsorbed, if_neg (show ¬ (setPaths registered s).firstInternalCallAbsorbed = true
        from habsorbed)]
      rfl
  · rfl
  · rfl

/-- The state in which the jump marker of a resolved log is handled. -/
def located (log : StructLog) (loc : SourceLocation) (s : RecorderState) : RecorderState :=
  { s with
    prevLine := some loc
    stackTrackers := setLevel log.depth (trackedStack a log (some loc) s) s.stackTrackers
    memoryTrackers := setLevel log.depth
      (trackMemory a log loc (atLevel log.depth .new s.memoryTrackers)) s.memoryTrackers }

theorem atLocation_setPaths (i : Nat) (log : StructLog) (loc : SourceLocation)
    (registered : List Path) (s : RecorderState) :
    let stepped := emitStep a mainPath registered s.prevLine loc s.storageState
    let jumped := handleJump a mainPath structLogs i log loc (located a log loc s)
    atLocation a mainPath structLogs i log loc (setPaths registered s) =
      (setPaths stepped.1 jumped.1,
        stepped.2 ++ localEvents (localsRead a structLogs i log loc s) ++ jumped.2) := by
  intro stepped jumped
  have hjump := handleJump_setPaths a mainPath structLogs i log loc stepped.1 (located a log loc s)
  change ((handleJump a mainPath structLogs i log loc (setPaths stepped.1 (located a log loc s))).1,
    stepped.2 ++ localEvents (localsRead a structLogs i log loc s) ++
      (handleJump a mainPath structLogs i log loc
        (setPaths stepped.1 (located a log loc s))).2) = _
  rw [hjump]

/-- The registered paths matter for line tables only. -/
theorem handleLocation_setPaths (i : Nat) (log : StructLog) (registered registered' : List Path)
    (s : RecorderState) :
    setPaths [] (handleLocation a mainPath structLogs i log (setPaths registered s)).1 =
        setPaths [] (handleLocation a mainPath structLogs i log (setPaths registered' s)).1 ∧
      dropTables (handleLocation a mainPath structLogs i log (setPaths registered s)).2 =
        dropTables (handleLocation a mainPath structLogs i log (setPaths registered' s)).2 := by
  unfold handleLocation
  cases a.resolvePc log.pc with
  | none => exact ⟨rfl, rfl⟩
  | some loc =>
      have hlocation := atLocation_setPaths a mainPath structLogs i log loc
      dsimp only at hlocation ⊢
      rw [hlocation, hlocation]
      refine ⟨rfl, ?_⟩
      rw [dropTables_append, dropTables_append, dropTables_append, dropTables_append,
        dropTables_emitStep a mainPath registered registered']

theorem handleStorage_setPaths (log : StructLog) (registered : List Path) (s : RecorderState) :
    handleStorage keccak256 a log (setPaths registered s) =
      (setPaths registered (handleStorage keccak256 a log s).1,
        (handleStorage keccak256 a log s).2) := by
  unfold handleStorage
  dsimp only
  split <;> rfl

theorem handleStorage_congr (log : StructLog) {s s' : RecorderState}
    (h : setPaths [] s = setPaths [] s') :
    setPaths [] (handleStorage keccak256 a log s).1 =
        setPaths [] (handleStorage keccak256 a log s').1 ∧
      (handleStorage keccak256 a log s).2 = (handleStorage keccak256 a log s').2 := by
  have hs := handleStorage_setPaths keccak256 a log [] s
  rw [h, handleStorage_setPaths keccak256 a log [] s'] at hs
  exact ⟨(Prod.mk.inj hs).1.symm, (Prod.mk.inj hs).2.symm⟩

theorem step_setPaths (i : Nat) (log : StructLog) (s : RecorderState) :
    setPaths [] (step keccak256 a mainPath structLogs i log (setPaths [] s)).1 =
        setPaths [] (step keccak256 a mainPath structLogs i log s).1 ∧
      dropTables (step keccak256 a mainPath structLogs i log (setPaths [] s)).2 =
        dropTables (step keccak256 a mainPath structLogs i log s).2 := by
  obtain ⟨hstate, hevents⟩ := handleLocation_setPaths a mainPath structLogs i log []
    s.pathsWithLineLengths (enterDepth log s)
  obtain ⟨hstored, hwritten⟩ := handleStorage_congr keccak256 a log hstate
  constructor
  · exact congrArg (fun t : RecorderState => { t with prevDepth := log.depth }) hstored
  · dsimp only [step]
    rw [dropTables_append, dropTables_append, dropTables_append, dropTables_append,
      dropTables_append, dropTables_append]
    exact congrArg₂ (fun located stored => dropTables (depthEvents a mainPath structLogs i log s) ++
      located ++ stored ++ dropTables (specialEvents log)) hevents (congrArg dropTables hwritten)

/-- The loop body as far as it is not about line tables. -/
def stepWithoutTables (i : Nat) (log : StructLog) (s : RecorderState) :
    RecorderState × List TraceEvent :=
  (setPaths [] (step keccak256 a mainPath structLogs i log s).1,
    dropTables (step keccak256 a mainPath structLogs i log s).2)

theorem run_withoutTables (s : RecorderState) :
    Machine.run (stepWithoutTables keccak256 a mainPath structLogs) 0 (structLogs.map id)
        (setPaths [] s) =
      (setPaths [] (Machine.run (step keccak256 a mainPath structLogs) 0 structLogs s).1,
        dropTables (Machine.run (step keccak256 a mainPath structLogs) 0 structLogs s).2) :=
  Machine.run_project (setPaths []) id notTable (fun i log s =>
    Prod.ext (step_setPaths keccak256 a mainPath structLogs i log s).1
      (step_setPaths keccak256 a mainPath structLogs i log s).2) structLogs 0 s

/-- A recording by a recorder that has registered other paths before. -/
theorem recordFromStructlog_independent (registered : List Path) :
    dropTables (recordFromStructlog keccak256 registered a structLogs) =
      dropTables (recordFromStructlog keccak256 [] a structLogs) := by
  unfold recordFromStructlog
  by_cases hempty : structLogs.isEmpty = true
  · rw [if_pos hempty, if_pos hempty]
  · rw [if_neg hempty, if_neg hempty, dropTables_append, dropTables_append,
      dropTables_preamble a registered []]
    have hrun := fun registered => congrArg Prod.snd
      (run_withoutTables keccak256 a (mainPathOf a.sourcePaths) structLogs
        (initialState registered a))
    exact congrArg (dropTables (preamble [] a) ++ ·) ((hrun registered).symm.trans (hrun []))

end Recorder

namespace MultiRecorder

variable (keccak256 : List UInt8 → U256) (registry : ContractRegistry) (initial : Artifacts)
  (contractAddress : Address) (a : Artifacts) (mainPath : Path) (structLogs : List StructLog)

def setPaths (registered : List Path) (s : MultiRecorderState) : MultiRecorderState :=
  { s with pathsWithLineLengths := registered }

theorem enterDepth_setPaths (i : Nat) (log : StructLog) (registered : List Path)
    (s : MultiRecorderState) :
    enterDepth structLogs i log (setPaths registered s) =
      setPaths registered (enterDepth structLogs i log s) := by
  unfold enterDepth
  by_cases hrise : s.prevDepth < log.depth
  · rw [if_pos hrise, if_pos (show (setPaths registered s).prevDepth < log.depth from hrise)]
    rfl
  · rw [if_neg hrise, if_neg (show ¬ (setPaths registered s).prevDepth < log.depth from hrise)]
    by_cases hfall : log.depth < s.prevDepth
    · rw [if_pos hfall, if_pos (show log.depth < (setPaths registered s).prevDepth from hfall)]
      rfl
    · rw [if_neg hfall, if_neg (show ¬ log.depth < (setPaths registered s).prevDepth from hfall)]
      rfl

theorem handleJump_setPaths (i : Nat) (log : StructLog) (loc : SourceLocation)
    (registered : List Path) (s : MultiRecorderState) :
    handleJump mainPath structLogs a i log loc (setPaths registered s) =
      (setPaths registered (handleJump mainPath structLogs a i log loc s).1,
        (handleJump mainPath structLogs a i log loc s).2) := by
  unfold handleJump
  split <;> rfl

/-- The state in which the jump marker of a resolved log is handled. -/
def located (log : StructLog) (loc : SourceLocation) (s : MultiRecorderState) :
    MultiRecorderState :=
  { s with
    prevLine := some loc
    stackTrackers := setLevel log.depth (trackedStack a log (some loc) s) s.stackTrackers
    memoryTrackers := setLevel log.depth
      (trackMemory a log loc (atLevel log.depth .new s.memoryTrackers)) s.memoryTrackers }

theorem atLocation_setPaths (i : Nat) (log : StructLog) (loc : SourceLocation)
    (registered : List Path) (s : MultiRecorderState) :
    let stepped := emitStep a mainPath registered s.prevLine loc
      (atLevel log.depth ∅ s.storageStates)
    let jumped := handleJump mainPath structLogs a i log loc (located a log loc s)
    atLocation mainPath structLogs a i log loc (setPaths registered s) =
      (setPaths stepped.1 jumped.1,
        stepped.2 ++ localEvents (localsRead a log loc s) ++ jumped.2) := by
  intro stepped jumped
  have hjump := handleJump_setPaths a mainPath structLogs i log loc stepped.1 (located a log loc s)
  change ((handleJump mainPath structLogs a i log loc (setPaths stepped.1 (located a log loc s))).1,
    stepped.2 ++ localEvents (localsRead a log loc s) ++
      (handleJump mainPath structLogs a i log loc
        (setPaths stepped.1 (located a log loc s))).2) = _
  rw [hjump]

theorem handleLocation_setPaths (i : Nat) (log : StructLog) (registered registered' : List Path)
    (s : MultiRecorderState) :
    setPaths [] (handleLocation mainPath structLogs a i log (setPaths registered s)).1 =
        setPaths [] (handleLocation mainPath structLogs a i log (setPaths registered' s)).1 ∧
      dropTables (handleLocation mainPath structLogs a i log (setPaths registered s)).2 =
        dropTables (handleLocation mainPath structLogs a i log (setPaths registered' s)).2 := by
  unfold handleLocation
  cases a.resolvePc log.pc with
  | none => exact ⟨rfl, rfl⟩
  | some loc =>
      have hlocation := atLocation_setPaths a mainPath structLogs i log loc
      dsimp only at hlocation ⊢
      rw [hlocation, hlocation]
      refine ⟨rfl, ?_⟩
      rw [dropTables_append, dropTables_append, dropTables_append, dropTables_append,
        dropTables_emitStep a mainPath registered registered']

theorem handleStorage_setPaths (log : StructLog) (registered : List Path)
    (s : MultiRecorderState) :
    handleStorage keccak256 a log (setPaths registered s) =
      (setPaths registered (handleStorage keccak256 a log s).1,
        (handleStorage keccak256 a log s).2) := by
  unfold handleStorage
  dsimp only
  split <;> rfl

theorem handleStorage_congr (log : StructLog) {s s' : MultiRecorderState}
    (h : setPaths [] s = setPaths [] s') :
    setPaths [] (handleStorage keccak256 a log s).1 =
        setPaths [] (handleStorage keccak256 a log s').1 ∧
      (handleStorage keccak256 a log s).2 = (handleStorage keccak256 a log s').2 := by
  have hs := handleStorage_setPaths keccak256 a log [] s
  rw [h, handleStorage_setPaths keccak256 a log [] s'] at hs
  exact ⟨(Prod.mk.inj hs).1.symm, (Prod.mk.inj hs).2.symm⟩

theorem step_setPaths (i : Nat) (log : StructLog) (s : MultiRecorderState) :
    let stepped := fun s =>
      step keccak256 registry initial contractAddress mainPath structLogs i log s
    setPaths [] (stepped (setPaths [] s)).1 = setPaths [] (stepped s).1 ∧
      dropTables (stepped (setPaths [] s)).2 = dropTables (stepped s).2 := by
  intro stepped
  let entered := enterDepth structLogs i log s
  let current := currentArtifacts registry initial contractAddress entered.frameStack
  obtain ⟨hstate, hevents⟩ := handleLocation_setPaths current mainPath structLogs i log []
    entered.pathsWithLineLengths entered
  obtain ⟨hstored, hwritten⟩ := handleStorage_congr keccak256 current log hstate
  have hentered := enterDepth_setPaths structLogs i log [] s
  dsimp only [stepped, step]
  rw [hentered]
  constructor
  · exact congrArg (fun t : MultiRecorderState => { t with prevDepth := log.depth }) hstored
  · rw [dropTables_append, dropTables_append, dropTables_append, dropTables_append,
      dropTables_append, dropTables_append]
    exact congrArg₂ (fun located stored => dropTables (depthEvents mainPath log s) ++
      located ++ stored ++ dropTables (specialEvents log)) hevents (congrArg dropTables hwritten)

/-- The loop body as far as it is not about line tables. -/
def stepWithoutTables (i : Nat) (log : StructLog) (s : MultiRecorderState) :
    MultiRecorderState × List TraceEvent :=
  let stepped := step keccak256 registry initial contractAddress mainPath structLogs i log s
  (setPaths [] stepped.1, dropTables stepped.2)

theorem run_withoutTables (s : MultiRecorderState) :
    let looped := Machine.run
      (step keccak256 registry initial contractAddress mainPath structLogs) 0 structLogs s
    Machine.run (stepWithoutTables keccak256 registry initial contractAddress mainPath structLogs)
        0 (structLogs.map id) (setPaths [] s) =
      (setPaths [] looped.1, dropTables looped.2) :=
  Machine.run_project (setPaths []) id notTable (fun i log s =>
    Prod.ext
      (step_setPaths keccak256 registry initial contractAddress mainPath structLogs i log s).1
      (step_setPaths keccak256 registry initial contractAddress mainPath structLogs i log s).2)
    structLogs 0 s

theorem events_independent (registered : List Path) :
    let recording := fun registered => recordFromStructlogMultiContract keccak256 registered
      registry contractAddress structLogs
    dropTables (recording registered).1 = dropTables (recording []).1 ∧
      (recording registered).2 = (recording []).2 := by
  intro recording
  dsimp only [recording, recordFromStructlogMultiContract]
  by_cases hempty : structLogs.isEmpty = true
  · rw [if_pos hempty, if_pos hempty]
    exact ⟨rfl, rfl⟩
  · rw [if_neg hempty, if_neg hempty]
    have hrun := fun registered => run_withoutTables keccak256 registry
      (initialArtifacts registry contractAddress) contractAddress
      (Recorder.mainPathOf (initialArtifacts registry contractAddress).sourcePaths) structLogs
      (initialState registered registry contractAddress)
    have hsame := (hrun registered).symm.trans (hrun [])
    constructor
    · rw [dropTables_append, dropTables_append, dropTables_preamble _ registered []]
      exact congrArg (_ ++ ·) (congrArg Prod.snd hsame)
    · exact congrArg (fun r => r.1.callTree) hsame

end MultiRecorder

/-! ## Sessions -/

namespace Session

variable (keccak256 : List UInt8 → U256)

theorem dropTables_perform (self : Session) (request : Request) (outputDir : Path) :
    dropTables (perform keccak256 self request).2 =
      dropTables (perform keccak256 (new outputDir) request).2 := by
  cases request with
  | recordFromStructlog structLogs sourceMap bytecode sourcePaths sourceContents layout ast =>
      exact Recorder.recordFromStructlog_independent keccak256 _ structLogs _
  | recordFromStructlogMultiContract structLogs registry contractAddress =>
      exact (MultiRecorder.events_independent keccak256 registry contractAddress structLogs _).1
  | registerRevert metadata reason => rfl

/-- A request, with the caches walked in these orders. -/
def performIn (orders : Nat → MapOrder) (self : Session) : Request → Session × List TraceEvent
  | .recordFromStructlog structLogs sourceMap bytecode sourcePaths sourceContents storageLayout
      solidityAst =>
      let a := Recorder.singleArtifacts sourceMap bytecode sourcePaths sourceContents
        storageLayout solidityAst
      let s := (Machine.run
        (Recorder.stepIn keccak256 a (Recorder.mainPathOf a.sourcePaths) structLogs orders) 0
        structLogs (Recorder.initialState self.pathsWithLineLengths a)).1
      (if structLogs.isEmpty then self
        else { self with pathsWithLineLengths := s.pathsWithLineLengths },
        recordFromStructlogIn orders keccak256 self.pathsWithLineLengths a structLogs)
  | .recordFromStructlogMultiContract structLogs registry contractAddress =>
      let s := (Machine.run
        (MultiRecorder.stepIn keccak256 registry contractAddress structLogs orders) 0 structLogs
        (MultiRecorder.initialState self.pathsWithLineLengths registry contractAddress)).1
      (if structLogs.isEmpty then self
        else { self with pathsWithLineLengths := s.pathsWithLineLengths },
        (recordFromStructlogMultiContractIn orders keccak256 self.pathsWithLineLengths registry
          contractAddress structLogs).1)
  | .registerRevert metadata reason => (self, [.registerSpecialEvent .error metadata reason])

/-- The requests one after another, each with orders of its own. -/
def performAllIn (orders : Nat → Nat → MapOrder) (self : Session) (requests : List Request) :
    Session × List TraceEvent :=
  Machine.run (fun k request self => performIn keccak256 (orders k) self request) 0 requests self

theorem performIn_upToOrder (orders : Nat → MapOrder) (self : Session) (request : Request) :
    UpToOrder (performIn keccak256 orders self request).2 (perform keccak256 self request).2 := by
  cases request with
  | recordFromStructlog structLogs sourceMap bytecode sourcePaths sourceContents layout ast =>
      exact recordFromStructlogIn_upToOrder orders keccak256 _ _ structLogs
  | recordFromStructlogMultiContract structLogs registry contractAddress =>
      exact (recordFromStructlogMultiContractIn_upToOrder orders keccak256 _ registry
        contractAddress structLogs).1
  | registerRevert metadata reason => exact .refl _

/-- **Recordings are independent.** Line tables aside, a recorder that has recorded
anything before answers a sequence of requests with what a new recorder answers to
each of them alone, in whatever orders either walks its caches. -/
theorem performAll_independent (orders orders' : Nat → Nat → MapOrder) (self : Session)
    (outputDir : Path) (requests : List Request) :
    UpToOrder (dropTables (performAllIn keccak256 orders self requests).2)
      (requests.zipIdx.flatMap fun e =>
        dropTables (performIn keccak256 (orders' e.2) (new outputDir) e.1).2) := by
  have hrequest : ∀ k self request,
      UpToOrder (dropTables (performIn keccak256 (orders k) self request).2)
        (dropTables (performIn keccak256 (orders' k) (new outputDir) request).2) := by
    intro k self request
    have hself := (performIn_upToOrder keccak256 (orders k) self request).dropTables
    have hnew := (performIn_upToOrder keccak256 (orders' k) (new outputDir) request).dropTables
    rw [dropTables_perform keccak256 self request outputDir] at hself
    exact hself.trans hnew.symm
  have hrun : ∀ (requests : List Request) (k : Nat) (self : Session),
      UpToOrder (dropTables (Machine.run
          (fun k request self => performIn keccak256 (orders k) self request) k requests self).2)
        ((requests.zipIdx k).flatMap fun e =>
          dropTables (performIn keccak256 (orders' e.2) (new outputDir) e.1).2) := by
    intro requests
    induction requests with
    | nil => exact fun _ _ => .nil
    | cons request rest ih =>
        intro k self
        rw [Machine.run, List.zipIdx_cons, List.flatMap_cons, dropTables_append]
        exact (hrequest k self request).append (ih (k + 1) _)
  exact hrun requests 0 self

end Session

end EvmRecorder
