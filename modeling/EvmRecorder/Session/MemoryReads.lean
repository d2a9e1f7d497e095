import EvmRecorder.Recorder.MappingSlots
import EvmRecorder.Model.MapOrders

/-!
# What the recordings show of memory

A structLog entry carries the whole memory of its frame. The recorders look at the
bytes that a hash, a log or a revert takes from it, and nowhere else: the memory
trackers they keep for every frame are fed with it, but nothing is read off them.
-/

namespace EvmRecorder

/-! ## §1  Traces that differ in memory only -/

/-- The opcodes whose bytes of memory are recorded. -/
def takesMemory (op : String) : Bool :=
  op = "KECCAK256" || op = "SHA3" || op = "REVERT" || startsWith op "LOG"

/-- The bytes such an opcode takes: the range given by the top of the stack, when the
snapshot captures it. -/
def takenBytes (log : StructLog) : Option (List UInt8) :=
  if takesMemory log.op then do
    let (offset, size) ← log.stack.bind topTwo
    let offset ← toUsize offset
    let size ← toUsize size
    memoryRange log.memory offset size
  else none

/-- Entries that differ in memory that is not taken. -/
structure SameTaken (log log' : StructLog) : Prop where
  pc : log.pc = log'.pc
  op : log.op = log'.op
  depth : log.depth = log'.depth
  stack : log.stack = log'.stack
  takenBytes : takenBytes log = takenBytes log'

variable {log log' : StructLog} {xs ys : List StructLog}

theorem SameTaken.eq (h : SameTaken log log') : log' = { log with memory := log'.memory } := by
  cases log
  cases log'
  obtain ⟨rfl, rfl, rfl, rfl, -⟩ := h
  rfl

/-- Taken or not, the ranges of a taking opcode agree. -/
theorem SameTaken.memoryRange (h : SameTaken log log') (htakes : takesMemory log.op = true)
    {stack : List U256} (hstack : log.stack = some stack) {offset size : U256}
    (htop : topTwo stack = some (offset, size)) {off sz : Nat} (hoffset : toUsize offset = some off)
    (hsize : toUsize size = some sz) :
    memoryRange log.memory off sz = EvmRecorder.memoryRange log'.memory off sz := by
  have htaken := h.takenBytes
  rw [EvmRecorder.takenBytes, EvmRecorder.takenBytes, ← h.op, ← h.stack, hstack, if_pos htakes,
    if_pos htakes] at htaken
  simpa only [Option.bind_eq_bind, Option.bind_some, htop, hoffset, hsize] using htaken

theorem SameTaken.keccakInput (h : SameTaken log log') :
    keccakInput log = EvmRecorder.keccakInput log' := by
  unfold EvmRecorder.keccakInput
  rw [← h.op, ← h.stack]
  by_cases hop : log.op = "KECCAK256" ∨ log.op = "SHA3"
  · rw [if_pos hop, if_pos hop]
    have htakes : takesMemory log.op = true := by
      rcases hop with hop | hop <;> rw [hop] <;> rfl
    cases hstack : log.stack with
    | none => rfl
    | some stack =>
        cases htop : topTwo stack with
        | none => simp only [Option.bind_eq_bind, Option.bind_some, htop, Option.bind_none]
        | some words =>
            obtain ⟨offset, size⟩ := words
            simp only [Option.bind_eq_bind, Option.bind_some, htop]
            by_cases hsize : size = 64
            · rw [if_pos hsize, if_pos hsize]
              cases hoffset : toUsize offset with
              | none => rfl
              | some off => exact h.memoryRange htakes hstack htop hoffset (by rw [hsize]; rfl)
            · rw [if_neg hsize, if_neg hsize]
  · rw [if_neg hop, if_neg hop]

theorem SameTaken.revertPayload (h : SameTaken log log') (hop : log.op = "REVERT") :
    decodeRevertOpcodePayload log.stack log.memory =
      decodeRevertOpcodePayload log'.stack log'.memory := by
  have htakes : takesMemory log.op = true := by
    rw [hop]
    rfl
  unfold decodeRevertOpcodePayload
  rw [← h.stack]
  cases hstack : log.stack with
  | none => rfl
  | some stack =>
      rw [Option.bind_some]
      cases htop : topTwo stack with
      | none => rfl
      | some words =>
          obtain ⟨offset, size⟩ := words
          dsimp only
          cases hoffset : toUsize offset with
          | none => rfl
          | some off =>
              cases hsize : toUsize size with
              | none => rfl
              | some sz =>
                  dsimp only
                  rw [h.memoryRange htakes hstack htop hoffset hsize]

theorem takesMemory_log {op : String} {digits : List Char}
    (h : Numeral.stripPrefix "LOG".toList op.toList = some digits) : takesMemory op = true := by
  have hstarts : startsWith op "LOG" = true := by
    rw [startsWith, Numeral.eq_append_of_stripPrefix h]
    exact List.isPrefixOf_iff_prefix.mpr (List.prefix_append _ _)
  rw [takesMemory, hstarts, Bool.or_true]

theorem SameTaken.logContent (h : SameTaken log log') :
    buildLogEventContent log.op log.stack log.memory =
      buildLogEventContent log'.op log'.stack log'.memory := by
  unfold buildLogEventContent
  rw [← h.op, ← h.stack]
  cases hdigits : Numeral.stripPrefix "LOG".toList log.op.toList with
  | none => rfl
  | some digits =>
      have htakes := takesMemory_log hdigits
      simp only [Option.bind_eq_bind, Option.bind_some]
      congr 1
      funext logNum
      split
      · rfl
      · cases hstack : log.stack with
        | none => rfl
        | some stack =>
            rw [Option.bind_some, Option.bind_some]
            split
            · rfl
            · cases htop : topTwo stack with
              | none => rfl
              | some words =>
                  obtain ⟨offset, size⟩ := words
                  rw [Option.bind_some, Option.bind_some]
                  dsimp only
                  cases hsize : toUsize size with
                  | none => rfl
                  | some sz =>
                      cases hoffset : toUsize offset with
                      | none => rfl
                      | some off =>
                          dsimp only
                          rw [h.memoryRange htakes hstack htop hoffset hsize]

/-- What is recorded of the opcode alone. -/
theorem SameTaken.specialEvents (h : SameTaken log log') :
    specialEvents log = EvmRecorder.specialEvents log' := by
  rw [EvmRecorder.specialEvents, EvmRecorder.specialEvents, h.logContent, h.op, h.stack]

/-! ## §2  What is read ahead and behind -/

/-- Of each place of such traces the same is read. -/
theorem getElem?_cases (h : List.Forall₂ SameTaken xs ys) : ∀ k : Nat,
    (xs[k]? = none ∧ ys[k]? = none) ∨
      ∃ log log', xs[k]? = some log ∧ ys[k]? = some log' ∧ SameTaken log log' := by
  induction h with
  | nil => exact fun k => .inl ⟨rfl, rfl⟩
  | cons hsame hrest ih =>
      intro k
      cases k with
      | zero => exact .inr ⟨_, _, rfl, rfl, hsame⟩
      | succ k => exact ih k

theorem bind_functionAtLog (a : Artifacts) (h : List.Forall₂ SameTaken xs ys) (k : Nat) :
    xs[k]?.bind (functionAtLog a) = ys[k]?.bind (functionAtLog a) := by
  rcases getElem?_cases h k with ⟨hx, hy⟩ | ⟨log, log', hx, hy, hsame⟩
  · rw [hx, hy]
  · rw [hx, hy, hsame.eq]
    rfl

theorem resolveInternalCallTarget_sameTaken (a : Artifacts) (h : List.Forall₂ SameTaken xs ys)
    (i : Nat) : resolveInternalCallTarget a xs i = resolveInternalCallTarget a ys i := by
  unfold resolveInternalCallTarget
  congr 1
  funext step
  exact bind_functionAtLog a h (i + step)

theorem enterInternalCall_sameTaken (a : Artifacts) (mainPath : Path)
    (h : List.Forall₂ SameTaken xs ys) (i : Nat) (hsame : SameTaken log log')
    (loc : SourceLocation) (tracker : StackTracker) :
    enterInternalCall a mainPath xs i log loc tracker =
      enterInternalCall a mainPath ys i log' loc tracker := by
  have htarget : internalCallTarget a xs i = internalCallTarget a ys i := by
    rw [internalCallTarget, internalCallTarget, resolveInternalCallTarget_sameTaken a h,
      resolveEnclosingFunctionForJump, resolveEnclosingFunctionForJump, bind_functionAtLog a h]
  have hname : ∀ target, internalCallName a xs i target = internalCallName a ys i target := by
    intro target
    unfold internalCallName
    rcases getElem?_cases h (i + 1) with ⟨hx, hy⟩ | ⟨next, next', hx, hy, hnext⟩
    · rw [hx, hy]
    · rw [hx, hy, hnext.eq]
      cases target
      · rfl
      · rfl
  rw [enterInternalCall, enterInternalCall, htarget, hname, hsame.stack]

/-! ## §3  The single-contract recorder -/

namespace Recorder

/-- The states agree up to what is in the memory trackers. -/
def SameButMemory (s s' : RecorderState) : Prop :=
  ∃ memoryTrackers, s' = { s with memoryTrackers := memoryTrackers }

variable (keccak256 : List UInt8 → U256) (a : Artifacts) (mainPath : Path) {s s' : RecorderState}

theorem depthEvents_sameTaken (h : List.Forall₂ SameTaken xs ys) (i : Nat)
    (hsame : SameTaken log log') (hs : SameButMemory s s') :
    depthEvents a mainPath xs i log s = depthEvents a mainPath ys i log' s' := by
  obtain ⟨memoryTrackers, rfl⟩ := hs
  have hcaught : revertCaught xs i s.prevDepth = revertCaught ys i s.prevDepth := by
    unfold revertCaught
    split_ifs
    · rcases getElem?_cases h (i - 1) with ⟨hx, hy⟩ | ⟨prev, prev', hx, hy, hprev⟩
      · rw [hx, hy]
      · rw [hx, hy]
        dsimp only
        rw [← hprev.depth, ← hprev.op]
        split_ifs with hreverted
        · rw [hprev.revertPayload hreverted.2]
        · rfl
    · rfl
  rw [depthEvents, depthEvents, hcaught, hsame.depth]

theorem handleJump_sameTaken (h : List.Forall₂ SameTaken xs ys) (i : Nat)
    (hsame : SameTaken log log') (loc : SourceLocation) (hs : SameButMemory s s') :
    SameButMemory (handleJump a mainPath xs i log loc s).1
        (handleJump a mainPath ys i log' loc s').1 ∧
      (handleJump a mainPath xs i log loc s).2 = (handleJump a mainPath ys i log' loc s').2 := by
  obtain ⟨memoryTrackers, rfl⟩ := hs
  unfold handleJump
  rw [← hsame.pc]
  split
  · unfold jumpInto
    dsimp only
    rw [enterInternalCall_sameTaken a mainPath h i hsame, hsame.depth,
      resolveInternalCallTarget_sameTaken a h]
    by_cases habsorbed : s.firstInternalCallAbsorbed = true
    · rw [if_pos habsorbed, if_pos habsorbed]
      exact ⟨⟨memoryTrackers, rfl⟩, rfl⟩
    · rw [if_neg habsorbed, if_neg habsorbed]
      exact ⟨⟨memoryTrackers, rfl⟩, rfl⟩
  · unfold jumpOutOf
    rw [hsame.depth]
    exact ⟨⟨memoryTrackers, rfl⟩, rfl⟩
  · exact ⟨⟨memoryTrackers, rfl⟩, rfl⟩

theorem handleLocation_sameTaken (h : List.Forall₂ SameTaken xs ys) (i : Nat)
    (hsame : SameTaken log log') (hs : SameButMemory s s') :
    SameButMemory (handleLocation a mainPath xs i log s).1
        (handleLocation a mainPath ys i log' s').1 ∧
      (handleLocation a mainPath xs i log s).2 = (handleLocation a mainPath ys i log' s').2 := by
  obtain ⟨memoryTrackers, rfl⟩ := hs
  have hpost : postStack xs i = postStack ys i := by
    rw [postStack, postStack]
    rcases getElem?_cases h (i + 1) with ⟨hx, hy⟩ | ⟨next, next', hx, hy, hnext⟩
    · rw [hx, hy]
    · rw [hx, hy, Option.bind_some, Option.bind_some, hnext.stack]
  unfold handleLocation
  rw [← hsame.pc]
  cases a.resolvePc log.pc with
  | none =>
      rw [hsame.eq]
      exact ⟨⟨memoryTrackers, rfl⟩, rfl⟩
  | some loc =>
      have hjump := fun s s' (hs : SameButMemory s s') =>
        handleJump_sameTaken a mainPath h i hsame loc hs
      dsimp only [atLocation, localsRead]
      rw [hpost]
      rw [hsame.eq] at hjump ⊢
      refine ⟨(hjump _ _ ⟨_, rfl⟩).1, ?_⟩
      rw [(hjump _ _ ⟨_, rfl⟩).2]
      rfl

theorem handleStorage_sameTaken (hsame : SameTaken log log') (hs : SameButMemory s s') :
    SameButMemory (handleStorage keccak256 a log s).1 (handleStorage keccak256 a log' s').1 ∧
      (handleStorage keccak256 a log s).2 = (handleStorage keccak256 a log' s').2 := by
  obtain ⟨memoryTrackers, rfl⟩ := hs
  unfold handleStorage recordMappingSlot storageWrite
  rw [← hsame.keccakInput, ← hsame.op, ← hsame.stack]
  dsimp only
  split
  · exact ⟨⟨memoryTrackers, rfl⟩, rfl⟩
  · exact ⟨⟨memoryTrackers, rfl⟩, rfl⟩

theorem step_sameTaken (h : List.Forall₂ SameTaken xs ys) (i : Nat) (hsame : SameTaken log log')
    (hs : SameButMemory s s') :
    SameButMemory (step keccak256 a mainPath xs i log s).1
        (step keccak256 a mainPath ys i log' s').1 ∧
      (step keccak256 a mainPath xs i log s).2 = (step keccak256 a mainPath ys i log' s').2 := by
  have hentered : SameButMemory (enterDepth log s) (enterDepth log' s') := by
    obtain ⟨memoryTrackers, rfl⟩ := hs
    rw [hsame.eq]
    exact ⟨_, rfl⟩
  obtain ⟨hlocated, hmoved⟩ := handleLocation_sameTaken a mainPath h i hsame hentered
  obtain ⟨hstored, hwritten⟩ := handleStorage_sameTaken keccak256 a hsame hlocated
  constructor
  · obtain ⟨memoryTrackers, heq⟩ := hstored
    refine ⟨memoryTrackers, ?_⟩
    dsimp only [step]
    rw [heq, hsame.depth]
  · dsimp only [step]
    rw [depthEvents_sameTaken a mainPath h i hsame hs, hmoved, hwritten, hsame.specialEvents]

end Recorder

/-! ## §4  The multi-contract recorder -/

namespace MultiRecorder

/-- The states agree up to what is in the memory trackers. -/
def SameButMemory (s s' : MultiRecorderState) : Prop :=
  ∃ memoryTrackers, s' = { s with memoryTrackers := memoryTrackers }

variable (keccak256 : List UInt8 → U256) (a : Artifacts) (mainPath : Path)
  {s s' : MultiRecorderState}

theorem SameButMemory.callTree (hs : SameButMemory s s') : s.callTree = s'.callTree := by
  obtain ⟨memoryTrackers, rfl⟩ := hs
  rfl

theorem enterDepth_sameTaken (h : List.Forall₂ SameTaken xs ys) (i : Nat)
    (hsame : SameTaken log log') (hs : SameButMemory s s') :
    SameButMemory (enterDepth xs i log s) (enterDepth ys i log' s') := by
  obtain ⟨memoryTrackers, rfl⟩ := hs
  have hentered : ∀ frameStack, enteredFrame frameStack (prevLogOf xs i) =
      enteredFrame frameStack (prevLogOf ys i) := by
    intro frameStack
    unfold prevLogOf
    split_ifs
    · rcases getElem?_cases h (i - 1) with ⟨hx, hy⟩ | ⟨prev, prev', hx, hy, hprev⟩
      · rw [hx, hy]
      · rw [hx, hy, hprev.eq]
        rfl
    · rfl
  unfold enterDepth enterFrame leaveFrames
  rw [hsame.depth]
  dsimp only
  rw [hentered]
  split_ifs
  · exact ⟨_, rfl⟩
  · exact ⟨_, rfl⟩
  · exact ⟨_, rfl⟩

theorem handleJump_sameTaken (h : List.Forall₂ SameTaken xs ys) (i : Nat)
    (hsame : SameTaken log log') (loc : SourceLocation) (hs : SameButMemory s s') :
    SameButMemory (handleJump mainPath xs a i log loc s).1
        (handleJump mainPath ys a i log' loc s').1 ∧
      (handleJump mainPath xs a i log loc s).2 = (handleJump mainPath ys a i log' loc s').2 := by
  obtain ⟨memoryTrackers, rfl⟩ := hs
  unfold handleJump
  rw [← hsame.pc]
  split
  · dsimp only
    rw [enterInternalCall_sameTaken a mainPath h i hsame, hsame.depth]
    exact ⟨⟨memoryTrackers, rfl⟩, rfl⟩
  · rw [hsame.depth]
    exact ⟨⟨memoryTrackers, rfl⟩, rfl⟩
  · exact ⟨⟨memoryTrackers, rfl⟩, rfl⟩

theorem handleLocation_sameTaken (h : List.Forall₂ SameTaken xs ys) (i : Nat)
    (hsame : SameTaken log log') (hs : SameButMemory s s') :
    SameButMemory (handleLocation mainPath xs a i log s).1
        (handleLocation mainPath ys a i log' s').1 ∧
      (handleLocation mainPath xs a i log s).2 = (handleLocation mainPath ys a i log' s').2 := by
  obtain ⟨memoryTrackers, rfl⟩ := hs
  unfold handleLocation
  rw [← hsame.pc]
  cases a.resolvePc log.pc with
  | none =>
      rw [hsame.eq]
      exact ⟨⟨memoryTrackers, rfl⟩, rfl⟩
  | some loc =>
      have hjump := fun s s' (hs : SameButMemory s s') =>
        handleJump_sameTaken a mainPath h i hsame loc hs
      dsimp only [atLocation, localsRead]
      rw [hsame.eq] at hjump ⊢
      refine ⟨(hjump _ _ ⟨_, rfl⟩).1, ?_⟩
      rw [(hjump _ _ ⟨_, rfl⟩).2]
      rfl

theorem handleStorage_sameTaken (hsame : SameTaken log log') (hs : SameButMemory s s') :
    SameButMemory (handleStorage keccak256 a log s).1 (handleStorage keccak256 a log' s').1 ∧
      (handleStorage keccak256 a log s).2 = (handleStorage keccak256 a log' s').2 := by
  obtain ⟨memoryTrackers, rfl⟩ := hs
  unfold handleStorage nameMappingSlots recordMappingSlot storageWrite
  rw [← hsame.keccakInput, ← hsame.op, ← hsame.stack, ← hsame.depth]
  dsimp only
  split
  · exact ⟨⟨memoryTrackers, rfl⟩, rfl⟩
  · exact ⟨⟨memoryTrackers, rfl⟩, rfl⟩

theorem stepOf_sameTaken (registry : ContractRegistry) (contractAddress : Address)
    (h : List.Forall₂ SameTaken xs ys) (i : Nat) (hsame : SameTaken log log')
    (hs : SameButMemory s s') :
    SameButMemory (stepOf keccak256 registry contractAddress xs i log s).1
        (stepOf keccak256 registry contractAddress ys i log' s').1 ∧
      (stepOf keccak256 registry contractAddress xs i log s).2 =
        (stepOf keccak256 registry contractAddress ys i log' s').2 := by
  let initial := initialArtifacts registry contractAddress
  let mainPath := Recorder.mainPathOf initial.sourcePaths
  have hentered := enterDepth_sameTaken h i hsame hs
  let current := currentArtifacts registry initial contractAddress
    (enterDepth xs i log s).frameStack
  obtain ⟨hlocated, hmoved⟩ := handleLocation_sameTaken current mainPath h i hsame hentered
  obtain ⟨hstored, hwritten⟩ := handleStorage_sameTaken keccak256 current hsame hlocated
  have hcurrent : currentArtifacts registry initial contractAddress
      (enterDepth ys i log' s').frameStack = current := by
    obtain ⟨memoryTrackers, heq⟩ := hentered
    rw [heq]
  have hdepth : depthEvents mainPath log s = depthEvents mainPath log' s' := by
    obtain ⟨memoryTrackers, rfl⟩ := hs
    rw [depthEvents, depthEvents, hsame.depth]
  unfold stepOf step
  dsimp only
  rw [hcurrent]
  constructor
  · obtain ⟨memoryTrackers, heq⟩ := hstored
    refine ⟨memoryTrackers, ?_⟩
    rw [heq, hsame.depth]
  · rw [hdepth, hmoved, hwritten, hsame.specialEvents]

end MultiRecorder

/-! ## §5  Recordings -/

/-- Traces that agree in everything but memory that is not taken are recorded alike. -/
theorem recordings_eq_of_sameTaken (keccak256 : List UInt8 → U256) (registered : List Path)
    (h : List.Forall₂ SameTaken xs ys) :
    (∀ a : Artifacts,
      recordFromStructlog keccak256 registered a xs =
        recordFromStructlog keccak256 registered a ys) ∧
    (∀ (registry : ContractRegistry) (contractAddress : Address),
      recordFromStructlogMultiContract keccak256 registered registry contractAddress xs =
        recordFromStructlogMultiContract keccak256 registered registry contractAddress ys) := by
  have hempty : xs.isEmpty = ys.isEmpty := by
    cases h
    · rfl
    · rfl
  have hpairs : ∀ (k : Nat) log log', xs[k]? = some log → ys[k]? = some log' → SameTaken log log' := by
    intro k log log' hlog hlog'
    rcases getElem?_cases h k with ⟨hx, -⟩ | ⟨log₁, log₂, hx, hy, hsame⟩
    · rw [hx] at hlog
      cases hlog
    · rw [hx] at hlog
      rw [hy] at hlog'
      cases hlog
      cases hlog'
      exact hsame
  constructor
  · intro a
    have hrun := Machine.run_simulate_inputs (R := Recorder.SameButMemory)
      (P := fun _ => SameTaken)
      (fun i log log' s s' hsame hs => Recorder.step_sameTaken keccak256 a
        (Recorder.mainPathOf a.sourcePaths) h i hsame hs)
      xs ys 0 (Recorder.initialState registered a) (Recorder.initialState registered a)
      h.length_eq hpairs ⟨[], rfl⟩
    rw [recordFromStructlog, recordFromStructlog, hempty, hrun.2]
  · intro registry contractAddress
    have hrun := Machine.run_simulate_inputs (R := MultiRecorder.SameButMemory)
      (P := fun _ => SameTaken)
      (fun i log log' s s' hsame hs => MultiRecorder.stepOf_sameTaken keccak256 registry
        contractAddress h i hsame hs)
      xs ys 0 (MultiRecorder.initialState registered registry contractAddress)
      (MultiRecorder.initialState registered registry contractAddress) h.length_eq hpairs
      ⟨[], rfl⟩
    obtain ⟨hstate, hevents⟩ := hrun
    rw [recordFromStructlogMultiContract, recordFromStructlogMultiContract, hempty]
    dsimp only
    rw [hevents, hstate.callTree]

/-- **What is read of memory.** Traces that agree in everything but memory, and in the
bytes of memory that a hash, a log or a revert takes, are recorded alike by either
recorder, in whatever orders the caches are walked, with the same call tree. -/
theorem recordings_sameTaken (keccak256 : List UInt8 → U256) (registered : List Path)
    (orders orders' : Nat → MapOrder) (h : List.Forall₂ SameTaken xs ys) :
    (∀ a : Artifacts,
      UpToOrder (recordFromStructlogIn orders keccak256 registered a xs)
        (recordFromStructlogIn orders' keccak256 registered a ys)) ∧
    (∀ (registry : ContractRegistry) (contractAddress : Address),
      UpToOrder
          (recordFromStructlogMultiContractIn orders keccak256 registered registry contractAddress
            xs).1
          (recordFromStructlogMultiContractIn orders' keccak256 registered registry
            contractAddress ys).1 ∧
        (recordFromStructlogMultiContractIn orders keccak256 registered registry contractAddress
            xs).2 =
          (recordFromStructlogMultiContractIn orders' keccak256 registered registry
            contractAddress ys).2) := by
  obtain ⟨hsingle, hmulti⟩ := recordings_eq_of_sameTaken keccak256 registered h
  constructor
  · intro a
    have hwalked := recordFromStructlogIn_upToOrder orders keccak256 registered a xs
    rw [hsingle a] at hwalked
    exact hwalked.trans (recordFromStructlogIn_upToOrder orders' keccak256 registered a ys).symm
  · intro registry contractAddress
    obtain ⟨hwalked, htree⟩ := recordFromStructlogMultiContractIn_upToOrder orders keccak256
      registered registry contractAddress xs
    obtain ⟨hwalked', htree'⟩ := recordFromStructlogMultiContractIn_upToOrder orders' keccak256
      registered registry contractAddress ys
    rw [hmulti registry contractAddress] at hwalked htree
    exact ⟨hwalked.trans hwalked'.symm, htree.trans htree'.symm⟩

/-- `grid[1]` is hashed and written, then its key is logged; `unused` is the third word of
memory. -/
def rowWrite (unused : U256) : List StructLog :=
  let memory := some ([1, 0, unused].map fun w => String.ofList (Bytes.hexBytes (Bytes.wordBytes w)))
  [{ pc := 0, op := "KECCAK256", depth := 1, stack := some [64, 0], memory },
    { pc := 1, op := "SSTORE", depth := 1, stack := some [7, gridRow], memory },
    { pc := 2, op := "LOG0", depth := 1, stack := some [32, 0], memory }]

/-- What is shown of a write and of a log. -/
def shownText : TraceEvent → Option String
  | .registerVariableWithFullValue name _ => some name
  | .registerSpecialEvent _ _ content => some content
  | _ => none

/-- Beyond the bytes that are hashed and logged, memory may differ. -/
theorem recordings_sameTaken_row :
    (recordFromStructlogIn (fun _ => .listed) sampleKeccak [] { storageLayout := some gridLayout }
        (rowWrite 3)).filterMap shownText =
      ["grid[0x1]", "0x0000000000000000000000000000000000000000000000000000000000000001"] ∧
    UpToOrder
      (recordFromStructlogIn (fun _ => .listed) sampleKeccak []
        { storageLayout := some gridLayout } (rowWrite 3))
      (recordFromStructlogIn (fun _ => .reversed) sampleKeccak []
        { storageLayout := some gridLayout } (rowWrite 4)) := by
  have hsame : List.Forall₂ SameTaken (rowWrite 3) (rowWrite 4) :=
    .cons ⟨rfl, rfl, rfl, rfl, by decide +kernel⟩ (.cons ⟨rfl, rfl, rfl, rfl, by decide +kernel⟩
      (.cons ⟨rfl, rfl, rfl, rfl, by decide +kernel⟩ .nil))
  exact ⟨by decide +kernel, (recordings_sameTaken sampleKeccak [] (fun _ => .listed)
    (fun _ => .reversed) hsame).1 _⟩

end EvmRecorder
