import EvmRecorder.MultiRecorder.Destuttering
import EvmRecorder.MultiRecorder.Lockstep
import EvmRecorder.Session.Independence
import EvmRecorder.Session.Online

/-!
# Callees

The multi-contract recorder keeps something for every open frame, but at a log it
reads what it keeps for the executing frame only, and of a caller only the frame
context. So the logs of a callee, with all it calls in turn, are recorded the same
way whoever has made the call and whatever happened before.
-/

namespace EvmRecorder.MultiRecorder

open Levels Stack

/-! ## §1  States that agree above a level -/

/-- The states agree on the frames above level `d`. -/
structure SameAbove (d : Nat) (s s' : MultiRecorderState) : Prop where
  prevLine : s.prevLine = s'.prevLine
  frameStack : s.frameStack.drop d = s'.frameStack.drop d
  stackTrackers : s.stackTrackers.drop d = s'.stackTrackers.drop d
  memoryTrackers : s.memoryTrackers.drop d = s'.memoryTrackers.drop d
  storageStates : s.storageStates.drop d = s'.storageStates.drop d
  slotValuesPerFrame : s.slotValuesPerFrame.drop d = s'.slotValuesPerFrame.drop d
  mappingSlotNamesPerFrame :
    s.mappingSlotNamesPerFrame.drop d = s'.mappingSlotNamesPerFrame.drop d

/-- Before a log of the callee: both frames at level `d` have just made a call, or the
callee is at work in both. -/
structure SameCallee (d : Nat) (s s' : MultiRecorderState) : Prop where
  prevDepth : s.prevDepth = s'.prevDepth
  above : d ≤ s.prevDepth
  same : s.prevDepth = d ∨ SameAbove d s s'

section Depth

variable {xs ys : List StructLog} {i j d : Nat} {log : StructLog} {s s' : MultiRecorderState}

theorem Tracked.drop_resize {α : Type} {p : Nat} {x : α} {trackers : List α}
    (h : Tracked p trackers) (hd : d ≤ log.depth) (hp : d ≤ p) :
    (resize log.depth x trackers).drop d = resize (log.depth - d) x (trackers.drop d) := by
  rcases h with rfl | hlen
  · rw [resize, resize, growTo, growTo]
    simp
  · exact Levels.drop_resize hd (by rw [hlen]; exact hp)

/-- Nothing is above the level of a frame that has just made a call. -/
theorem SameCallee.drop {α : Type} (field : MultiRecorderState → List α)
    (h : SameCallee d s s') (hlen : (field s).length ≤ s.prevDepth)
    (hlen' : (field s').length ≤ s.prevDepth)
    (hsame : SameAbove d s s' → (field s).drop d = (field s').drop d) :
    (field s).drop d = (field s').drop d := by
  rcases h.same with hbase | habove
  · rw [List.drop_eq_nil_of_le (hbase ▸ hlen), List.drop_eq_nil_of_le (hbase ▸ hlen')]
  · exact hsame habove

theorem Tracked.length_le {α : Type} {p : Nat} {trackers : List α} (h : Tracked p trackers) :
    trackers.length ≤ p := by
  rcases h with rfl | hlen
  · exact Nat.zero_le p
  · exact hlen.le

/-- Frames are entered and left alike. -/
theorem SameCallee.enterDepth (h : SameCallee d s s') (hbefore : EntriesBefore xs i s)
    (hbefore' : EntriesBefore ys j s') (hlegal : LegalDepths (xs.map (·.depth)))
    (hlog : xs[i]? = some log) (hdeep : d < log.depth)
    (hentered : s.prevDepth < log.depth →
      (enteredFrame s.frameStack (prevLogOf xs i)).1 =
        (enteredFrame s'.frameStack (prevLogOf ys j)).1) :
    SameAbove d (MultiRecorder.enterDepth xs i log s) (MultiRecorder.enterDepth ys j log s') := by
  obtain ⟨hpos, hrise⟩ := hlegal.rise hbefore.depth (getElem?_depths hlog)
  have hprev := h.prevDepth
  have hresized := resized_enterDepth xs (i := i) hbefore.lockstep hpos hrise
  have hresized' := resized_enterDepth ys (i := j) hbefore'.lockstep hpos (hprev ▸ hrise)
  have hlock := hbefore.lockstep
  have hlock' := hprev ▸ hbefore'.lockstep
  have hstack := hbefore'.stackTrackers
  have hmemory := hbefore'.memoryTrackers
  rw [← hprev] at hstack hmemory
  have hle := h.above
  constructor
  · rw [prevLine_enterDepth, prevLine_enterDepth, ← hprev]
    rcases h.same with hbase | habove
    · rw [if_neg (by omega), if_neg (by omega)]
    · rw [habove.prevLine]
  · rw [hresized.frameStack, hresized'.frameStack]
    refine drop_resize_congr hdeep.le (by rw [hlock.frameStack]; exact hle)
      (by rw [hlock'.frameStack]; exact hle) (fun hnew => hentered ?_) ?_
    · rwa [hlock.frameStack] at hnew
    · exact h.drop (·.frameStack) hlock.frameStack.le hlock'.frameStack.le (·.frameStack)
  · rw [stackTrackers_enterDepth xs hbefore.stackTrackers,
      stackTrackers_enterDepth ys hbefore'.stackTrackers,
      hbefore.stackTrackers.drop_resize hdeep.le hle, hstack.drop_resize hdeep.le hle,
      h.drop (·.stackTrackers) hbefore.stackTrackers.length_le hstack.length_le (·.stackTrackers)]
  · rw [memoryTrackers_enterDepth xs hbefore.memoryTrackers,
      memoryTrackers_enterDepth ys hbefore'.memoryTrackers,
      hbefore.memoryTrackers.drop_resize hdeep.le hle, hmemory.drop_resize hdeep.le hle,
      h.drop (·.memoryTrackers) hbefore.memoryTrackers.length_le hmemory.length_le
        (·.memoryTrackers)]
  · rw [hresized.storageStates, hresized'.storageStates]
    exact drop_resize_congr hdeep.le (by rw [hlock.storageStates]; exact hle)
      (by rw [hlock'.storageStates]; exact hle) (fun _ => rfl)
      (h.drop (·.storageStates) hlock.storageStates.le hlock'.storageStates.le (·.storageStates))
  · rw [hresized.slotValuesPerFrame, hresized'.slotValuesPerFrame]
    exact drop_resize_congr hdeep.le (by rw [hlock.slotValuesPerFrame]; exact hle)
      (by rw [hlock'.slotValuesPerFrame]; exact hle) (fun _ => rfl)
      (h.drop (·.slotValuesPerFrame) hlock.slotValuesPerFrame.le hlock'.slotValuesPerFrame.le
        (·.slotValuesPerFrame))
  · rw [hresized.mappingSlotNamesPerFrame, hresized'.mappingSlotNamesPerFrame]
    exact drop_resize_congr hdeep.le (by rw [hlock.mappingSlotNamesPerFrame]; exact hle)
      (by rw [hlock'.mappingSlotNamesPerFrame]; exact hle) (fun _ => rfl)
      (h.drop (·.mappingSlotNamesPerFrame) hlock.mappingSlotNamesPerFrame.le
        hlock'.mappingSlotNamesPerFrame.le (·.mappingSlotNamesPerFrame))

theorem SameAbove.getLast? (h : SameAbove d s s') (hlen : d < s.frameStack.length)
    (hlen' : d < s'.frameStack.length) : s.frameStack.getLast? = s'.frameStack.getLast? := by
  have hdrop := congrArg List.getLast? h.frameStack
  rwa [List.getLast?_drop, List.getLast?_drop, if_neg hlen.not_ge, if_neg hlen'.not_ge] at hdrop

/-- The executing contract is that of the innermost frame. -/
theorem SameAbove.artifactsOn (h : SameAbove d s s') (registry : ContractRegistry)
    (contractAddress : Address) (hlen : d < s.frameStack.length)
    (hlen' : d < s'.frameStack.length) :
    artifactsOn registry contractAddress s.frameStack =
      artifactsOn registry contractAddress s'.frameStack := by
  simp only [MultiRecorder.artifactsOn, currentArtifacts, h.getLast? hlen hlen']

end Depth

/-! ## §2  One log -/

section Log

variable (keccak256 : List UInt8 → U256) (mainPath : Path) (a : Artifacts)
  {xs ys : List StructLog} {i j d : Nat} {log : StructLog} {s s' : MultiRecorderState}

theorem SameAbove.handleJump (h : SameAbove d s s') (hdeep : d < log.depth)
    (hahead : SameAhead xs ys i j) (loc : SourceLocation) :
    SameAbove d (handleJump mainPath xs a i log loc s).1
        (MultiRecorder.handleJump mainPath ys a j log loc s').1 ∧
      (MultiRecorder.handleJump mainPath xs a i log loc s).2 =
        (MultiRecorder.handleJump mainPath ys a j log loc s').2 := by
  unfold MultiRecorder.handleJump
  split
  · have htracker := atLevel_congr_drop hdeep .new h.stackTrackers
    dsimp only
    rw [enterInternalCall_congr a mainPath log loc _ hahead, htracker]
    exact ⟨{ h with stackTrackers := drop_setLevel_congr hdeep rfl h.stackTrackers }, rfl⟩
  · exact ⟨{ h with stackTrackers := drop_setLevel_congr hdeep rfl h.stackTrackers }, rfl⟩
  · exact ⟨h, rfl⟩

theorem SameAbove.trackedStack (h : SameAbove d s s') (hdeep : d < log.depth)
    (loc : Option SourceLocation) :
    MultiRecorder.trackedStack a log loc s = MultiRecorder.trackedStack a log loc s' := by
  rw [MultiRecorder.trackedStack, MultiRecorder.trackedStack,
    atLevel_congr_drop hdeep .new h.stackTrackers]

theorem SameAbove.handleLocation (h : SameAbove d s s') (hdeep : d < log.depth)
    (hahead : SameAhead xs ys i j) :
    SameAbove d (handleLocation mainPath xs a i log s).1
        (MultiRecorder.handleLocation mainPath ys a j log s').1 ∧
      dropTables (MultiRecorder.handleLocation mainPath xs a i log s).2 =
        dropTables (MultiRecorder.handleLocation mainPath ys a j log s').2 := by
  unfold MultiRecorder.handleLocation
  cases a.resolvePc log.pc with
  | none =>
      have htracked := h.trackedStack a hdeep none
      exact ⟨{ h with stackTrackers := drop_setLevel_congr hdeep htracked h.stackTrackers }, rfl⟩
  | some loc =>
      have htracked := h.trackedStack a hdeep (some loc)
      have hmemory := atLevel_congr_drop hdeep .new h.memoryTrackers
      have hcaches := atLevel_congr_drop hdeep ∅ h.storageStates
      have hlocated : ∀ paths paths', SameAbove d (setPaths paths (located a log loc s))
          (setPaths paths' (located a log loc s')) := fun _ _ =>
        ⟨rfl, h.frameStack, drop_setLevel_congr hdeep htracked h.stackTrackers,
          drop_setLevel_congr hdeep (congrArg _ hmemory) h.memoryTrackers, h.storageStates,
          h.slotValuesPerFrame, h.mappingSlotNamesPerFrame⟩
      have hjumped := (hlocated (emitStep a mainPath s.pathsWithLineLengths s.prevLine loc
          (atLevel log.depth ∅ s.storageStates)).1
        (emitStep a mainPath s'.pathsWithLineLengths s'.prevLine loc
          (atLevel log.depth ∅ s'.storageStates)).1).handleJump mainPath a hdeep hahead loc
      have hsteps : dropTables (emitStep a mainPath s.pathsWithLineLengths s.prevLine loc
            (atLevel log.depth ∅ s.storageStates)).2 =
          dropTables (emitStep a mainPath s'.pathsWithLineLengths s'.prevLine loc
            (atLevel log.depth ∅ s'.storageStates)).2 := by
        rw [h.prevLine, hcaches]
        exact dropTables_emitStep a mainPath _ _ _ _ _
      have hlocals : localsRead a log loc s = localsRead a log loc s' := by
        rw [localsRead, localsRead, htracked]
      exact ⟨hjumped.1, dropTables_blocks hsteps (congrArg (dropTables <| localEvents ·) hlocals)
        (congrArg dropTables hjumped.2)⟩

theorem SameAbove.nameMappingSlots (h : SameAbove d s s') (hdeep : d < log.depth)
    (hlock : Lockstep log.depth s) (hlock' : Lockstep log.depth s') :
    (nameMappingSlots keccak256 a log s.mappingSlotNamesPerFrame).drop d =
      (MultiRecorder.nameMappingSlots keccak256 a log s'.mappingSlotNamesPerFrame).drop d := by
  unfold MultiRecorder.nameMappingSlots
  rw [growTo_of_le hlock.mappingSlotNamesPerFrame.ge,
    growTo_of_le hlock'.mappingSlotNamesPerFrame.ge,
    atLevel_congr_drop hdeep ∅ h.mappingSlotNamesPerFrame]
  split
  · exact drop_setLevel_congr hdeep rfl h.mappingSlotNamesPerFrame
  · exact h.mappingSlotNamesPerFrame

theorem SameAbove.handleStorage (h : SameAbove d s s') (hdeep : d < log.depth)
    (hlock : Lockstep log.depth s) (hlock' : Lockstep log.depth s') :
    SameAbove d (handleStorage keccak256 a log s).1
        (MultiRecorder.handleStorage keccak256 a log s').1 ∧
      (MultiRecorder.handleStorage keccak256 a log s).2 =
        (MultiRecorder.handleStorage keccak256 a log s').2 := by
  have hnames := h.nameMappingSlots keccak256 a hdeep hlock hlock'
  unfold MultiRecorder.handleStorage
  dsimp only
  rw [growTo_of_le hlock.storageStates.ge, growTo_of_le hlock'.storageStates.ge,
    growTo_of_le hlock.slotValuesPerFrame.ge, growTo_of_le hlock'.slotValuesPerFrame.ge,
    atLevel_congr_drop hdeep ∅ hnames, atLevel_congr_drop hdeep ∅ h.storageStates,
    atLevel_congr_drop hdeep ∅ h.slotValuesPerFrame]
  split
  · exact ⟨{ h with
      storageStates := drop_setLevel_congr hdeep rfl h.storageStates
      slotValuesPerFrame := drop_setLevel_congr hdeep rfl h.slotValuesPerFrame
      mappingSlotNamesPerFrame := hnames }, rfl⟩
  · exact ⟨{ h with mappingSlotNamesPerFrame := hnames }, rfl⟩

end Log

/-! ## §3  A callee's logs -/

section Runs

variable (keccak256 : List UInt8 → U256) (registered : List Path) (registry : ContractRegistry)
  (contractAddress : Address)

/-- The events issued from log `j` on, before log `k`. -/
def eventsDuring (structLogs : List StructLog) (j k : Nat) : List TraceEvent :=
  (eventsBefore keccak256 registered registry contractAddress structLogs k).drop
    (eventsBefore keccak256 registered registry contractAddress structLogs j).length

/-- The context of the frame that log `k` enters. -/
def frameEnteredAt (structLogs : List StructLog) (k : Nat) : FrameContext :=
  (enteredFrame (stateBefore keccak256 registered registry contractAddress structLogs k).frameStack
    (prevLogOf structLogs k)).1

theorem eventsDuring_zero (structLogs : List StructLog) (j : Nat) :
    eventsDuring keccak256 registered registry contractAddress structLogs j j = [] := by
  rw [eventsDuring, List.drop_length]

theorem isPrefix_eventsBefore (structLogs : List StructLog) (j : Nat) : ∀ n,
    j + n ≤ structLogs.length →
      eventsBefore keccak256 registered registry contractAddress structLogs j <+:
        eventsBefore keccak256 registered registry contractAddress structLogs (j + n)
  | 0, _ => List.prefix_refl _
  | n + 1, hn => by
      have hlt : j + n < structLogs.length := Nat.lt_of_succ_le hn
      rw [← Nat.add_assoc, eventsBefore_succ keccak256 registered registry contractAddress
        structLogs (List.getElem?_eq_getElem hlt)]
      exact (isPrefix_eventsBefore structLogs j n hlt.le).trans (List.prefix_append _ _)

theorem eventsDuring_succ (structLogs : List StructLog) {j n : Nat} {log : StructLog}
    (hlog : structLogs[j + n]? = some log) :
    eventsDuring keccak256 registered registry contractAddress structLogs j (j + (n + 1)) =
      eventsDuring keccak256 registered registry contractAddress structLogs j (j + n) ++
        (stepOf keccak256 registry contractAddress structLogs (j + n) log
          (stateBefore keccak256 registered registry contractAddress structLogs (j + n))).2 := by
  have hpre := isPrefix_eventsBefore keccak256 registered registry contractAddress structLogs j n
    (List.getElem?_eq_some_iff.mp hlog).1.le
  rw [eventsDuring, ← Nat.add_assoc, eventsBefore_succ keccak256 registered registry
    contractAddress structLogs hlog, List.drop_append_of_le_length hpre.length_le]
  rfl

/-- The loop body, when the artifacts of the executing frame are known. -/
def stepWith (a : Artifacts) (structLogs : List StructLog) (i : Nat) (log : StructLog)
    (s : MultiRecorderState) : MultiRecorderState × List TraceEvent :=
  let mainPath := Recorder.mainPathOf (initialArtifacts registry contractAddress).sourcePaths
  let located := handleLocation mainPath structLogs a i log (enterDepth structLogs i log s)
  let stored := handleStorage keccak256 a log located.1
  ({ stored.1 with prevDepth := log.depth },
    depthEvents mainPath log s ++ located.2 ++ stored.2 ++ specialEvents log)

theorem SameAbove.enteredFrame {d : Nat} {s s' : MultiRecorderState} (h : SameAbove d s s')
    (hlen : d < s.frameStack.length) (hlen' : d < s'.frameStack.length)
    (prevLog : Option StructLog) :
    enteredFrame s.frameStack prevLog = MultiRecorder.enteredFrame s'.frameStack prevLog := by
  simp only [MultiRecorder.enteredFrame, h.getLast? hlen hlen']

/-- A log of the callee is recorded alike. -/
theorem SameCallee.stepOf {xs ys : List StructLog} {i j d : Nat} {log : StructLog}
    {s s' : MultiRecorderState} (h : SameCallee d s s') (hbefore : EntriesBefore xs i s)
    (hbefore' : EntriesBefore ys j s') (hlegal : LegalDepths (xs.map (·.depth)))
    (hlegal' : LegalDepths (ys.map (·.depth))) (hlog : xs[i]? = some log)
    (hlog' : ys[j]? = some log) (hdeep : d < log.depth) (hahead : SameAhead xs ys i j)
    (hentered : s.prevDepth < log.depth →
      (MultiRecorder.enteredFrame s.frameStack (prevLogOf xs i)).1 =
        (MultiRecorder.enteredFrame s'.frameStack (prevLogOf ys j)).1) :
    SameCallee d (stepOf keccak256 registry contractAddress xs i log s).1
        (MultiRecorder.stepOf keccak256 registry contractAddress ys j log s').1 ∧
      dropTables (MultiRecorder.stepOf keccak256 registry contractAddress xs i log s).2 =
        dropTables (MultiRecorder.stepOf keccak256 registry contractAddress ys j log s').2 := by
  have hlock := (hbefore.enterDepth hlegal hlog).lockstep
  have hlock' := (hbefore'.enterDepth hlegal' hlog').lockstep
  have hsame := h.enterDepth hbefore hbefore' hlegal hlog hdeep hentered
  have hartifacts := hsame.artifactsOn registry contractAddress
    (by rw [hlock.frameStack]; exact hdeep) (by rw [hlock'.frameStack]; exact hdeep)
  let mainPath := Recorder.mainPathOf (initialArtifacts registry contractAddress).sourcePaths
  let a := MultiRecorder.artifactsOn registry contractAddress
    (MultiRecorder.enterDepth xs i log s).frameStack
  have hstep' : MultiRecorder.stepOf keccak256 registry contractAddress ys j log s' =
      stepWith keccak256 registry contractAddress a ys j log s' := by
    rw [show a = _ from hartifacts]
    rfl
  obtain ⟨hlocated, hevents⟩ := hsame.handleLocation mainPath a hdeep hahead
  obtain ⟨hstored, hwritten⟩ := hlocated.handleStorage keccak256 a hdeep
    ((sameStorage_handleLocation mainPath xs a i log _).lockstep hlock)
    ((sameStorage_handleLocation mainPath ys a j log _).lockstep hlock')
  have hdepth : depthEvents mainPath log s = depthEvents mainPath log s' := by
    rw [depthEvents, depthEvents, h.prevDepth]
  rw [hstep', show MultiRecorder.stepOf keccak256 registry contractAddress xs i log s =
    stepWith keccak256 registry contractAddress a xs i log s from rfl]
  constructor
  · exact ⟨rfl, hdeep.le, .inr ⟨hstored.prevLine, hstored.frameStack, hstored.stackTrackers,
      hstored.memoryTrackers, hstored.storageStates, hstored.slotValuesPerFrame,
      hstored.mappingSlotNamesPerFrame⟩⟩
  · dsimp only [stepWith]
    rw [dropTables_append, dropTables_append, dropTables_append, dropTables_append,
      dropTables_append, dropTables_append, hdepth, hevents, hwritten]

/-- Two callees, entered at logs `i` and `j` by frames at depth `d`, that run the same
`n` logs; the traces agree a little beyond them. -/
structure SameLogs (xs ys : List StructLog) (i j n d : Nat) : Prop where
  caller : DepthBefore (xs.map (·.depth)) i d
  caller' : DepthBefore (ys.map (·.depth)) j d
  inside : i + n ≤ xs.length
  same : ∀ m, m < n + internalCallLookahead → xs[i + m]? = ys[j + m]?
  deeper : ∀ m log, m < n → xs[i + m]? = some log → d < log.depth

theorem length_of_depthBefore {xs : List StructLog} {k p : Nat}
    (h : DepthBefore (xs.map (·.depth)) k p) : k ≤ xs.length := by
  have hlt := (List.getElem?_eq_some_iff.mp h).1
  rw [List.length_cons, List.length_map] at hlt
  exact Nat.lt_succ_iff.mp hlt

theorem SameLogs.inside' {xs ys : List StructLog} {i j n d : Nat} (h : SameLogs xs ys i j n d) :
    j + n ≤ ys.length := by
  cases n with
  | zero => exact length_of_depthBefore h.caller'
  | succ n =>
      have hlog' := (h.same n (by omega)).symm.trans (List.getElem?_eq_getElem h.inside)
      exact (List.getElem?_eq_some_iff.mp hlog').1

/-- The callees stay alike, and their logs are recorded alike. -/
theorem SameLogs.run {registered' : List Path} {xs ys : List StructLog} {i j d : Nat}
    (hlegal : LegalDepths (xs.map (·.depth))) (hlegal' : LegalDepths (ys.map (·.depth)))
    (hentered : frameEnteredAt keccak256 registered registry contractAddress xs i =
      frameEnteredAt keccak256 registered' registry contractAddress ys j) :
    ∀ {n : Nat}, SameLogs xs ys i j n d →
      SameCallee d (stateBefore keccak256 registered registry contractAddress xs (i + n))
          (stateBefore keccak256 registered' registry contractAddress ys (j + n)) ∧
        dropTables (eventsDuring keccak256 registered registry contractAddress xs i (i + n)) =
          dropTables (eventsDuring keccak256 registered' registry contractAddress ys j (j + n))
  | 0, h => by
      have hbefore := @entriesBefore_stateBefore keccak256 registered registry contractAddress xs
        hlegal i (length_of_depthBefore h.caller)
      have hbefore' := @entriesBefore_stateBefore keccak256 registered' registry contractAddress
        ys hlegal' j (length_of_depthBefore h.caller')
      have hdepth := Option.some.inj (hbefore.depth.symm.trans h.caller)
      have hdepth' := Option.some.inj (hbefore'.depth.symm.trans h.caller')
      refine ⟨⟨hdepth.trans hdepth'.symm, hdepth.ge, .inl hdepth⟩, ?_⟩
      rw [Nat.add_zero, Nat.add_zero, eventsDuring_zero, eventsDuring_zero]
  | n + 1, h => by
      obtain ⟨hcallee, hevents⟩ := SameLogs.run hlegal hlegal' hentered
        (n := n) ⟨h.caller, h.caller', by have := h.inside; omega, fun m hm => h.same m (by omega),
          fun m log hm => h.deeper m log (by omega)⟩
      have hlt : i + n < xs.length := Nat.lt_of_succ_le h.inside
      have hlog : xs[i + n]? = some xs[i + n] := List.getElem?_eq_getElem hlt
      have hlog' : ys[j + n]? = some xs[i + n] := (h.same n (by omega)).symm.trans hlog
      have hlt' : j + n < ys.length := (List.getElem?_eq_some_iff.mp hlog').1
      have hbefore := @entriesBefore_stateBefore keccak256 registered registry contractAddress xs
        hlegal (i + n) hlt.le
      have hbefore' := @entriesBefore_stateBefore keccak256 registered' registry contractAddress
        ys hlegal' (j + n) hlt'.le
      have hahead : SameAhead xs ys (i + n) (j + n) := by
        intro m hm
        rw [Nat.add_assoc, Nat.add_assoc]
        exact h.same (n + m) (by omega)
      have hframes : (stateBefore keccak256 registered registry contractAddress xs
            (i + n)).prevDepth < xs[i + n].depth →
          (enteredFrame (stateBefore keccak256 registered registry contractAddress xs
            (i + n)).frameStack (prevLogOf xs (i + n))).1 =
          (enteredFrame (stateBefore keccak256 registered' registry contractAddress ys
            (j + n)).frameStack (prevLogOf ys (j + n))).1 := by
        intro _
        cases n with
        | zero => exact hentered
        | succ n =>
            -- the callee itself makes a call
            have hprev : xs[i + n]? = some xs[i + n] := List.getElem?_eq_getElem (by omega)
            have hprev' : ys[j + n]? = some xs[i + n] := (h.same n (by omega)).symm.trans hprev
            have hdeep := h.deeper n _ (by omega) hprev
            have hdepth := prevDepth_stateBefore_succ keccak256 registered registry
              contractAddress hprev
            have hinside := hcallee.same.resolve_left (by rw [← Nat.add_assoc, hdepth]; omega)
            rw [← Nat.add_assoc, prevLogOf_succ hprev, ← Nat.add_assoc, prevLogOf_succ hprev']
            rw [Nat.add_assoc, Nat.add_assoc, hinside.enteredFrame]
            · rw [hbefore.lockstep.frameStack, ← Nat.add_assoc, hdepth]
              exact hdeep
            · rw [hbefore'.lockstep.frameStack, ← hcallee.prevDepth, ← Nat.add_assoc, hdepth]
              exact hdeep
      obtain ⟨hstep, hissued⟩ := hcallee.stepOf keccak256 registry contractAddress hbefore hbefore'
        hlegal hlegal' hlog hlog' (h.deeper n _ (Nat.lt_succ_self n) hlog) hahead hframes
      constructor
      · rw [← Nat.add_assoc, ← Nat.add_assoc, stateBefore, Machine.stateBefore_succ hlog,
          stateBefore, Machine.stateBefore_succ hlog']
        exact hstep
      · rw [eventsDuring_succ _ _ _ _ _ hlog, eventsDuring_succ _ _ _ _ _ hlog',
          dropTables_append, dropTables_append, hevents, hissued]

/-! ## §4  Walks of the caches -/

/-- The events issued at `n` logs from log `j` on, with the caches walked in these orders. -/
def eventsDuringIn (orders : Nat → MapOrder) (structLogs : List StructLog) (j n : Nat) :
    List TraceEvent :=
  (List.range n).flatMap fun m => structLogs[j + m]?.elim [] fun log =>
    (stepIn keccak256 registry contractAddress structLogs orders (j + m) log
      (stateBeforeIn keccak256 registered registry contractAddress structLogs orders (j + m))).2

theorem stateBeforeIn_upToOrder (orders : Nat → MapOrder) (structLogs : List StructLog) (k : Nat) :
    SameUpToOrder (stateBeforeIn keccak256 registered registry contractAddress structLogs orders k)
      (stateBefore keccak256 registered registry contractAddress structLogs k) :=
  (run_upToOrder keccak256 registered registry contractAddress structLogs orders
    (structLogs.take k)).1

theorem eventsDuringIn_upToOrder (orders : Nat → MapOrder) (structLogs : List StructLog) (j : Nat) :
    ∀ n, j + n ≤ structLogs.length →
      UpToOrder (eventsDuringIn keccak256 registered registry contractAddress orders structLogs j n)
        (eventsDuring keccak256 registered registry contractAddress structLogs j (j + n))
  | 0, _ => by
      rw [Nat.add_zero, eventsDuring_zero]
      exact .nil
  | n + 1, hn => by
      have hlt : j + n < structLogs.length := Nat.lt_of_succ_le hn
      have hlog := List.getElem?_eq_getElem hlt
      rw [eventsDuring_succ _ _ _ _ _ hlog, eventsDuringIn, List.range_succ, List.flatMap_append,
        List.flatMap_singleton, hlog, Option.elim_some]
      refine (eventsDuringIn_upToOrder orders structLogs j n hlt.le).append ?_
      exact ((stateBeforeIn_upToOrder keccak256 registered registry contractAddress orders
        structLogs (j + n)).stepIn keccak256 registry contractAddress structLogs orders (j + n)
          _).2

end Runs

/-- **Callees are recorded alike.** Two callees with the same frame context that run the
same logs, called at the same depth, are recorded with the same events, line tables
aside, and leave the same frame contexts behind: in whatever trace, by whatever kind of
call, after whatever has happened before, whatever the callers keep in their frames and in
whatever orders the caches are walked. -/
theorem callee_independent (keccak256 : List UInt8 → U256) (registered registered' : List Path)
    (registry : ContractRegistry) (contractAddress : Address) (orders orders' : Nat → MapOrder)
    {xs ys : List StructLog} {i j n d : Nat} (hlegal : LegalDepths (xs.map (·.depth)))
    (hlegal' : LegalDepths (ys.map (·.depth)))
    (hentered : frameEnteredAt keccak256 registered registry contractAddress xs i =
      frameEnteredAt keccak256 registered' registry contractAddress ys j)
    (h : SameLogs xs ys i j n d) :
    UpToOrder
        (dropTables (eventsDuringIn keccak256 registered registry contractAddress orders xs i n))
        (dropTables (eventsDuringIn keccak256 registered' registry contractAddress orders' ys j n)) ∧
      (stateBeforeIn keccak256 registered registry contractAddress xs orders
          (i + n)).frameStack.drop d =
        (stateBeforeIn keccak256 registered' registry contractAddress ys orders'
          (j + n)).frameStack.drop d := by
  obtain ⟨hcallee, hevents⟩ := SameLogs.run keccak256 registered registry contractAddress hlegal
    hlegal' hentered h
  have hinside' : j + n ≤ ys.length := h.inside'
  constructor
  · have hissued := (eventsDuringIn_upToOrder keccak256 registered registry contractAddress orders
      xs i n h.inside).dropTables
    have hissued' := (eventsDuringIn_upToOrder keccak256 registered' registry contractAddress
      orders' ys j n hinside').dropTables
    rw [hevents] at hissued
    exact hissued.trans hissued'.symm
  · rw [(stateBeforeIn_upToOrder keccak256 registered registry contractAddress orders xs
        (i + n)).frameStack, (stateBeforeIn_upToOrder keccak256 registered' registry
        contractAddress orders' ys (j + n)).frameStack]
    have hlock := (@entriesBefore_stateBefore keccak256 registered registry contractAddress xs
      hlegal (i + n) h.inside).lockstep.frameStack
    have hlock' := (@entriesBefore_stateBefore keccak256 registered' registry contractAddress ys
      hlegal' (j + n) hinside').lockstep.frameStack
    rw [← hcallee.prevDepth] at hlock'
    exact hcallee.drop (·.frameStack) hlock.le hlock'.le (·.frameStack)

/-- A contract called at address 5. -/
def calledRegistry : ContractRegistry := { contracts := [(5, storingContract)] }

def calling : List StructLog :=
  { pc := 0, op := "CALL", depth := 1, stack := some [0, 0, 0, 0, 0, 5, 100] } :: storingLogs 2 ++
    [{ pc := 1, op := "STOP", depth := 1, stack := some [1] }]

/-- The same, as a static call and a little later. -/
def callingLater : List StructLog :=
  { pc := 0, op := "PUSH0", depth := 1, stack := some [0, 0, 0, 5, 100] } ::
    { pc := 1, op := "STATICCALL", depth := 1, stack := some [0, 0, 0, 0, 5, 100] } ::
      storingLogs 2 ++ [{ pc := 1, op := "STOP", depth := 1, stack := some [1] }]

/-- On line 2 both variables are written again, in one order and in the other. -/
theorem callee_independent_calling :
    (eventsDuringIn (fun _ => 0) [] calledRegistry 1 (fun _ => .listed) calling 1 3).filterMap
        (fun e => e.variableData.map (·.1)) =
      ["storage[0]", "storage[1]", "storage[1]", "storage[0]"] ∧
    (eventsDuringIn (fun _ => 0) [⟨["A.sol"]⟩] calledRegistry 1 (fun _ => .reversed) callingLater
        2 3).filterMap (fun e => e.variableData.map (·.1)) =
      ["storage[0]", "storage[1]", "storage[0]", "storage[1]"] ∧
    UpToOrder
      (dropTables (eventsDuringIn (fun _ => 0) [] calledRegistry 1 (fun _ => .listed) calling 1 3))
      (dropTables (eventsDuringIn (fun _ => 0) [⟨["A.sol"]⟩] calledRegistry 1
        (fun _ => .reversed) callingLater 2 3)) := by
  have hsame : ∀ m, m < 3 + internalCallLookahead → calling[1 + m]? = callingLater[2 + m]? := by
    decide
  have hdeep : ∀ m log, m < 3 → calling[1 + m]? = some log → 1 < log.depth := by
    intro m log hm hlog
    obtain rfl | rfl | rfl : m = 0 ∨ m = 1 ∨ m = 2 := by omega
    · cases hlog
      decide
    · cases hlog
      decide
    · cases hlog
      decide
  have hlogs : SameLogs calling callingLater 1 2 3 1 := ⟨rfl, rfl, by decide, hsame, hdeep⟩
  exact ⟨by decide +kernel, by decide +kernel,
    (callee_independent (fun _ => 0) [] [⟨["A.sol"]⟩] calledRegistry 1 (fun _ => .listed)
      (fun _ => .reversed) (by decide) (by decide) (by decide +kernel) hlogs).1⟩

end EvmRecorder.MultiRecorder
