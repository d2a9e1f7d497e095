import EvmRecorder.MultiRecorder.Frames

/-!
# Lockstep of the per-depth containers

Seven containers are pushed and popped as frames are entered and left. After the
depth handling of a log each of them has one entry for each open frame; a frame
just entered starts afresh, and a frame returned to has the entries it had when
it made the call.
-/

namespace EvmRecorder.MultiRecorder

open Levels Stack

/-! ## §1  The entries of one frame -/

/-- What the loop keeps for an open frame; the default is a fresh one. -/
structure FrameEntries where
  stackTracker : StackTracker := .new
  memoryTracker : MemoryTracker := .new
  storageState : NamedValues := ∅
  slotValues : SlotValues := ∅
  mappingSlotNames : MappingSlotNames := ∅

def entriesAt (l : Nat) (s : MultiRecorderState) : FrameEntries where
  stackTracker := atLevel l .new s.stackTrackers
  memoryTracker := atLevel l .new s.memoryTrackers
  storageState := atLevel l ∅ s.storageStates
  slotValues := atLevel l ∅ s.slotValuesPerFrame
  mappingSlotNames := atLevel l ∅ s.mappingSlotNamesPerFrame

/-- Every container has `d` entries, and the call tree's path leads to a node of
depth `d - 1`. -/
structure AllLockstep (d : Nat) (s : MultiRecorderState) : Prop where
  lockstep : Lockstep d s
  stackTrackers : s.stackTrackers.length = d
  memoryTrackers : s.memoryTrackers.length = d
  path : s.callTree.path.length = d - 1

/-- The rest of a log changes the entries of its own frame only. -/
structure SameOuter (d : Nat) (s s' : MultiRecorderState) : Prop where
  stackTrackers : s'.stackTrackers.length = s.stackTrackers.length
  memoryTrackers : s'.memoryTrackers.length = s.memoryTrackers.length
  callTree : s'.callTree = s.callTree
  entries : ∀ l, 1 ≤ l → l < d → entriesAt l s' = entriesAt l s

theorem SameOuter.trans {d : Nat} {s s' s'' : MultiRecorderState} (h : SameOuter d s s')
    (h' : SameOuter d s' s'') : SameOuter d s s'' where
  stackTrackers := h'.stackTrackers.trans h.stackTrackers
  memoryTrackers := h'.memoryTrackers.trans h.memoryTrackers
  callTree := h'.callTree.trans h.callTree
  entries := fun l hl hlt => (h'.entries l hl hlt).trans (h.entries l hl hlt)

/-- Trackers of the log's depth are replaced. -/
theorem sameOuter_setTrackers (s : MultiRecorderState) (d : Nat)
    (registered : List Path) (prevLine : Option SourceLocation) (tracker : StackTracker)
    (mtracker : MemoryTracker) :
    SameOuter d s
      { s with
        pathsWithLineLengths := registered
        prevLine := prevLine
        stackTrackers := setLevel d tracker s.stackTrackers
        memoryTrackers := setLevel d mtracker s.memoryTrackers } where
  stackTrackers := length_setLevel _ _ _
  memoryTrackers := length_setLevel _ _ _
  callTree := rfl
  entries := by
    intro l hl hlt
    simp only [entriesAt, atLevel_setLevel_ne hl hlt]

theorem sameOuter_setTracker (s : MultiRecorderState) (d : Nat) (tracker : StackTracker) :
    SameOuter d s { s with stackTrackers := setLevel d tracker s.stackTrackers } where
  stackTrackers := length_setLevel _ _ _
  memoryTrackers := rfl
  callTree := rfl
  entries := by
    intro l hl hlt
    simp only [entriesAt, atLevel_setLevel_ne hl hlt]

theorem sameOuter_handleJump (mainPath : Path) (structLogs : List StructLog) (a : Artifacts)
    (i : Nat) (log : StructLog) (loc : SourceLocation) (s : MultiRecorderState) :
    SameOuter log.depth s (handleJump mainPath structLogs a i log loc s).1 := by
  unfold handleJump
  split
  · exact sameOuter_setTracker _ _ _
  · exact sameOuter_setTracker _ _ _
  · exact ⟨rfl, rfl, rfl, fun _ _ _ => rfl⟩

theorem sameOuter_handleLocation (mainPath : Path) (structLogs : List StructLog) (a : Artifacts)
    (i : Nat) (log : StructLog) (s : MultiRecorderState) :
    SameOuter log.depth s (handleLocation mainPath structLogs a i log s).1 := by
  unfold handleLocation
  split
  · exact (sameOuter_setTrackers s log.depth _ _ _ _).trans (sameOuter_handleJump _ _ _ _ _ _ _)
  · exact sameOuter_setTracker _ _ _

theorem sameOuter_handleStorage (keccak256 : List UInt8 → U256) (a : Artifacts) {log : StructLog}
    {s : MultiRecorderState} (hpos : 1 ≤ log.depth) (h : Lockstep log.depth s) :
    SameOuter log.depth s (handleStorage keccak256 a log s).1 := by
  have hbelow := (stored_handleStorage keccak256 a hpos h).1.below
  have hkept : (handleStorage keccak256 a log s).1.stackTrackers = s.stackTrackers ∧
      (handleStorage keccak256 a log s).1.memoryTrackers = s.memoryTrackers ∧
      (handleStorage keccak256 a log s).1.callTree = s.callTree := by
    unfold handleStorage
    dsimp only
    split <;> exact ⟨rfl, rfl, rfl⟩
  refine ⟨congrArg _ hkept.1, congrArg _ hkept.2.1, hkept.2.2, ?_⟩
  intro l hl hlt
  obtain ⟨hstates, hvalues, hnames⟩ := hbelow l hl hlt
  simp only [entriesAt, hkept.1, hkept.2.1, hstates, hvalues, hnames]

/-! ## §2  The depth handling of a log -/

/-- Trackers exist from the first log on. -/
def Tracked {α : Type} (p : Nat) (trackers : List α) : Prop := trackers = [] ∨ trackers.length = p

/-- Growing or popping, the trackers are resized. -/
theorem Tracked.growTo_popN {α : Type} {p : Nat} {trackers : List α} (h : Tracked p trackers)
    (d : Nat) (x : α) : growTo d x (popN trackers (p - d)) = resize d x trackers := by
  rcases h with rfl | hlen
  · simp [resize, popN]
  · exact Levels.growTo_popN hlen

theorem growTo_growTo {α : Type} (d : Nat) (x : α) (xs : List α) :
    growTo d x (growTo d x xs) = growTo d x xs :=
  growTo_of_le (by rw [length_growTo]; exact Nat.le_max_left _ _)

/-- Trackers pushed for entered frames or popped with left ones are at the new depth
once they have grown to it. -/
theorem Tracked.growTo_moved {α : Type} {p d : Nat} {x : α} {trackers moved : List α}
    (h : Tracked p trackers) (hin : p < d → moved = growTo d x trackers)
    (hout : d < p → moved = popN trackers (p - d)) (hsame : p = d → moved = trackers) :
    growTo d x moved = resize d x trackers := by
  rw [← h.growTo_popN]
  rcases Nat.lt_trichotomy p d with hlt | heq | hgt
  · rw [hin hlt, Nat.sub_eq_zero_of_le hlt.le, popN, Nat.sub_zero, List.take_length,
      growTo_growTo]
  · rw [hsame heq, heq, Nat.sub_self, popN, Nat.sub_zero, List.take_length]
  · rw [hout hgt]

/-- A level that was open, or tracked by nothing yet, keeps its entry. -/
theorem Tracked.atLevel_resize {α : Type} {p l d : Nat} {x : α} {trackers : List α}
    (h : Tracked p trackers) (hl : 1 ≤ l) (hle : l ≤ d) (hp : l ≤ p) :
    atLevel l x (resize d x trackers) = atLevel l x trackers := by
  rcases h with rfl | hlen
  · have hlt : l - 1 < d := by omega
    rw [atLevel, atLevel, getElem?_resize_of_ge hlt (Nat.zero_le _)]
    rfl
  · exact atLevel_resize_of_le hl hle (by rw [hlen]; exact hp)

theorem Tracked.atLevel_resize_new {α : Type} {p d : Nat} {x : α} {trackers : List α}
    (h : Tracked p trackers) (hd : p < d) : atLevel d x (resize d x trackers) = x := by
  rcases h with rfl | hlen
  · exact Levels.atLevel_resize_new (by simp; omega)
  · exact Levels.atLevel_resize_new (by rw [hlen]; exact hd)

theorem length_path_exitCalls (tree : CallTree) (i : Nat) : ∀ n,
    ((·.exitCall i)^[n] tree).path.length = tree.path.length - n
  | 0 => rfl
  | n + 1 => by
      rw [Function.iterate_succ_apply']
      show ((·.exitCall i)^[n] tree).path.dropLast.length = _
      rw [List.length_dropLast, length_path_exitCalls tree i n, Nat.sub_sub]

section Depth

variable (structLogs : List StructLog) {i : Nat} {log : StructLog} {s : MultiRecorderState}

theorem stackTrackers_enterDepth (h : Tracked s.prevDepth s.stackTrackers) :
    (enterDepth structLogs i log s).stackTrackers = resize log.depth .new s.stackTrackers := by
  unfold enterDepth
  dsimp only
  refine h.growTo_moved (fun hin => ?_) (fun hout => ?_) fun hsame => ?_
  · rw [if_pos hin]
    rfl
  · rw [if_neg hout.le.not_gt, if_pos hout]
    rfl
  · rw [if_neg hsame.not_lt, if_neg hsame.not_gt]

theorem memoryTrackers_enterDepth (h : Tracked s.prevDepth s.memoryTrackers) :
    (enterDepth structLogs i log s).memoryTrackers = resize log.depth .new s.memoryTrackers := by
  unfold enterDepth
  dsimp only
  refine h.growTo_moved (fun hin => ?_) (fun hout => ?_) fun hsame => ?_
  · rw [if_pos hin]
    rfl
  · rw [if_neg hout.le.not_gt, if_pos hout]
    rfl
  · rw [if_neg hsame.not_lt, if_neg hsame.not_gt]

theorem path_enterDepth (hpos : 1 ≤ log.depth) (hrise : log.depth ≤ s.prevDepth + 1)
    (hpath : s.callTree.path.length = s.prevDepth - 1) (hprev : 1 ≤ s.prevDepth) :
    (enterDepth structLogs i log s).callTree.path.length = log.depth - 1 := by
  unfold enterDepth
  dsimp only
  rcases Nat.lt_trichotomy s.prevDepth log.depth with hlt | heq | hgt
  · rw [if_pos hlt]
    show (s.callTree.path ++ _).length = _
    rw [List.length_append, hpath, List.length_singleton]
    omega
  · rw [if_neg (by omega), if_neg (by omega), hpath, heq]
  · rw [if_neg (by omega), if_pos hgt]
    show ((·.exitCall i)^[s.prevDepth - log.depth] s.callTree).path.length = _
    rw [length_path_exitCalls, hpath]
    omega

end Depth

/-! ## §3  Runs -/

section Runs

variable (keccak256 : List UInt8 → U256) (registered : List Path) (registry : ContractRegistry)
  (contractAddress : Address) (structLogs : List StructLog)

/-- Before log `k`. -/
structure EntriesBefore (k : Nat) (s : MultiRecorderState) : Prop where
  depth : DepthBefore (structLogs.map (·.depth)) k s.prevDepth
  positive : 1 ≤ s.prevDepth
  lockstep : Lockstep s.prevDepth s
  stackTrackers : Tracked s.prevDepth s.stackTrackers
  memoryTrackers : Tracked s.prevDepth s.memoryTrackers
  path : s.callTree.path.length = s.prevDepth - 1

variable {keccak256 registered registry contractAddress structLogs}

theorem entriesBefore_initial :
    EntriesBefore structLogs 0 (initialState registered registry contractAddress) where
  depth := rfl
  positive := le_rfl
  lockstep := ⟨rfl, rfl, rfl, rfl⟩
  stackTrackers := .inl rfl
  memoryTrackers := .inl rfl
  path := rfl

/-- The depth handling brings all containers to the log's depth. -/
theorem EntriesBefore.enterDepth {k : Nat} {log : StructLog} {s : MultiRecorderState}
    (h : EntriesBefore structLogs k s) (hdepths : LegalDepths (structLogs.map (·.depth)))
    (hlog : structLogs[k]? = some log) :
    AllLockstep log.depth (enterDepth structLogs k log s) := by
  obtain ⟨hpos, hrise⟩ := hdepths.rise h.depth (getElem?_depths hlog)
  refine ⟨(resized_enterDepth structLogs (i := k) h.lockstep hpos hrise).lockstep, ?_, ?_, ?_⟩
  · rw [stackTrackers_enterDepth structLogs h.stackTrackers, length_resize]
  · rw [memoryTrackers_enterDepth structLogs h.memoryTrackers, length_resize]
  · exact path_enterDepth structLogs hpos hrise h.path h.positive

/-- The entries of a level, after the depth handling, in the resized containers. -/
theorem EntriesBefore.entriesAt_enterDepth {k : Nat} {log : StructLog} {s : MultiRecorderState}
    (h : EntriesBefore structLogs k s) (hdepths : LegalDepths (structLogs.map (·.depth)))
    (hlog : structLogs[k]? = some log) (l : Nat) :
    entriesAt l (MultiRecorder.enterDepth structLogs k log s) =
      { stackTracker := atLevel l .new (resize log.depth .new s.stackTrackers)
        memoryTracker := atLevel l .new (resize log.depth .new s.memoryTrackers)
        storageState := atLevel l ∅ (resize log.depth ∅ s.storageStates)
        slotValues := atLevel l ∅ (resize log.depth ∅ s.slotValuesPerFrame)
        mappingSlotNames := atLevel l ∅ (resize log.depth ∅ s.mappingSlotNamesPerFrame) } := by
  obtain ⟨hpos, hrise⟩ := hdepths.rise h.depth (getElem?_depths hlog)
  have hresized := resized_enterDepth structLogs (i := k) h.lockstep hpos hrise
  rw [entriesAt, stackTrackers_enterDepth structLogs h.stackTrackers,
    memoryTrackers_enterDepth structLogs h.memoryTrackers, hresized.storageStates,
    hresized.slotValuesPerFrame, hresized.mappingSlotNamesPerFrame]

/-- Frames that stay open keep their entries. -/
theorem EntriesBefore.entriesAt_kept {k l : Nat} {log : StructLog} {s : MultiRecorderState}
    (h : EntriesBefore structLogs k s) (hdepths : LegalDepths (structLogs.map (·.depth)))
    (hlog : structLogs[k]? = some log) (hl : 1 ≤ l) (hle : l ≤ log.depth)
    (hkept : l ≤ s.prevDepth) :
    entriesAt l (MultiRecorder.enterDepth structLogs k log s) = entriesAt l s := by
  rw [h.entriesAt_enterDepth hdepths hlog, entriesAt,
    h.stackTrackers.atLevel_resize hl hle hkept, h.memoryTrackers.atLevel_resize hl hle hkept,
    atLevel_resize_of_le hl hle (by rw [h.lockstep.storageStates]; exact hkept),
    atLevel_resize_of_le hl hle (by rw [h.lockstep.slotValuesPerFrame]; exact hkept),
    atLevel_resize_of_le hl hle (by rw [h.lockstep.mappingSlotNamesPerFrame]; exact hkept)]

/-- A frame just entered has fresh entries. -/
theorem EntriesBefore.entriesAt_new {k : Nat} {log : StructLog} {s : MultiRecorderState}
    (h : EntriesBefore structLogs k s) (hdepths : LegalDepths (structLogs.map (·.depth)))
    (hlog : structLogs[k]? = some log) (hnew : s.prevDepth < log.depth) :
    entriesAt log.depth (MultiRecorder.enterDepth structLogs k log s) = {} := by
  rw [h.entriesAt_enterDepth hdepths hlog,
    h.stackTrackers.atLevel_resize_new hnew, h.memoryTrackers.atLevel_resize_new hnew,
    atLevel_resize_new (by rw [h.lockstep.storageStates]; exact hnew),
    atLevel_resize_new (by rw [h.lockstep.slotValuesPerFrame]; exact hnew),
    atLevel_resize_new (by rw [h.lockstep.mappingSlotNamesPerFrame]; exact hnew)]

/-- A log, after its depth handling, leaves the outer frames alone. -/
theorem EntriesBefore.stepOf {k : Nat} {log : StructLog} {s : MultiRecorderState}
    (h : EntriesBefore structLogs k s) (hdepths : LegalDepths (structLogs.map (·.depth)))
    (hlog : structLogs[k]? = some log) :
    EntriesBefore structLogs (k + 1) (stepOf keccak256 registry contractAddress structLogs k log s).1 ∧
      ∀ l, 1 ≤ l → l < log.depth →
        entriesAt l (MultiRecorder.stepOf keccak256 registry contractAddress structLogs k log s).1 =
          entriesAt l (MultiRecorder.enterDepth structLogs k log s) := by
  have hpos := (hdepths.rise h.depth (getElem?_depths hlog)).1
  obtain ⟨hlen, hstack, hmemory, hpath⟩ := h.enterDepth hdepths hlog
  have hlocated := sameOuter_handleLocation
    (Recorder.mainPathOf (initialArtifacts registry contractAddress).sourcePaths) structLogs
    (artifactsFor registry contractAddress structLogs k log s) k log
    (MultiRecorder.enterDepth structLogs k log s)
  have hsame := sameStorage_handleLocation
    (Recorder.mainPathOf (initialArtifacts registry contractAddress).sourcePaths) structLogs
    (artifactsFor registry contractAddress structLogs k log s) k log
    (MultiRecorder.enterDepth structLogs k log s)
  have hlen' := (stored_handleStorage keccak256
    (artifactsFor registry contractAddress structLogs k log s) hpos (hsame.lockstep hlen)).2
  have houter := hlocated.trans (sameOuter_handleStorage keccak256
    (artifactsFor registry contractAddress structLogs k log s) hpos (hsame.lockstep hlen))
  constructor
  · refine ⟨getElem?_depths hlog, hpos, ?_, .inr ?_, .inr ?_, ?_⟩
    · exact ⟨hlen'.frameStack, hlen'.storageStates, hlen'.slotValuesPerFrame,
        hlen'.mappingSlotNamesPerFrame⟩
    · exact houter.stackTrackers.trans hstack
    · exact houter.memoryTrackers.trans hmemory
    · exact (congrArg (·.path.length) houter.callTree).trans hpath
  · exact houter.entries

theorem entriesBefore_stateBefore (hdepths : LegalDepths (structLogs.map (·.depth))) :
    ∀ k, k ≤ structLogs.length → EntriesBefore structLogs k
      (stateBefore keccak256 registered registry contractAddress structLogs k) := by
  refine Machine.invariant entriesBefore_initial ?_
  intro k log s hlog h
  exact (h.stepOf hdepths hlog).1

/-- While every log is of a deeper frame, the entries of a frame stay as they
are. -/
theorem entriesAt_during (hdepths : LegalDepths (structLogs.map (·.depth))) {d j : Nat}
    {caller : StructLog} (hcaller : structLogs[j]? = some caller) (hdepth : caller.depth = d) :
    ∀ n, j + 1 + n ≤ structLogs.length →
      (∀ i inner, j < i → i < j + 1 + n → structLogs[i]? = some inner → d < inner.depth) →
      ∀ l, 1 ≤ l → l ≤ d →
        l ≤ (stateBefore keccak256 registered registry contractAddress structLogs
            (j + 1 + n)).prevDepth ∧
          entriesAt l (stateBefore keccak256 registered registry contractAddress structLogs
              (j + 1 + n)) =
            entriesAt l (stateBefore keccak256 registered registry contractAddress structLogs
              (j + 1))
  | 0, hn, _, l, _, hle => by
      refine ⟨?_, rfl⟩
      rw [Nat.add_zero, prevDepth_stateBefore_succ keccak256 registered registry contractAddress
        hcaller, hdepth]
      exact hle
  | n + 1, hn, hinner, l, hl, hle => by
      have hlt : j + 1 + n < structLogs.length := Nat.lt_of_succ_le hn
      have hlog : structLogs[j + 1 + n]? = some structLogs[j + 1 + n] :=
        List.getElem?_eq_getElem hlt
      have hdeep := hinner (j + 1 + n) _ (by omega) (by omega) hlog
      obtain ⟨hprev, ih⟩ := entriesAt_during hdepths hcaller hdepth n hlt.le
        (fun i inner hi hin => hinner i inner hi (by omega)) l hl hle
      have hbefore := @entriesBefore_stateBefore keccak256 registered registry contractAddress
        structLogs hdepths (j + 1 + n) hlt.le
      rw [← Nat.add_assoc, stateBefore, Machine.stateBefore_succ hlog, ← stateBefore]
      refine ⟨hle.trans hdeep.le, ?_⟩
      rw [(hbefore.stepOf hdepths hlog).2 l hl (Nat.lt_of_le_of_lt hle hdeep),
        hbefore.entriesAt_kept hdepths hlog hl (hle.trans hdeep.le) hprev, ih]

/-- Log `j` is the last one of the frame at depth `d` before log `k`. -/
structure CalledAt (structLogs : List StructLog) (d j k : Nat) : Prop where
  before : j < k
  caller : ∃ log, structLogs[j]? = some log ∧ log.depth = d
  deeper : ∀ i inner, j < i → i < k → structLogs[i]? = some inner → d < inner.depth

/-- A frame that is returned to has made a call. -/
theorem exists_calledAt (hdepths : LegalDepths (structLogs.map (·.depth))) {d : Nat} (hd : 1 ≤ d) :
    ∀ k p, DepthBefore (structLogs.map (·.depth)) k p → d < p → ∃ j, CalledAt structLogs d j k
  | 0, p, hp, hlt => by
      obtain rfl : 1 = p := Option.some.inj hp
      exact absurd hd (Nat.not_le.mpr hlt)
  | k + 1, p, hp, hlt => by
      rw [DepthBefore, List.getElem?_cons_succ] at hp
      obtain ⟨log, hlog, hdepth⟩ := List.getElem?_map .. ▸ hp |> Option.map_eq_some_iff.mp
      obtain ⟨p', hp'⟩ : ∃ p', DepthBefore (structLogs.map (·.depth)) k p' := by
        have hklt : k < (1 :: structLogs.map (·.depth)).length := by
          have := (List.getElem?_eq_some_iff.mp hp).1
          simp only [List.length_cons]
          omega
        exact ⟨_, List.getElem?_eq_getElem hklt⟩
      have hrise := (hdepths.rise hp' hp).2
      rcases Nat.lt_or_ge d p' with hdeep | hshallow
      · -- still inside the call
        obtain ⟨j, hj⟩ := exists_calledAt hdepths hd k p' hp' hdeep
        refine ⟨j, Nat.lt_succ_of_lt hj.before, hj.caller, ?_⟩
        intro i inner hji hik hinner
        rcases Nat.lt_succ_iff_lt_or_eq.mp hik with hik | rfl
        · exact hj.deeper i inner hji hik hinner
        · rw [hlog] at hinner
          cases hinner
          rw [hdepth]
          exact hlt
      · -- log `k` is the first of the callee
        obtain rfl : p' = d := by omega
        cases k with
        | zero =>
            obtain rfl : 1 = p' := Option.some.inj hp'
            have hone := hdepths.starts p (by rw [List.head?_eq_getElem?]; exact hp)
            omega
        | succ k =>
            rw [DepthBefore, List.getElem?_cons_succ] at hp'
            obtain ⟨caller, hcaller, hcallerDepth⟩ :=
              List.getElem?_map .. ▸ hp' |> Option.map_eq_some_iff.mp
            refine ⟨k, by omega, ⟨caller, hcaller, hcallerDepth⟩, ?_⟩
            intro i inner hki hik hinner
            obtain rfl : i = k + 1 := by omega
            rw [hlog] at hinner
            cases hinner
            rw [hdepth]
            exact hlt

end Runs

/-- **Lockstep.** After the depth handling of a log at depth `d` every container
has `d` entries and the call tree's path `d - 1`; a frame just entered has fresh
entries; and on a return there is the log that made the call, after which the
frame and those around it had the entries they have now. -/
theorem frames_lockstep (keccak256 : List UInt8 → U256) (registered : List Path)
    (registry : ContractRegistry) (contractAddress : Address) {structLogs : List StructLog}
    (hdepths : LegalDepths (structLogs.map (·.depth))) {k : Nat} {log : StructLog}
    (hlog : structLogs[k]? = some log) :
    let s := stateBefore keccak256 registered registry contractAddress structLogs
    AllLockstep log.depth (enterDepth structLogs k log (s k)) ∧
      (∀ p, DepthBefore (structLogs.map (·.depth)) k p → p < log.depth →
        entriesAt log.depth (enterDepth structLogs k log (s k)) = {}) ∧
      (∀ p, DepthBefore (structLogs.map (·.depth)) k p → log.depth < p →
        ∃ j, CalledAt structLogs log.depth j k) ∧
      ∀ j, CalledAt structLogs log.depth j k → ∀ l, 1 ≤ l → l ≤ log.depth →
        entriesAt l (enterDepth structLogs k log (s k)) = entriesAt l (s (j + 1)) := by
  intro s
  have hk : k < structLogs.length := (List.getElem?_eq_some_iff.mp hlog).1
  have hbefore : EntriesBefore structLogs k (s k) := entriesBefore_stateBefore hdepths k hk.le
  have hunique : ∀ p, DepthBefore (structLogs.map (·.depth)) k p → p = (s k).prevDepth :=
    fun p hp => Option.some.inj (hp.symm.trans hbefore.depth)
  refine ⟨hbefore.enterDepth hdepths hlog, ?_, ?_, ?_⟩
  · intro p hp hnew
    rw [hunique p hp] at hnew
    exact hbefore.entriesAt_new hdepths hlog hnew
  · intro p hp hdrop
    exact exists_calledAt hdepths (hdepths.rise hp (getElem?_depths hlog)).1 k p hp hdrop
  · intro j hj l hl hle
    obtain ⟨caller, hcaller, hdepth⟩ := hj.caller
    have hsum : j + 1 + (k - (j + 1)) = k := Nat.add_sub_cancel' hj.before
    obtain ⟨hkept, hentries⟩ := @entriesAt_during keccak256 registered registry contractAddress
      structLogs hdepths log.depth j caller hcaller hdepth (k - (j + 1)) (by omega)
      (by rw [hsum]; exact hj.deeper) l hl hle
    rw [hsum] at hkept hentries
    rw [hbefore.entriesAt_kept hdepths hlog hl hle hkept]
    exact hentries

/-- A call, a return, and a second call. -/
def siblingCalls : List StructLog :=
  [{ pc := 0, op := "CALL", depth := 1 }, { pc := 0, op := "PUSH0", depth := 2 },
    { pc := 1, op := "CALL", depth := 1 }, { pc := 0, op := "STOP", depth := 2 }]

theorem frames_lockstep_siblingCalls :
    (entriesAt 2 (enterDepth siblingCalls 3 { pc := 0, op := "STOP", depth := 2 }
      (stateBefore (fun _ => 0) [] {} 0 siblingCalls 3))).stackTracker = {} ∧
    entriesAt 1 (enterDepth siblingCalls 2 { pc := 1, op := "CALL", depth := 1 }
      (stateBefore (fun _ => 0) [] {} 0 siblingCalls 2)) =
        entriesAt 1 (stateBefore (fun _ => 0) [] {} 0 siblingCalls 1) := by
  have hlegal : LegalDepths (siblingCalls.map (·.depth)) := by decide
  have hentered : siblingCalls[3]? = some { pc := 0, op := "STOP", depth := 2 } := rfl
  have hreturned : siblingCalls[2]? = some { pc := 1, op := "CALL", depth := 1 } := rfl
  constructor
  · rw [(frames_lockstep (fun _ => 0) [] {} 0 hlegal hentered).2.1 1 rfl (by decide)]
    rfl
  · obtain ⟨j, hj⟩ :=
      (frames_lockstep (fun _ => 0) [] {} 0 hlegal hreturned).2.2.1 2 rfl (by decide)
    have hzero : j = 0 := by
      obtain ⟨caller, hcaller, hdepth⟩ := hj.caller
      rcases j with _ | _ | j
      · rfl
      · cases hcaller
        cases hdepth
      · exact absurd hj.before (by omega)
    rw [hzero] at hj
    exact (frames_lockstep (fun _ => 0) [] {} 0 hlegal hreturned).2.2.2 0 hj 1 le_rfl le_rfl

end EvmRecorder.MultiRecorder
