import EvmRecorder.Library.Journal
import EvmRecorder.Recorder.Storage
import EvmRecorder.Recorder.WholeSlot

/-!
# Storage variables carried forward

The cache of the single-contract recorder holds, for a variable of a whole slot,
the value last written to the slot, whichever frame wrote it and however that
frame ended. It is the value of the slot in EVM storage as long as no frame that
contained the write has been rolled back.
-/

namespace EvmRecorder

/-! ## §1  Writes of a trace and EVM storage -/

section Trace

variable (structLogs : List StructLog)

/-- The write of `w` at log `j` is the last one to `slot` before log `k`. -/
structure IsLastWrite (slot : U256) (j k : Nat) (w : U256) : Prop where
  before : j < k
  writes : ∃ log, structLogs[j]? = some log ∧ storageWrite log = some (slot, w)
  last : ∀ t, j < t → t < k → ∀ log v, structLogs[t]? = some log →
    storageWrite log ≠ some (slot, v)

/-- Storage shared by all frames of a trace. `failed k l` tells whether the frame
of level `l` left at log `k` is rolled back. -/
def storageStep (failed : Nat → Nat → Bool) (k : Nat) (log : StructLog)
    (s : Nat × Journal U256 U256) : (Nat × Journal U256 U256) × List Unit :=
  let entered := s.2.moveTo (failed k) s.1 log.depth
  ((log.depth, match storageWrite log with
    | some (slot, value) => entered.write slot value
    | none => entered), [])

/-- Depth and storage after the logs before `k`. -/
def evmBefore (initial : U256 → U256) (failed : Nat → Nat → Bool) (k : Nat) :
    Nat × Journal U256 U256 :=
  Machine.stateBefore (storageStep failed) structLogs (1, ⟨initial, []⟩) k

/-- EVM storage at log `k`, before its instruction. -/
def evmStorageAt (initial : U256 → U256) (failed : Nat → Nat → Bool) (k : Nat)
    (log : StructLog) : U256 → U256 :=
  ((evmBefore structLogs initial failed k).2.moveTo (failed k)
    (evmBefore structLogs initial failed k).1 log.depth).current

/-- No frame that was open at log `j` is rolled back up to log `k`: a frame of
level `l` left at log `m` was open at `j` when all logs from `j` on are at least
that deep. -/
def Survives (failed : Nat → Nat → Bool) (j k : Nat) : Prop :=
  ∀ m log, j < m → m ≤ k → structLogs[m]? = some log → ∀ l, log.depth < l →
    (∀ i inner, j ≤ i → i < m → structLogs[i]? = some inner → l ≤ inner.depth) →
      failed m l = false

end Trace

section Storage

variable {structLogs : List StructLog} {initial : U256 → U256} {failed : Nat → Nat → Bool}
  {slot w : U256} {j k : Nat}

theorem IsLastWrite.succ {log : StructLog}
    (h : IsLastWrite structLogs slot j k w) (hlog : structLogs[k]? = some log)
    (hother : ∀ v, storageWrite log ≠ some (slot, v)) :
    IsLastWrite structLogs slot j (k + 1) w := by
  refine ⟨Nat.lt_succ_of_lt h.before, h.writes, ?_⟩
  intro t hjt htk log' v hlog'
  rcases Nat.lt_succ_iff_lt_or_eq.mp htk with htk | rfl
  · exact h.last t hjt htk log' v hlog'
  · rw [hlog] at hlog'
    rw [← Option.some.inj hlog']
    exact hother v

/-- From log `j` on, the slot holds the written value, also at the start of every
frame opened since; `low` is a depth not undercut since. -/
def Kept (structLogs : List StructLog) (slot w : U256) (j n : Nat)
    (s : Nat × Journal U256 U256) : Prop :=
  ∃ low, low ≤ s.1 ∧ s.2.Holds slot w (s.1 - low) ∧
    ∀ i log, j ≤ i → i < n → structLogs[i]? = some log → low ≤ log.depth

theorem kept_written {log : StructLog} {s : Nat × Journal U256 U256}
    (hlog : structLogs[j]? = some log) (hwrite : storageWrite log = some (slot, w)) :
    Kept structLogs slot w j (j + 1) (storageStep failed j log s).1 := by
  refine ⟨log.depth, Nat.le_refl _, ?_, ?_⟩
  · simp only [storageStep, hwrite, Nat.sub_self]
    exact Journal.holds_write_self _
  · intro i log' hji hij hlog'
    obtain rfl : i = j := Nat.le_antisymm (Nat.lt_succ_iff.mp hij) hji
    rw [hlog] at hlog'
    rw [Option.some.inj hlog']

/-- A change of depth keeps the value when the write survives it. -/
theorem Kept.moveTo {n : Nat} {log : StructLog} {s : Nat × Journal U256 U256}
    (h : Kept structLogs slot w j n s) (hjn : j < n) (hlog : structLogs[n]? = some log)
    (hsurvives : Survives structLogs failed j n) :
    ∃ low, low ≤ log.depth ∧
      (s.2.moveTo (failed n) s.1 log.depth).Holds slot w (log.depth - low) ∧
      ∀ i log', j ≤ i → i < n + 1 → structLogs[i]? = some log' → low ≤ log'.depth := by
  obtain ⟨low, hlow, hholds, hdepths⟩ := h
  refine ⟨min low log.depth, Nat.min_le_right _ _, ?_, ?_⟩
  · refine hholds.moveTo hlow fun l hl hle => ?_
    refine hsurvives n log hjn (Nat.le_refl n) hlog l hl fun i inner hji hin hinner => ?_
    exact hle.trans (hdepths i inner hji hin hinner)
  · intro i log' hji hin hlog'
    rcases Nat.lt_succ_iff_lt_or_eq.mp hin with hin | rfl
    · exact (Nat.min_le_left _ _).trans (hdepths i log' hji hin hlog')
    · rw [hlog] at hlog'
      rw [← Option.some.inj hlog']
      exact Nat.min_le_right _ _

theorem Survives.mono {n : Nat} (h : Survives structLogs failed j k) (hn : n ≤ k) :
    Survives structLogs failed j n :=
  fun m log hjm hmn => h m log hjm (hmn.trans hn)

theorem kept_evmBefore (hlast : IsLastWrite structLogs slot j k w)
    (hk : k ≤ structLogs.length) (hsurvives : Survives structLogs failed j k) :
    ∀ n, j < n → n ≤ k → Kept structLogs slot w j n (evmBefore structLogs initial failed n) := by
  intro n hjn
  induction n, hjn using Nat.le_induction with
  | base =>
      intro _
      obtain ⟨log, hlog, hwrite⟩ := hlast.writes
      rw [evmBefore, Machine.stateBefore_succ hlog]
      exact kept_written hlog hwrite
  | succ n hjn ih =>
      intro hnk
      have hlog : structLogs[n]? = some structLogs[n] :=
        List.getElem?_eq_getElem (Nat.lt_of_lt_of_le hnk hk)
      obtain ⟨low, hlow, hholds, hdepths⟩ := (ih (Nat.le_of_lt hnk)).moveTo hjn hlog
        (hsurvives.mono (Nat.le_of_lt hnk))
      rw [evmBefore, Machine.stateBefore_succ hlog]
      refine ⟨low, hlow, ?_, hdepths⟩
      simp only [storageStep]
      split
      · next other value hwrite =>
          -- a later write is to another slot
          refine hholds.write_ne ?_
          rintro rfl
          exact hlast.last n hjn hnk _ value hlog hwrite
      · exact hholds

/-- The last write to a slot, if it survives, is what the slot holds. -/
theorem evmStorageAt_of_survives {log : StructLog} (hlog : structLogs[k]? = some log)
    (hlast : IsLastWrite structLogs slot j k w) (hsurvives : Survives structLogs failed j k) :
    evmStorageAt structLogs initial failed k log slot = w := by
  have hk : k ≤ structLogs.length := (List.getElem?_eq_some_iff.mp hlog).1.le
  obtain ⟨low, -, hholds, -⟩ := (kept_evmBefore hlast hk hsurvives k hlast.before
    (Nat.le_refl k)).moveTo hlast.before hlog hsurvives
  exact hholds.1

end Storage

/-! ## §2  What is re-emitted -/

def variableEvent (e : String × ValueRecord) : TraceEvent :=
  .registerVariableWithFullValue e.1 e.2

/-- Only what is cached is carried forward. -/
theorem mem_carriedForward {prevLine : Option SourceLocation} {loc : SourceLocation}
    {storageState : NamedValues} {name : String} {v : ValueRecord}
    (h : (name, v) ∈ carriedForward prevLine loc storageState) :
    storageState.lookup name = some v := by
  unfold carriedForward at h
  split at h
  · obtain ⟨entry, hentry, heq⟩ := List.mem_map.mp h
    obtain ⟨rfl, rfl⟩ := Prod.mk.inj heq
    exact AList.mem_lookup_iff.mpr hentry
  · cases h

/-- And all of it at a step onto another line. -/
theorem mem_carriedForward_of_lineChanged {prevLine : Option SourceLocation} {loc : SourceLocation}
    {storageState : NamedValues} (hline : lineChanged prevLine loc) {name : String}
    {v : ValueRecord} (h : storageState.lookup name = some v) :
    (name, v) ∈ carriedForward prevLine loc storageState := by
  have hprev : prevLine ≠ some loc := by
    rintro rfl
    simp [lineChanged] at hline
  rw [carriedForward, if_pos (by simp [hprev, hline])]
  exact List.mem_map.mpr ⟨⟨name, v⟩, AList.mem_lookup_iff.mp h, rfl⟩

/-- A step block ends with the variables it carries forward. -/
theorem carriedForward_suffix_emitStep (a : Artifacts) (mainPath : Path) (registered : List Path)
    (prevLine : Option SourceLocation) (loc : SourceLocation) (storageState : NamedValues) :
    (carriedForward prevLine loc storageState).map variableEvent <:+
      (emitStep a mainPath registered prevLine loc storageState).2 := by
  unfold emitStep
  by_cases hprev : prevLine = some loc
  · subst hprev
    simp [carriedForward]
  · rw [if_neg hprev]
    exact List.suffix_append _ _

/-! ## §3  The cache -/

namespace Recorder

section Cache

variable (keccak256 : List UInt8 → U256) (registered : List Path) (a : Artifacts)
  (structLogs : List StructLog)

/-- The variables re-emitted at log `k`. -/
def reemittedAt (k : Nat) : List (String × ValueRecord) :=
  match structLogs[k]? with
  | none => []
  | some log =>
      let s := enterDepth log (stateBefore keccak256 registered a structLogs k)
      (a.resolvePc log.pc).elim [] fun loc => carriedForward s.prevLine loc s.storageState

variable {keccak256 registered a structLogs} {layout : StorageLayout} {e : StorageEntry}
  {slot : U256}

/-- Before log `k`: what is cached under the label is the last write. -/
def CachesLastWrite (structLogs : List StructLog) (layout : StorageLayout) (e : StorageEntry)
    (slot : U256) (k : Nat) (s : RecorderState) : Prop :=
  Indexed s.mappingSlotNames ∧
    ∀ v, s.storageState.lookup e.label = some v →
      ∃ j w, IsLastWrite structLogs slot j k w ∧ v = slotRecord (some layout) slot w

theorem indexed_handleStorage {s : RecorderState} (h : Indexed s.mappingSlotNames)
    (log : StructLog) : Indexed (handleStorage keccak256 a log s).1.mappingSlotNames := by
  unfold handleStorage
  dsimp only
  split <;> exact h.recordMappingSlot keccak256 a.storageLayout log

/-- A log changes the label's value only by a write to the slot. -/
theorem lookup_handleStorage (hlayout : a.storageLayout = some layout)
    (he : WholeSlot layout e slot) {s : RecorderState} (h : Indexed s.mappingSlotNames)
    (log : StructLog) {v : ValueRecord}
    (hv : (handleStorage keccak256 a log s).1.storageState.lookup e.label = some v) :
    (∃ w, storageWrite log = some (slot, w) ∧ v = slotRecord (some layout) slot w) ∨
      (∀ w, storageWrite log ≠ some (slot, w)) ∧ s.storageState.lookup e.label = some v := by
  unfold handleStorage at hv
  dsimp only at hv
  cases hwrite : storageWrite log with
  | none =>
      rw [hwrite] at hv
      refine .inr ⟨?_, hv⟩
      intro w hw
      cases hw
  | some write =>
      obtain ⟨other, value⟩ := write
      rw [hwrite, hlayout] at hv
      dsimp only at hv
      rw [he.lookup_recordStorageWrite (h.recordMappingSlot keccak256 (some layout) log)] at hv
      by_cases hslot : other = slot
      · subst hslot
        rw [if_pos rfl] at hv
        exact .inl ⟨value, rfl, (Option.some.inj hv).symm⟩
      · rw [if_neg hslot] at hv
        refine .inr ⟨fun w hw => ?_, hv⟩
        obtain ⟨rfl, -⟩ := Prod.mk.inj (Option.some.inj hw)
        exact hslot rfl

theorem CachesLastWrite.preserved (hlayout : a.storageLayout = some layout)
    (he : WholeSlot layout e slot) {mainPath : Path} {k : Nat} {log : StructLog}
    {s : RecorderState} (hlog : structLogs[k]? = some log)
    (h : CachesLastWrite structLogs layout e slot k s) :
    CachesLastWrite structLogs layout e slot (k + 1)
      (step keccak256 a mainPath structLogs k log s).1 := by
  obtain ⟨hindexed, hcached⟩ := h
  have hkept : (handleLocation a mainPath structLogs k log (enterDepth log s)).1.storageState =
        s.storageState ∧
      (handleLocation a mainPath structLogs k log (enterDepth log s)).1.slotValues =
        s.slotValues ∧
      (handleLocation a mainPath structLogs k log (enterDepth log s)).1.mappingSlotNames =
        s.mappingSlotNames :=
    storage_handleLocation mainPath k log (enterDepth log s)
  obtain ⟨hstate, -, hnames⟩ := hkept
  have hlocated : Indexed
      (handleLocation a mainPath structLogs k log (enterDepth log s)).1.mappingSlotNames := by
    rw [hnames]
    exact hindexed
  refine ⟨indexed_handleStorage hlocated log, ?_⟩
  intro v hv
  rcases lookup_handleStorage hlayout he hlocated log hv with ⟨w, hwrite, rfl⟩ | ⟨hother, hv⟩
  · refine ⟨k, w, ⟨Nat.lt_succ_self k, ⟨log, hlog, hwrite⟩, ?_⟩, rfl⟩
    intro t hkt htk
    omega
  · rw [hstate] at hv
    obtain ⟨j, w, hlast, rfl⟩ := hcached v hv
    exact ⟨j, w, hlast.succ hlog hother, rfl⟩

theorem cachesLastWrite_stateBefore (hlayout : a.storageLayout = some layout)
    (he : WholeSlot layout e slot) : ∀ k, k ≤ structLogs.length →
      CachesLastWrite structLogs layout e slot k
        (stateBefore keccak256 registered a structLogs k) := by
  refine Machine.invariant ⟨indexed_empty, ?_⟩ ?_
  · intro v hv
    cases hv
  · intro k log s hlog h
    exact h.preserved hlayout he hlog

/-- What is re-emitted is recorded. -/
theorem reemittedAt_recorded {k : Nat} {log : StructLog} (hlog : structLogs[k]? = some log) :
    (reemittedAt keccak256 registered a structLogs k).map variableEvent <:+:
      eventsBefore keccak256 registered a structLogs (k + 1) := by
  have hlocated : (reemittedAt keccak256 registered a structLogs k).map variableEvent <:+:
      (handleLocation a (mainPathOf a.sourcePaths) structLogs k log
        (enterDepth log (stateBefore keccak256 registered a structLogs k))).2 := by
    unfold reemittedAt handleLocation
    rw [hlog]
    dsimp only
    cases a.resolvePc log.pc with
    | none => exact List.nil_infix
    | some loc =>
        simp only [atLocation, List.append_assoc]
        apply List.infix_append_of_infix_left
        exact (carriedForward_suffix_emitStep _ _ _ _ _ _).isInfix
  rw [eventsBefore_succ _ _ _ _ hlog]
  -- behind the depth change, before storage and special events
  apply List.infix_append_of_infix_right
  apply List.infix_append_of_infix_left
  apply List.infix_append_of_infix_left
  apply List.infix_append_of_infix_right
  exact hlocated

end Cache

/-- **Carry-forward.** A value re-emitted for a variable of a whole slot is the
value last written to its slot, by whichever frame, and it is what the slot
holds in EVM storage if no frame that contained the write has been rolled
back. -/
theorem reemitted_is_last_write (keccak256 : List UInt8 → U256) (registered : List Path)
    (a : Artifacts) (structLogs : List StructLog) {layout : StorageLayout} {e : StorageEntry}
    {slot : U256} (hlayout : a.storageLayout = some layout) (he : WholeSlot layout e slot)
    {k : Nat} {log : StructLog} (hlog : structLogs[k]? = some log) {v : ValueRecord}
    (hv : (e.label, v) ∈ reemittedAt keccak256 registered a structLogs k) :
    ∃ j w, IsLastWrite structLogs slot j k w ∧ v = slotRecord (some layout) slot w ∧
      ∀ initial failed, Survives structLogs failed j k →
        evmStorageAt structLogs initial failed k log slot = w := by
  have hk : k ≤ structLogs.length := (List.getElem?_eq_some_iff.mp hlog).1.le
  have hcaches : CachesLastWrite structLogs layout e slot k
      (stateBefore keccak256 registered a structLogs k) :=
    cachesLastWrite_stateBefore hlayout he k hk
  obtain ⟨-, hcached⟩ := hcaches
  have hlookup : (stateBefore keccak256 registered a structLogs k).storageState.lookup e.label =
      some v := by
    rw [reemittedAt, hlog] at hv
    dsimp only at hv
    cases hloc : a.resolvePc log.pc with
    | none =>
        rw [hloc] at hv
        cases hv
    | some loc =>
        rw [hloc] at hv
        exact mem_carriedForward hv
  obtain ⟨j, w, hlast, rfl⟩ := hcached v hlookup
  exact ⟨j, w, hlast, rfl, fun initial failed hsurvives =>
    evmStorageAt_of_survives hlog hlast hsurvives⟩

/-! ## §4  A rolled-back write -/

def counterEntry : StorageEntry := { label := "x", slot := "0", offset := 0, typeName := "t_uint256" }

def counterLayout : StorageLayout :=
  { storage := [counterEntry],
    types := [("t_uint256", { encoding := "inplace", label := "uint256", numberOfBytes := "32" })] }

/-- `JUMPDEST`, `CALL`, `SSTORE` and `REVERT` on the first line, `JUMPDEST` on the
second. -/
def counterArtifacts : Artifacts :=
  singleArtifacts (SourceMap.parse "0:5:0:-;;;;8:5") [0x5b, 0xf1, 0x55, 0xfd, 0x5b]
    [⟨["C.sol"]⟩] ["call();\nx = 5;"] (some counterLayout) none

theorem wholeSlot_counterEntry : WholeSlot counterLayout counterEntry 0 where
  mem := List.mem_singleton.mpr rfl
  slot_eq := by decide
  slot_unique := fun _ h _ => List.mem_singleton.mp h
  label_unique := fun _ h _ => List.mem_singleton.mp h
  fills := ⟨_, rfl, rfl⟩
  identifier := by decide

def counterLog (depth pc : Nat) (op : String) (stack : List U256) : StructLog :=
  { pc, op, depth, stack := some stack }

/-- `x` is written in the outermost frame, then the line changes. -/
def keptWrite : List StructLog :=
  [counterLog 1 0 "JUMPDEST" [], counterLog 1 2 "SSTORE" [5, 0], counterLog 1 4 "JUMPDEST" []]

theorem reemitted_is_last_write_keptWrite :
    ∃ j w, IsLastWrite keptWrite 0 j 2 w ∧
      slotRecord (some counterLayout) 0 5 = slotRecord (some counterLayout) 0 w ∧
      ∀ initial failed, Survives keptWrite failed j 2 →
        evmStorageAt keptWrite initial failed 2 (counterLog 1 4 "JUMPDEST" []) 0 = w :=
  reemitted_is_last_write (fun _ => 0) [] counterArtifacts keptWrite rfl wholeSlot_counterEntry
    rfl (by decide)

/-- `x` is written in an inner frame that reverts. -/
def revertedWrite : List StructLog :=
  [counterLog 1 1 "CALL" [], counterLog 2 2 "SSTORE" [5, 0], counterLog 2 3 "REVERT" [0, 0],
    counterLog 1 4 "JUMPDEST" []]

/-- The reverted write is carried forward, while the slot is back at zero. -/
theorem reemitted_revertedWrite :
    reemittedAt (fun _ => 0) [] counterArtifacts revertedWrite 3 =
        [("x", slotRecord (some counterLayout) 0 5)] ∧
      evmStorageAt revertedWrite (fun _ => 0) (fun k l => k = 3 && l = 2) 3
        (counterLog 1 4 "JUMPDEST" []) 0 = 0 := by
  decide

end Recorder

end EvmRecorder
