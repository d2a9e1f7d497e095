import EvmRecorder.MultiRecorder.Frames
import EvmRecorder.Recorder.CarryForward

/-!
# Storage variables carried forward, per frame

The multi-contract recorder keeps one storage cache per call depth, fresh when a
frame is entered and dropped when it is left. What it re-emits is therefore what
the executing frame has written itself, in the storage context of that frame; a
write by another frame in the same storage context is not seen.
-/

namespace EvmRecorder.MultiRecorder

open Stack Levels Bytes Numeral

/-! ## §1  Writes of a frame -/

section Trace

variable (structLogs : List StructLog)

/-- The frame that executes log `j` at depth `d` is still open before log `k`. -/
def OpenSince (d j k : Nat) : Prop :=
  ∀ t log, j ≤ t → t < k → structLogs[t]? = some log → d ≤ log.depth

/-- Log `j` writes `w` to `slot`, in the frame of depth `d` that is open before
log `k`. -/
structure OwnWrite (d j k : Nat) (slot w : U256) : Prop where
  before : j < k
  openSince : OpenSince structLogs d j k
  writes : ∃ log, structLogs[j]? = some log ∧ log.depth = d ∧ storageWrite log = some (slot, w)

/-- And the frame has not written to the slot since. -/
structure IsLastOwnWrite (d : Nat) (slot : U256) (j k : Nat) (w : U256) : Prop
    extends OwnWrite structLogs d j k slot w where
  last : ∀ t log v, j < t → t < k → structLogs[t]? = some log → log.depth = d →
    storageWrite log ≠ some (slot, v)

/-- A word the frame has written, or zero. -/
def OwnWord (d k : Nat) (r : String) : Prop :=
  r = hexWord 0 ∨ ∃ j slot w, OwnWrite structLogs d j k slot w ∧ r = hexWord w

variable {structLogs} {d j k : Nat} {slot w : U256} {log : StructLog}

theorem openSince_succ (hlog : structLogs[k]? = some log) (hd : d ≤ log.depth)
    (h : OpenSince structLogs d j k) : OpenSince structLogs d j (k + 1) := by
  intro t log' hjt htk hlog'
  rcases Nat.lt_succ_iff_lt_or_eq.mp htk with htk | rfl
  · exact h t log' hjt htk hlog'
  · rw [hlog] at hlog'
    rw [← Option.some.inj hlog']
    exact hd

theorem OwnWrite.succ (hlog : structLogs[k]? = some log) (hd : d ≤ log.depth)
    (h : OwnWrite structLogs d j k slot w) : OwnWrite structLogs d j (k + 1) slot w :=
  ⟨Nat.lt_succ_of_lt h.before, openSince_succ hlog hd h.openSince, h.writes⟩

theorem ownWrite_self (hlog : structLogs[k]? = some log)
    (hwrite : storageWrite log = some (slot, w)) :
    OwnWrite structLogs log.depth k (k + 1) slot w := by
  refine ⟨Nat.lt_succ_self k, ?_, log, hlog, rfl, hwrite⟩
  intro t log' hkt htk hlog'
  obtain rfl : t = k := Nat.le_antisymm (Nat.lt_succ_iff.mp htk) hkt
  rw [hlog] at hlog'
  rw [Option.some.inj hlog']

/-- The last write before the next log: this log's, or the last one so far if
this log does not write to the slot. -/
theorem isLastOwnWrite_succ_iff (hlog : structLogs[k]? = some log) (hd : d ≤ log.depth) :
    (∃ j, IsLastOwnWrite structLogs d slot j (k + 1) w) ↔
      (log.depth = d ∧ storageWrite log = some (slot, w)) ∨
        (¬ (log.depth = d ∧ ∃ v, storageWrite log = some (slot, v))) ∧
          ∃ j, IsLastOwnWrite structLogs d slot j k w := by
  constructor
  · rintro ⟨j, hlast⟩
    rcases Nat.lt_succ_iff_lt_or_eq.mp hlast.before with hjk | rfl
    · refine .inr ⟨?_, j, ⟨hjk, ?_, hlast.writes⟩, ?_⟩
      · rintro ⟨hdepth, v, hwrite⟩
        exact hlast.last k log v hjk (Nat.lt_succ_self k) hlog hdepth hwrite
      · intro t log' hjt htk
        exact hlast.openSince t log' hjt (Nat.lt_succ_of_lt htk)
      · intro t log' v hjt htk
        exact hlast.last t log' v hjt (Nat.lt_succ_of_lt htk)
    · obtain ⟨log', hlog', hdepth, hwrite⟩ := hlast.writes
      rw [hlog] at hlog'
      obtain rfl := Option.some.inj hlog'
      exact .inl ⟨hdepth, hwrite⟩
  · rintro (⟨rfl, hwrite⟩ | ⟨hnone, j, hlast⟩)
    · refine ⟨k, ownWrite_self hlog hwrite, ?_⟩
      intro t log' v hkt htk
      exact absurd htk (Nat.not_lt.mpr hkt)
    · refine ⟨j, hlast.toOwnWrite.succ hlog hd, ?_⟩
      intro t log' v hjt htk hlog' hdepth hwrite
      rcases Nat.lt_succ_iff_lt_or_eq.mp htk with htk | rfl
      · exact hlast.last t log' v hjt htk hlog' hdepth hwrite
      · rw [hlog] at hlog'
        obtain rfl := Option.some.inj hlog'
        exact hnone ⟨hdepth, v, hwrite⟩

theorem OwnWord.succ (hlog : structLogs[k]? = some log) (hd : d ≤ log.depth) {r : String}
    (h : OwnWord structLogs d k r) : OwnWord structLogs d (k + 1) r := by
  rcases h with h | ⟨j, slot, w, hwrite, h⟩
  · exact .inl h
  · exact .inr ⟨j, slot, w, hwrite.succ hlog hd, h⟩

/-- A frame just entered has written nothing. -/
theorem not_ownWrite_of_depthBefore {p : Nat}
    (hp : DepthBefore (structLogs.map (·.depth)) k p) (hd : p < d) :
    ¬ OwnWrite structLogs d j k slot w := by
  intro h
  obtain ⟨k, rfl⟩ : ∃ n, k = n + 1 := Nat.exists_eq_succ_of_ne_zero (Nat.ne_of_gt
    (Nat.lt_of_le_of_lt (Nat.zero_le j) h.before))
  rw [DepthBefore, List.getElem?_cons_succ, List.getElem?_map] at hp
  obtain ⟨log, hlog, rfl⟩ := Option.map_eq_some_iff.mp hp
  have hle : d ≤ log.depth :=
    h.openSince k log (Nat.lt_succ_iff.mp h.before) (Nat.lt_succ_self k) hlog
  exact absurd hd (Nat.not_lt.mpr hle)

end Trace

/-! ## §2  The words of cached records -/

/-- The words a record shows. -/
def recordWords : ValueRecord → List String
  | .raw value => [value.r]
  | .int i _ => [hexWord (BitVec.ofNat 256 i)]
  | .struct fieldValues _ => fieldValues.map (·.r)
  | .sequence elements _ _ => elements.map (·.r)

theorem mem_of_mapM_eq_some {α β : Type} {f : α → Option β} {y : β} :
    ∀ {xs : List α} {ys : List β}, xs.mapM f = some ys → y ∈ ys → ∃ x ∈ xs, f x = some y
  | [], ys, h, hy => by
      obtain rfl : [] = ys := Option.some.inj h
      cases hy
  | x :: xs, ys, h, hy => by
      rw [List.mapM_cons] at h
      obtain ⟨y', hy', h⟩ := Option.bind_eq_some_iff.mp h
      obtain ⟨ys', hys', h⟩ := Option.bind_eq_some_iff.mp h
      obtain rfl := Option.some.inj h
      rcases List.mem_cons.mp hy with rfl | hy
      · exact ⟨x, List.mem_cons_self, hy'⟩
      · obtain ⟨x', hx', hfx⟩ := mem_of_mapM_eq_some hys' hy
        exact ⟨x', List.mem_cons_of_mem x hx', hfx⟩

/-- The words of a compound are cached slot values, or zero. -/
theorem recordWords_buildCompoundValue {parentTi : StorageTypeInfo} {baseSlot slotCount : Nat}
    {slotValues : SlotValues} {compound : ValueRecord}
    (h : (buildCompoundValue parentTi baseSlot slotCount slotValues).2 = some compound)
    {r : String} (hr : r ∈ recordWords compound) :
    ∃ slot, r = hexWord ((slotValues.lookup slot).getD 0) := by
  unfold buildCompoundValue at h
  split at h
  · obtain ⟨fields, hfields, rfl⟩ := Option.map_eq_some_iff.mp h
    obtain ⟨field, hfield, rfl⟩ := List.mem_map.mp hr
    obtain ⟨member, -, hmember⟩ := mem_of_mapM_eq_some hfields hfield
    obtain ⟨memberOffset, -, rfl⟩ := Option.map_eq_some_iff.mp hmember
    exact ⟨_, rfl⟩
  · split at h
    · obtain rfl := Option.some.inj h
      obtain ⟨element, helement, rfl⟩ := List.mem_map.mp hr
      obtain ⟨offset, -, rfl⟩ := List.mem_map.mp helement
      exact ⟨_, rfl⟩
    · cases h

theorem recordWords_writeSnapshot {layout : Option StorageLayout} {slot : U256}
    {slotValues : SlotValues} {label : String} {compound : ValueRecord}
    (h : (writeSnapshot layout slot slotValues).2 = some (label, compound)) {r : String}
    (hr : r ∈ recordWords compound) : ∃ slot, r = hexWord ((slotValues.lookup slot).getD 0) := by
  unfold writeSnapshot at h
  split at h
  · unfold compoundSnapshot at h
    split at h
    · obtain ⟨compound', hcompound, hpair⟩ := Option.map_eq_some_iff.mp h
      obtain ⟨-, rfl⟩ := Prod.mk.inj hpair
      exact recordWords_buildCompoundValue hcompound hr
    · cases h
  · cases h

theorem lookup_cacheSlotValue {layout : Option StorageLayout} {slot value : U256}
    {slotValues : SlotValues} {slot' : Nat} {w : U256}
    (h : (cacheSlotValue layout slot value slotValues).lookup slot' = some w) :
    w = value ∨ slotValues.lookup slot' = some w := by
  unfold cacheSlotValue at h
  split at h
  · next slotU64 _ _ =>
      by_cases hslot : slot' = slotU64
      · subst hslot
        rw [AList.lookup_insert] at h
        exact .inl (Option.some.inj h).symm
      · rw [AList.lookup_insert_ne hslot] at h
        exact .inr h
  · exact .inr h

/-- All words of the two caches satisfy `P`. -/
structure CachedWords (P : String → Prop) (storageState : NamedValues)
    (slotValues : SlotValues) : Prop where
  named : ∀ name v, storageState.lookup name = some v → ∀ r ∈ recordWords v, P r
  slots : ∀ slot w, slotValues.lookup slot = some w → P (hexWord w)

theorem CachedWords.mono {P Q : String → Prop} {storageState : NamedValues}
    {slotValues : SlotValues} (h : CachedWords P storageState slotValues)
    (hPQ : ∀ r, P r → Q r) : CachedWords Q storageState slotValues where
  named := fun name v hv r hr => hPQ r (h.named name v hv r hr)
  slots := fun slot w hw => hPQ _ (h.slots slot w hw)

/-- A write brings in no words but its own and zero. -/
theorem CachedWords.recordStorageWrite {P : String → Prop} {storageState : NamedValues}
    {slotValues : SlotValues} (h : CachedWords P storageState slotValues)
    (layout : Option StorageLayout) (names : MappingSlotNames) {slot value : U256}
    (hvalue : P (hexWord value)) (hzero : P (hexWord 0)) :
    CachedWords P (recordStorageWrite layout names slot value storageState slotValues).1
      (recordStorageWrite layout names slot value storageState slotValues).2.1 := by
  have hslots : ∀ slot' w, (cacheSlotValue layout slot value slotValues).lookup slot' = some w →
      P (hexWord w) := by
    intro slot' w hw
    rcases lookup_cacheSlotValue hw with rfl | hw
    · exact hvalue
    · exact h.slots slot' w hw
  have hinsert : ∀ (state : NamedValues) (name : String) (record : ValueRecord),
      (∀ name v, state.lookup name = some v → ∀ r ∈ recordWords v, P r) →
      (∀ r ∈ recordWords record, P r) →
      ∀ name' v, (state.insert name record).lookup name' = some v → ∀ r ∈ recordWords v, P r := by
    intro state name record hstate hrecord name' v hv
    by_cases hname : name' = name
    · subst hname
      rw [AList.lookup_insert] at hv
      rw [← Option.some.inj hv]
      exact hrecord
    · rw [AList.lookup_insert_ne hname] at hv
      exact hstate name' v hv
  have hwritten := hinsert storageState (storageVarName layout names slot)
    (slotRecord layout slot value) h.named (by
      intro r hr
      rw [List.mem_singleton.mp hr]
      exact hvalue)
  unfold EvmRecorder.recordStorageWrite
  dsimp only
  split
  · next label compound hsnapshot =>
      refine ⟨hinsert _ label compound hwritten ?_, hslots⟩
      intro r hr
      obtain ⟨slot', rfl⟩ := recordWords_writeSnapshot hsnapshot hr
      cases hlookup : (cacheSlotValue layout slot value slotValues).lookup slot' with
      | none => exact hzero
      | some w => exact hslots slot' w hlookup
  · exact ⟨hwritten, hslots⟩

/-! ## §3  The caches of a frame -/

/-- The caches of the frame of depth `d` before log `k`; `a` are the frame's
artifacts. -/
structure FrameCaches (structLogs : List StructLog) (a : Artifacts) (d k : Nat)
    (names : MappingSlotNames) (storageState : NamedValues) (slotValues : SlotValues) : Prop where
  indexed : Indexed names
  lastWrite : ∀ layout e slot, a.storageLayout = some layout → WholeSlot layout e slot →
    ∀ v, storageState.lookup e.label = some v ↔
      ∃ w, (∃ j, IsLastOwnWrite structLogs d slot j k w) ∧ v = slotRecord (some layout) slot w
  words : CachedWords (OwnWord structLogs d k) storageState slotValues

section Caches

variable {structLogs : List StructLog} {a : Artifacts} {d k : Nat} {names : MappingSlotNames}
  {storageState : NamedValues} {slotValues : SlotValues} {log : StructLog}

/-- A frame just entered has empty caches. -/
theorem frameCaches_entered (hnone : ∀ j slot w, ¬ OwnWrite structLogs d j k slot w) :
    FrameCaches structLogs a d k ∅ ∅ ∅ where
  indexed := indexed_empty
  lastWrite := by
    intro layout e slot _ _ v
    constructor
    · intro h
      cases h
    · rintro ⟨w, ⟨j, hlast⟩, -⟩
      exact absurd hlast.toOwnWrite (hnone j slot w)
  words := by
    constructor
    · intro name v h
      cases h
    · intro slot w h
      cases h

/-- A log that does not write in the frame leaves the caches as they are. -/
theorem FrameCaches.kept (h : FrameCaches structLogs a d k names storageState slotValues)
    (hlog : structLogs[k]? = some log) (hd : d ≤ log.depth)
    (hquiet : log.depth = d → storageWrite log = none) {names' : MappingSlotNames}
    (hnames : Indexed names') :
    FrameCaches structLogs a d (k + 1) names' storageState slotValues where
  indexed := hnames
  lastWrite := by
    intro layout e slot hlayout he v
    rw [h.lastWrite layout e slot hlayout he v]
    have hnone : ∀ w, ¬ (log.depth = d ∧ storageWrite log = some (slot, w)) := by
      rintro w ⟨hown, hwrite⟩
      rw [hquiet hown] at hwrite
      cases hwrite
    have hsame : ∀ w, (∃ j, IsLastOwnWrite structLogs d slot j (k + 1) w) ↔
        ∃ j, IsLastOwnWrite structLogs d slot j k w := by
      intro w
      rw [isLastOwnWrite_succ_iff hlog hd]
      constructor
      · rintro (hwrite | ⟨-, hlast⟩)
        · exact absurd hwrite (hnone w)
        · exact hlast
      · intro hlast
        refine .inr ⟨?_, hlast⟩
        rintro ⟨hown, v, hwrite⟩
        exact hnone v ⟨hown, hwrite⟩
    simp only [hsame]
  words := h.words.mono fun _ hr => hr.succ hlog hd

/-- A log of the frame itself that writes to a slot. -/
theorem FrameCaches.own_write (h : FrameCaches structLogs a d k names storageState slotValues)
    (hlog : structLogs[k]? = some log) (hd : log.depth = d) {other value : U256}
    (hwrite : storageWrite log = some (other, value)) {names' : MappingSlotNames}
    (hnames : Indexed names') :
    FrameCaches structLogs a d (k + 1) names'
      (recordStorageWrite a.storageLayout names' other value storageState slotValues).1
      (recordStorageWrite a.storageLayout names' other value storageState slotValues).2.1 where
  indexed := hnames
  lastWrite := by
    intro layout e slot hlayout he v
    rw [hlayout, he.lookup_recordStorageWrite hnames]
    have hsucc : ∀ w, (∃ j, IsLastOwnWrite structLogs d slot j (k + 1) w) ↔
        (other = slot ∧ value = w) ∨
          (other ≠ slot ∧ ∃ j, IsLastOwnWrite structLogs d slot j k w) := by
      intro w
      rw [isLastOwnWrite_succ_iff hlog hd.ge, hwrite]
      simp [hd]
    simp only [hsucc]
    by_cases hslot : other = slot
    · rw [if_pos hslot, Option.some.injEq]
      constructor
      · rintro rfl
        exact ⟨value, .inl ⟨hslot, rfl⟩, rfl⟩
      · rintro ⟨w, (⟨-, rfl⟩ | ⟨hne, -⟩), rfl⟩
        · rfl
        · exact absurd hslot hne
    · rw [if_neg hslot, h.lastWrite layout e slot hlayout he v]
      constructor
      · rintro ⟨w, hlast, rfl⟩
        exact ⟨w, .inr ⟨hslot, hlast⟩, rfl⟩
      · rintro ⟨w, (⟨heq, -⟩ | ⟨-, hlast⟩), rfl⟩
        · exact absurd heq hslot
        · exact ⟨w, hlast, rfl⟩
  words := by
    have hbefore : CachedWords (OwnWord structLogs d (k + 1)) storageState slotValues :=
      h.words.mono fun _ hr => hr.succ hlog hd.ge
    subst hd
    exact hbefore.recordStorageWrite a.storageLayout names'
      (.inr ⟨k, other, value, ownWrite_self hlog hwrite, rfl⟩) (.inl rfl)

end Caches

/-! ## §4  Runs -/

section Runs

variable (keccak256 : List UInt8 → U256) (registered : List Path) (registry : ContractRegistry)
  (contractAddress : Address) (structLogs : List StructLog)

/-- Every open frame has its caches. -/
def AllFrames (d k : Nat) (s : MultiRecorderState) : Prop :=
  ∀ l, 1 ≤ l → l ≤ d → FrameCaches structLogs
    (artifactsOn registry contractAddress (s.frameStack.take l)) l k
    (atLevel l ∅ s.mappingSlotNamesPerFrame) (atLevel l ∅ s.storageStates)
    (atLevel l ∅ s.slotValuesPerFrame)

/-- Before log `k`. -/
structure FramesBefore (k : Nat) (s : MultiRecorderState) : Prop where
  lockstep : Lockstep s.prevDepth s
  depth : DepthBefore (structLogs.map (·.depth)) k s.prevDepth
  frames : AllFrames registry contractAddress structLogs s.prevDepth k s

variable {keccak256 registered registry contractAddress structLogs}

theorem framesBefore_initial :
    FramesBefore registry contractAddress structLogs 0
      (initialState registered registry contractAddress) where
  lockstep := ⟨rfl, rfl, rfl, rfl⟩
  depth := rfl
  frames := by
    intro l hl hle
    obtain rfl : l = 1 := Nat.le_antisymm hle hl
    exact frameCaches_entered fun j _ _ hwrite => Nat.not_lt_zero j hwrite.before

/-- A change of depth: frames that stay open keep their caches. -/
theorem FramesBefore.enterDepth {k : Nat} {log : StructLog} {s : MultiRecorderState}
    (h : FramesBefore registry contractAddress structLogs k s)
    (hdepths : LegalDepths (structLogs.map (·.depth))) (hlog : structLogs[k]? = some log) :
    1 ≤ log.depth ∧ Lockstep log.depth (enterDepth structLogs k log s) ∧
      AllFrames registry contractAddress structLogs log.depth k (enterDepth structLogs k log s) := by
  obtain ⟨hpos, hrise⟩ := hdepths.rise h.depth (getElem?_depths hlog)
  have hresized := resized_enterDepth structLogs (i := k) h.lockstep hpos hrise
  refine ⟨hpos, hresized.lockstep, ?_⟩
  intro l hl hle
  rw [hresized.frameStack, hresized.storageStates, hresized.slotValuesPerFrame,
    hresized.mappingSlotNamesPerFrame]
  rcases Nat.lt_or_ge s.prevDepth l with hnew | hkept
  · -- only the frame just entered is deeper than the previous log
    obtain rfl : l = log.depth := by omega
    rw [atLevel_resize_new (by rw [h.lockstep.mappingSlotNamesPerFrame]; exact hnew),
      atLevel_resize_new (by rw [h.lockstep.storageStates]; exact hnew),
      atLevel_resize_new (by rw [h.lockstep.slotValuesPerFrame]; exact hnew)]
    exact frameCaches_entered fun _ _ _ => not_ownWrite_of_depthBefore h.depth hnew
  · rw [take_resize hle (by rw [h.lockstep.frameStack]; exact hkept),
      atLevel_resize_of_le hl hle (by rw [h.lockstep.mappingSlotNamesPerFrame]; exact hkept),
      atLevel_resize_of_le hl hle (by rw [h.lockstep.storageStates]; exact hkept),
      atLevel_resize_of_le hl hle (by rw [h.lockstep.slotValuesPerFrame]; exact hkept)]
    exact h.frames l hl hkept

theorem AllFrames.sameStorage {d k : Nat} {s s' : MultiRecorderState}
    (h : AllFrames registry contractAddress structLogs d k s) (hsame : SameStorage s s') :
    AllFrames registry contractAddress structLogs d k s' := by
  intro l hl hle
  rw [hsame.frameStack, hsame.storageStates, hsame.slotValuesPerFrame,
    hsame.mappingSlotNamesPerFrame]
  exact h l hl hle

/-- The log's own frame takes the write, the outer ones are as before. -/
theorem AllFrames.stored {k : Nat} {log : StructLog} {a : Artifacts} {s s' : MultiRecorderState}
    (h : AllFrames registry contractAddress structLogs log.depth k s)
    (hlog : structLogs[k]? = some log) (hpos : 1 ≤ log.depth) (hlen : Lockstep log.depth s)
    (ha : a = artifactsOn registry contractAddress s.frameStack)
    (hstored : Stored a log keccak256 s s') :
    AllFrames registry contractAddress structLogs log.depth (k + 1) s' := by
  intro l hl hle
  rw [hstored.frameStack]
  rcases Nat.lt_or_eq_of_le hle with hlt | rfl
  · obtain ⟨hstates, hvalues, hnames⟩ := hstored.below l hl hlt
    rw [hstates, hvalues, hnames]
    exact (h l hl hle).kept hlog hlt.le (fun hown => absurd hown (Nat.ne_of_gt hlt))
      (h l hl hle).indexed
  · have hown := h log.depth hpos (Nat.le_refl _)
    have htake : s.frameStack.take log.depth = s.frameStack :=
      List.take_of_length_le hlen.frameStack.le
    rw [htake, ← ha] at hown ⊢
    have hindexed : Indexed (atLevel log.depth ∅ s'.mappingSlotNamesPerFrame) := by
      rw [hstored.names]
      exact hown.indexed.recordMappingSlot keccak256 a.storageLayout log
    have hcaches := hstored.caches
    cases hwrite : storageWrite log with
    | none =>
        rw [hwrite] at hcaches
        obtain ⟨hstates, hvalues⟩ := Prod.mk.inj hcaches
        rw [hstates, hvalues]
        exact hown.kept hlog le_rfl (fun _ => hwrite) hindexed
    | some write =>
        obtain ⟨other, value⟩ := write
        rw [hwrite] at hcaches
        obtain ⟨hstates, hvalues⟩ := Prod.mk.inj hcaches
        rw [hstates, hvalues]
        exact hown.own_write hlog rfl hwrite hindexed

theorem FramesBefore.stepOf {k : Nat} {log : StructLog} {s : MultiRecorderState}
    (h : FramesBefore registry contractAddress structLogs k s)
    (hdepths : LegalDepths (structLogs.map (·.depth))) (hlog : structLogs[k]? = some log) :
    FramesBefore registry contractAddress structLogs (k + 1)
      (stepOf keccak256 registry contractAddress structLogs k log s).1 := by
  obtain ⟨hpos, hlen, hframes⟩ := h.enterDepth hdepths hlog
  have hsame := sameStorage_handleLocation
    (Recorder.mainPathOf (initialArtifacts registry contractAddress).sourcePaths) structLogs
    (artifactsOn registry contractAddress (MultiRecorder.enterDepth structLogs k log s).frameStack)
    k log (MultiRecorder.enterDepth structLogs k log s)
  obtain ⟨hstored, hlen'⟩ := stored_handleStorage keccak256
    (artifactsOn registry contractAddress (MultiRecorder.enterDepth structLogs k log s).frameStack)
    hpos (hsame.lockstep hlen)
  -- the step is the storage block, with the depth remembered
  have hstep : Stored (artifactsOn registry contractAddress
      (MultiRecorder.enterDepth structLogs k log s).frameStack) log keccak256 _
      (MultiRecorder.stepOf keccak256 registry contractAddress structLogs k log s).1 :=
    ⟨hstored.frameStack, hstored.below, hstored.names, hstored.caches⟩
  refine ⟨⟨hlen'.frameStack, hlen'.storageStates, hlen'.slotValuesPerFrame,
    hlen'.mappingSlotNamesPerFrame⟩, ?_, ?_⟩
  · exact getElem?_depths hlog
  · exact (hframes.sameStorage hsame).stored hlog hpos (hsame.lockstep hlen)
      (by rw [hsame.frameStack]) hstep

theorem framesBefore_stateBefore (hdepths : LegalDepths (structLogs.map (·.depth))) :
    ∀ k, k ≤ structLogs.length → FramesBefore registry contractAddress structLogs k
      (stateBefore keccak256 registered registry contractAddress structLogs k) := by
  refine Machine.invariant framesBefore_initial ?_
  intro k log s hlog h
  exact h.stepOf hdepths hlog

end Runs

/-! ## §5  Storage contexts -/

section Contexts

variable (structLogs : List StructLog) (root : Address) (created : Nat → Address)

/-- The storage context of the frame entered after `prevLog`: the caller's for
delegated code, `created` for a new contract. -/
def enteredContext (caller created : Address) (prevLog : Option StructLog) : Address :=
  let prevOp := (prevLog.map (·.op)).getD ""
  if prevOp = "DELEGATECALL" ∨ prevOp = "CALLCODE" then caller
  else if prevOp = "CREATE" ∨ prevOp = "CREATE2" then created
  else calleeAddress (prevLog.bind (·.stack))

/-- Depth, and the storage contexts of the open frames. -/
def contextStep (i : Nat) (log : StructLog) (s : Nat × List Address) :
    (Nat × List Address) × List Unit :=
  ((log.depth,
    if s.1 < log.depth then
      s.2 ++ [enteredContext (s.2.getLast?.getD root) (created i) (prevLogOf structLogs i)]
    else popN s.2 (s.1 - log.depth)), [])

/-- Before log `k`, that is, at log `k - 1`. -/
def contextsBefore (k : Nat) : Nat × List Address :=
  Machine.stateBefore (contextStep structLogs root created) structLogs (1, [root]) k

/-- The storage context of the frame that executes log `k`. -/
def contextAt (k : Nat) : Address :=
  (contextsBefore structLogs root created (k + 1)).2.getLast?.getD root

/-- The write of `w` at log `j` is the last one to `slot` in storage context
`context` before log `k`. -/
structure IsLastContextWrite (context : Address) (slot : U256) (j k : Nat) (w : U256) : Prop where
  before : j < k
  atContext : contextAt structLogs root created j = context
  writes : ∃ log, structLogs[j]? = some log ∧ storageWrite log = some (slot, w)
  last : ∀ t log v, j < t → t < k → structLogs[t]? = some log →
    contextAt structLogs root created t = context → storageWrite log ≠ some (slot, v)

variable {structLogs}

theorem contextsBefore_spec (hdepths : LegalDepths (structLogs.map (·.depth))) :
    ∀ k, k ≤ structLogs.length →
      DepthBefore (structLogs.map (·.depth)) k (contextsBefore structLogs root created k).1 ∧
        (contextsBefore structLogs root created k).2.length =
          (contextsBefore structLogs root created k).1
  | 0, _ => ⟨rfl, rfl⟩
  | k + 1, hk => by
      have hlog : structLogs[k]? = some structLogs[k] := List.getElem?_eq_getElem hk
      have hdepth : (structLogs.map (·.depth))[k]? = some structLogs[k].depth :=
        getElem?_depths hlog
      obtain ⟨hbefore, hlen⟩ := contextsBefore_spec hdepths k (Nat.le_of_lt hk)
      obtain ⟨-, hrise⟩ := hdepths.rise hbefore hdepth
      rw [contextsBefore, Machine.stateBefore_succ hlog, ← contextsBefore]
      refine ⟨hdepth, ?_⟩
      dsimp only [contextStep]
      split
      · rw [List.length_append, hlen, List.length_singleton]
        omega
      · rw [length_popN, hlen]
        omega

/-- A change of depth keeps the contexts of the frames that stay open. -/
theorem exists_contextsBefore_succ (hdepths : LegalDepths (structLogs.map (·.depth))) {k : Nat}
    {log : StructLog} (hlog : structLogs[k]? = some log) :
    ∃ entered, (contextsBefore structLogs root created (k + 1)).2 =
      resize log.depth entered (contextsBefore structLogs root created k).2 := by
  have hk : k ≤ structLogs.length := (List.getElem?_eq_some_iff.mp hlog).1.le
  obtain ⟨hbefore, hlen⟩ := contextsBefore_spec root created hdepths k hk
  obtain ⟨-, hrise⟩ := hdepths.rise hbefore (getElem?_depths hlog)
  rw [contextsBefore, Machine.stateBefore_succ hlog, ← contextsBefore]
  dsimp only [contextStep]
  split
  · next hlt => exact ⟨_, append_eq_resize (by omega)⟩
  · next hnot =>
      refine ⟨root, ?_⟩
      rw [← hlen]
      exact popN_eq_resize (by omega)

/-- All logs of a frame have its storage context: from log `j` on, the contexts
up to the frame stay as they are. -/
theorem contextAt_own (hdepths : LegalDepths (structLogs.map (·.depth))) {d j k : Nat}
    {slot w : U256} {log : StructLog} (hwrite : OwnWrite structLogs d j k slot w)
    (hlog : structLogs[k]? = some log) (hd : log.depth = d) :
    contextAt structLogs root created j = contextAt structLogs root created k := by
  have hk : k < structLogs.length := (List.getElem?_eq_some_iff.mp hlog).1
  obtain ⟨logj, hlogj, hdj, -⟩ := hwrite.writes
  have hkept : ∀ n, j < n → n ≤ k →
      d ≤ (contextsBefore structLogs root created n).2.length ∧
        (contextsBefore structLogs root created n).2.take d =
          (contextsBefore structLogs root created (j + 1)).2 := by
    intro n hjn
    induction n, hjn using Nat.le_induction with
    | base =>
        intro _
        obtain ⟨entered, hcontexts⟩ :=
          exists_contextsBefore_succ root created hdepths hlogj
        rw [hcontexts, hdj, length_resize]
        exact ⟨Nat.le_refl d, List.take_of_length_le (length_resize _ _ _).le⟩
    | succ n hjn ih =>
        intro hnk
        obtain ⟨hle, htake⟩ := ih (Nat.le_of_succ_le hnk)
        have hlogn : structLogs[n]? = some structLogs[n] :=
          List.getElem?_eq_getElem (Nat.lt_trans hnk hk)
        have hdn : d ≤ structLogs[n].depth :=
          hwrite.openSince n _ (Nat.le_of_lt hjn) hnk hlogn
        obtain ⟨entered, hcontexts⟩ :=
          exists_contextsBefore_succ root created hdepths hlogn
        rw [hcontexts, length_resize, take_resize hdn hle]
        exact ⟨hdn, htake⟩
  obtain ⟨hle, htake⟩ := hkept k hwrite.before (Nat.le_refl k)
  obtain ⟨entered, hcontexts⟩ :=
    exists_contextsBefore_succ root created hdepths hlog
  have hsame : (contextsBefore structLogs root created (k + 1)).2 =
      (contextsBefore structLogs root created (j + 1)).2 := by
    rw [← htake, ← take_resize (x := entered) (Nat.le_refl d) hle, ← hd, ← hcontexts,
      List.take_of_length_le (by rw [hcontexts, length_resize])]
  rw [contextAt, contextAt, hsame]

end Contexts

/-! ## §6  What is re-emitted -/

section Reemitted

variable (keccak256 : List UInt8 → U256) (registered : List Path) (registry : ContractRegistry)
  (contractAddress : Address) (structLogs : List StructLog)

/-- The artifacts of the frame that executes log `k`. -/
def artifactsAt (k : Nat) (log : StructLog) : Artifacts :=
  artifactsFor registry contractAddress structLogs k log
    (stateBefore keccak256 registered registry contractAddress structLogs k)

/-- The location recorded before log `k`, forgotten when the depth changes. -/
def prevLineAt (k : Nat) (log : StructLog) : Option SourceLocation :=
  (enterDepth structLogs k log
    (stateBefore keccak256 registered registry contractAddress structLogs k)).prevLine

/-- Log `k` is recorded at another line than the log before it. -/
def ChangesLine (k : Nat) (log : StructLog) : Prop :=
  ∃ loc, (artifactsAt keccak256 registered registry contractAddress structLogs k log).resolvePc
      log.pc = some loc ∧
    lineChanged (prevLineAt keccak256 registered registry contractAddress structLogs k log) loc

/-- The variables re-emitted at log `k`. -/
def reemittedAt (k : Nat) (log : StructLog) : List (String × ValueRecord) :=
  ((artifactsAt keccak256 registered registry contractAddress structLogs k log).resolvePc
    log.pc).elim [] fun loc =>
      carriedForward (prevLineAt keccak256 registered registry contractAddress structLogs k log) loc
        (atLevel log.depth ∅ (enterDepth structLogs k log
          (stateBefore keccak256 registered registry contractAddress structLogs k)).storageStates)

variable {keccak256 registered registry contractAddress structLogs}

/-- The variables cached for the executing frame. -/
def cachedAt (keccak256 : List UInt8 → U256) (registered : List Path)
    (registry : ContractRegistry) (contractAddress : Address) (structLogs : List StructLog)
    (k : Nat) (log : StructLog) : NamedValues :=
  atLevel log.depth ∅ (enterDepth structLogs k log
    (stateBefore keccak256 registered registry contractAddress structLogs k)).storageStates

theorem lookup_of_mem_reemittedAt {k : Nat} {log : StructLog} {name : String} {v : ValueRecord}
    (h : (name, v) ∈ reemittedAt keccak256 registered registry contractAddress structLogs k log) :
    (cachedAt keccak256 registered registry contractAddress structLogs k log).lookup name =
      some v := by
  unfold reemittedAt at h
  cases hloc : (artifactsAt keccak256 registered registry contractAddress structLogs k
      log).resolvePc log.pc with
  | none =>
      rw [hloc] at h
      cases h
  | some loc =>
      rw [hloc] at h
      exact mem_carriedForward h

/-- At a step onto another line everything cached is re-emitted. -/
theorem mem_reemittedAt_iff {k : Nat} {log : StructLog}
    (hline : ChangesLine keccak256 registered registry contractAddress structLogs k log)
    (name : String) (v : ValueRecord) :
    (name, v) ∈ reemittedAt keccak256 registered registry contractAddress structLogs k log ↔
      (cachedAt keccak256 registered registry contractAddress structLogs k log).lookup name =
        some v := by
  refine ⟨lookup_of_mem_reemittedAt, ?_⟩
  intro hcached
  obtain ⟨loc, hloc, hchanged⟩ := hline
  rw [reemittedAt, hloc]
  exact mem_carriedForward_of_lineChanged hchanged hcached

theorem frameCaches_cachedAt (hdepths : LegalDepths (structLogs.map (·.depth))) {k : Nat}
    {log : StructLog} (hlog : structLogs[k]? = some log) :
    ∃ names slotValues, FrameCaches structLogs
      (artifactsAt keccak256 registered registry contractAddress structLogs k log) log.depth k
      names (cachedAt keccak256 registered registry contractAddress structLogs k log)
      slotValues := by
  have hk : k ≤ structLogs.length := (List.getElem?_eq_some_iff.mp hlog).1.le
  have hbefore : FramesBefore registry contractAddress structLogs k
      (stateBefore keccak256 registered registry contractAddress structLogs k) :=
    framesBefore_stateBefore hdepths k hk
  obtain ⟨hpos, hlen, hframes⟩ := hbefore.enterDepth hdepths hlog
  have hcaches := hframes log.depth hpos (Nat.le_refl _)
  rw [List.take_of_length_le hlen.frameStack.le] at hcaches
  exact ⟨_, _, hcaches⟩

theorem IsLastOwnWrite.unique {d j j' k : Nat} {slot w w' : U256}
    (h : IsLastOwnWrite structLogs d slot j k w) (h' : IsLastOwnWrite structLogs d slot j' k w') :
    w = w' := by
  obtain ⟨log, hlog, hdepth, hwrite⟩ := h.writes
  obtain ⟨log', hlog', hdepth', hwrite'⟩ := h'.writes
  rcases Nat.lt_trichotomy j j' with hlt | rfl | hgt
  · exact absurd hwrite' (h.last j' log' w' hlt h'.before hlog' hdepth')
  · rw [hlog] at hlog'
    obtain rfl := Option.some.inj hlog'
    rw [hwrite] at hwrite'
    exact (Prod.mk.inj (Option.some.inj hwrite')).2
  · exact absurd hwrite (h'.last j log w hgt h.before hlog hdepth)

/-- What is re-emitted is recorded. -/
theorem reemittedAt_recorded {k : Nat} {log : StructLog} (hlog : structLogs[k]? = some log) :
    (reemittedAt keccak256 registered registry contractAddress structLogs k log).map
        variableEvent <:+:
      eventsBefore keccak256 registered registry contractAddress structLogs (k + 1) := by
  have hlocated : (reemittedAt keccak256 registered registry contractAddress structLogs k log).map
      variableEvent <:+:
      (handleLocation (Recorder.mainPathOf (initialArtifacts registry contractAddress).sourcePaths)
        structLogs (artifactsAt keccak256 registered registry contractAddress structLogs k log) k log
        (enterDepth structLogs k log
          (stateBefore keccak256 registered registry contractAddress structLogs k))).2 := by
    unfold reemittedAt handleLocation
    cases (artifactsAt keccak256 registered registry contractAddress structLogs k log).resolvePc
        log.pc with
    | none => exact List.nil_infix
    | some loc =>
        simp only [atLocation, List.append_assoc]
        apply List.infix_append_of_infix_left
        exact (carriedForward_suffix_emitStep _ _ _ _ _ _).isInfix
  rw [eventsBefore_succ _ _ _ _ _ hlog]
  -- behind the depth change, before storage and special events
  apply List.infix_append_of_infix_right
  apply List.infix_append_of_infix_left
  apply List.infix_append_of_infix_left
  apply List.infix_append_of_infix_right
  exact hlocated

/-- Other frames of the same storage context do not come into it. -/
theorem IsLastContextWrite.isLastOwnWrite (hdepths : LegalDepths (structLogs.map (·.depth)))
    {root : Address} {created : Nat → Address} {j k : Nat} {slot w : U256} {log : StructLog}
    (hlog : structLogs[k]? = some log)
    (h : IsLastContextWrite structLogs root created (contextAt structLogs root created k) slot j k w)
    (hown : OwnWrite structLogs log.depth j k slot w) :
    IsLastOwnWrite structLogs log.depth slot j k w := by
  refine ⟨hown, ?_⟩
  intro t log' v hjt htk hlog' hdepth hwrite
  have hownt : OwnWrite structLogs log.depth t k slot v :=
    ⟨htk, fun u log'' htu => hown.openSince u log'' (hjt.le.trans htu), log', hlog', hdepth, hwrite⟩
  exact h.last t log' v hjt htk hlog' (contextAt_own _ _ hdepths hownt hlog rfl) hwrite

end Reemitted

/-- **Carry-forward per frame.** At a step onto another line, a variable of a
whole slot is re-emitted exactly when the executing frame has written its slot,
with the value the frame wrote last. That is the last value written in the
frame's storage context if the last write there was the frame's own; and no word
of another storage context is re-emitted under any name. -/
theorem reemitted_is_own_write (keccak256 : List UInt8 → U256) (registered : List Path)
    (registry : ContractRegistry) (contractAddress : Address) (structLogs : List StructLog)
    (hdepths : LegalDepths (structLogs.map (·.depth))) (created : Nat → Address) {k : Nat}
    {log : StructLog} (hlog : structLogs[k]? = some log) :
    (∀ layout e slot,
      (artifactsAt keccak256 registered registry contractAddress structLogs k log).storageLayout =
        some layout → WholeSlot layout e slot →
      ChangesLine keccak256 registered registry contractAddress structLogs k log →
        (∀ v, (e.label, v) ∈
            reemittedAt keccak256 registered registry contractAddress structLogs k log ↔
          ∃ w, (∃ j, IsLastOwnWrite structLogs log.depth slot j k w) ∧
            v = slotRecord (some layout) slot w) ∧
        (∀ j w, IsLastContextWrite structLogs contractAddress created
            (contextAt structLogs contractAddress created k) slot j k w →
          OwnWrite structLogs log.depth j k slot w →
            ∀ v, (e.label, v) ∈
                reemittedAt keccak256 registered registry contractAddress structLogs k log ↔
              v = slotRecord (some layout) slot w)) ∧
    (∀ name v, (name, v) ∈
        reemittedAt keccak256 registered registry contractAddress structLogs k log →
      ∀ r ∈ recordWords v, r = hexWord 0 ∨ ∃ j slot w,
        OwnWrite structLogs log.depth j k slot w ∧
          contextAt structLogs contractAddress created j =
            contextAt structLogs contractAddress created k ∧
          r = hexWord w) := by
  have hframe : ∃ names slotValues, FrameCaches structLogs
      (artifactsAt keccak256 registered registry contractAddress structLogs k log) log.depth k
      names (cachedAt keccak256 registered registry contractAddress structLogs k log) slotValues :=
    frameCaches_cachedAt hdepths hlog
  obtain ⟨names, slotValues, hcaches⟩ := hframe
  constructor
  · intro layout e slot hlayout he hline
    have hown : ∀ v, (e.label, v) ∈
          reemittedAt keccak256 registered registry contractAddress structLogs k log ↔
        ∃ w, (∃ j, IsLastOwnWrite structLogs log.depth slot j k w) ∧
          v = slotRecord (some layout) slot w := by
      intro v
      rw [mem_reemittedAt_iff hline]
      exact hcaches.lastWrite layout e slot hlayout he v
    refine ⟨hown, ?_⟩
    intro j w hcontext hwrite v
    have hlast : IsLastOwnWrite structLogs log.depth slot j k w :=
      hcontext.isLastOwnWrite hdepths hlog hwrite
    rw [hown v]
    constructor
    · rintro ⟨w', ⟨j', hlast'⟩, rfl⟩
      rw [hlast'.unique hlast]
    · rintro rfl
      exact ⟨w, ⟨j, hlast⟩, rfl⟩
  · intro name v hv r hr
    rcases hcaches.words.named name v (lookup_of_mem_reemittedAt hv) r hr with
      hzero | ⟨j, slot, w, hwrite, rfl⟩
    · exact .inl hzero
    · exact .inr ⟨j, slot, w, hwrite, contextAt_own _ _ hdepths hwrite hlog rfl, rfl⟩

/-! ## §7  Another frame in the same storage context -/

/-- The contract of `counterArtifacts`. -/
def counterContract : ContractArtifacts :=
  { sourceMap := SourceMap.parse "0:5:0:-;;;;8:5"
    runtimeBytecode := [0x5b, 0xf1, 0x55, 0xfd, 0x5b]
    pcToIdx := [0, 1, 2, 3, 4]
    sourcePaths := [⟨["C.sol"]⟩]
    sourceContents := ["call();\nx = 5;"]
    storageLayout := some Recorder.counterLayout }

/-- A contract and the implementation that it delegates to. -/
def counterRegistry : ContractRegistry :=
  { contracts := [(1, counterContract), (2, counterContract)] }

/-- `x` is written by the contract, then by the code it delegates to, which moves to another
line. -/
def delegateKept : List StructLog :=
  [Recorder.counterLog 1 2 "SSTORE" [1, 0], Recorder.counterLog 1 1 "DELEGATECALL" [2, 0],
    Recorder.counterLog 2 2 "SSTORE" [5, 0], Recorder.counterLog 2 4 "JUMPDEST" [],
    Recorder.counterLog 1 4 "JUMPDEST" []]

/-- In the storage context of the contract, the delegate's own write is the last. -/
theorem reemitted_is_own_write_delegateKept :
    contextAt delegateKept 1 (fun _ => 0) 3 = 1 ∧
      ("x", slotRecord (some Recorder.counterLayout) 0 5) ∈
        reemittedAt (fun _ => 0) [] counterRegistry 1 delegateKept 3
          (Recorder.counterLog 2 4 "JUMPDEST" []) := by
  have hown : OwnWrite delegateKept 2 2 3 0 5 := by
    refine ⟨by decide, ?_, Recorder.counterLog 2 2 "SSTORE" [5, 0], rfl, rfl, by decide⟩
    intro u log h2u hu3 hlog
    obtain rfl : u = 2 := by omega
    obtain rfl := Option.some.inj hlog
    exact le_rfl
  have hlast : IsLastContextWrite delegateKept 1 (fun _ => 0)
      (contextAt delegateKept 1 (fun _ => 0) 3) 0 2 3 5 := by
    refine ⟨by decide, by decide, ⟨_, rfl, by decide⟩, ?_⟩
    intro t log v h2t ht3
    omega
  have hlog : delegateKept[3]? = some (Recorder.counterLog 2 4 "JUMPDEST" []) := rfl
  have hemitted := (reemitted_is_own_write (fun _ => 0) [] counterRegistry 1 delegateKept
    (by decide) (fun _ => 0) hlog).1 Recorder.counterLayout
      Recorder.counterEntry 0 (by decide) Recorder.wholeSlot_counterEntry
      ⟨⟨0, 2, 0⟩, by decide, by decide⟩
  exact ⟨by decide, (hemitted.2 2 5 hlast hown _).mpr rfl⟩

/-- `x` is written by the contract, then by the code it delegates to. -/
def delegateWrite : List StructLog :=
  [Recorder.counterLog 1 2 "SSTORE" [1, 0], Recorder.counterLog 1 1 "DELEGATECALL" [2, 0],
    Recorder.counterLog 2 2 "SSTORE" [2, 0], Recorder.counterLog 1 4 "JUMPDEST" []]

/-- The contract's own value is carried forward, while the last value written in
its storage context is the other one. -/
theorem reemitted_delegateWrite :
    reemittedAt (fun _ => 0) [] counterRegistry 1 delegateWrite 3
        (Recorder.counterLog 1 4 "JUMPDEST" []) =
      [("x", slotRecord (some Recorder.counterLayout) 0 1)] ∧
    IsLastContextWrite delegateWrite 1 (fun _ => 0) (contextAt delegateWrite 1 (fun _ => 0) 3) 0 2 3
      2 ∧
    slotRecord (some Recorder.counterLayout) 0 1 ≠ slotRecord (some Recorder.counterLayout) 0 2 := by
  refine ⟨by decide, ⟨by decide, by decide, ?_, ?_⟩, by decide⟩
  · exact ⟨_, rfl, by decide⟩
  · intro t log v h2t ht3
    omega

end EvmRecorder.MultiRecorder
