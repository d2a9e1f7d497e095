import EvmRecorder.Recorder.OpenCalls

/-!
# Jump markers at unresolved locations

Jump markers are handled at resolved locations only, so a call and its return
are registered together only if both locations resolve or neither does; the
absorbed call and the return that closes it count as unregistered. On a trace of
one frame with nested markers this is exactly when the open calls stay balanced.
-/

namespace EvmRecorder

open Brackets

/-! ## §1  Traces of one frame -/

/-- The markers of the source map, by log index. -/
def sourceMarkerAt (a : Artifacts) (structLogs : List StructLog) (i : ℕ) : JumpType :=
  structLogs[i]?.elim .regular (sourceMarker a)

/-- The location of log `i` resolves. -/
def Resolves (a : Artifacts) (structLogs : List StructLog) (i : ℕ) : Prop :=
  (structLogs[i]?.bind fun log => a.resolvePc log.pc).isSome

instance (a : Artifacts) (structLogs : List StructLog) (i : ℕ) :
    Decidable (Resolves a structLogs i) := inferInstanceAs (Decidable (_ = true))

/-- A trace of one frame whose markers are nested: no `OutOf` without an `Into`
before it. -/
structure NestedFrame (a : Artifacts) (structLogs : List StructLog) (depth : Nat) : Prop where
  positive : 1 ≤ depth
  constant : ∀ log ∈ structLogs, log.depth = depth
  nested : ∀ n ≤ structLogs.length, 0 ≤ height (signs (sourceMarkerAt a structLogs)) n

instance (a : Artifacts) (structLogs : List StructLog) (depth : Nat) :
    Decidable (NestedFrame a structLogs depth) :=
  decidable_of_iff
    (1 ≤ depth ∧ (∀ log ∈ structLogs, log.depth = depth) ∧
      ∀ n ≤ structLogs.length, 0 ≤ height (signs (sourceMarkerAt a structLogs)) n)
    ⟨fun h => ⟨h.1, h.2.1, h.2.2⟩, fun h => ⟨h.positive, h.constant, h.nested⟩⟩

theorem markerAt_callTrace (a : Artifacts) (structLogs : List StructLog) (i : ℕ) :
    markerAt (callTrace a structLogs) i =
      if Resolves a structLogs i then sourceMarkerAt a structLogs i else .regular := by
  cases hlog : structLogs[i]? with
  | none => simp [markerAt, callTrace, sourceMarkerAt, hlog]
  | some log => simp [markerAt, callTrace, sourceMarkerAt, hlog, Resolves, processedMarker]

/-- An `Into` at log `i` registers a call: its location resolves and it is not
the absorbed one, the first that resolves. -/
def RegistersCall (a : Artifacts) (structLogs : List StructLog) (i : ℕ) : Prop :=
  Resolves a structLogs i ∧ ¬ IsFirstInto (markerAt (callTrace a structLogs)) i

/-- An `OutOf` at log `i` registers a return: its location resolves and it does
not close the absorbed call among the markers that resolve. -/
def RegistersReturn (a : Artifacts) (structLogs : List StructLog) (i : ℕ) : Prop :=
  Resolves a structLogs i ∧ ¬ IsAbsorbedReturn (markerAt (callTrace a structLogs)) i

instance (a : Artifacts) (structLogs : List StructLog) (i : ℕ) :
    Decidable (RegistersCall a structLogs i) := inferInstanceAs (Decidable (_ ∧ _))

instance (a : Artifacts) (structLogs : List StructLog) (i : ℕ) :
    Decidable (RegistersReturn a structLogs i) := inferInstanceAs (Decidable (_ ∧ _))

section Contributions

variable {a : Artifacts} {structLogs : List StructLog} {i : ℕ}

theorem contribution_of_into (h : sourceMarkerAt a structLogs i = .into) :
    contribution (markerAt (callTrace a structLogs)) i =
      if RegistersCall a structLogs i then 1 else 0 := by
  have hmarker := markerAt_callTrace a structLogs i
  unfold contribution RegistersCall
  by_cases hres : Resolves a structLogs i
  · rw [if_pos hres, h] at hmarker
    simp [hmarker, hres]
  · rw [if_neg hres] at hmarker
    simp [hmarker, hres]

theorem contribution_of_outOf (h : sourceMarkerAt a structLogs i = .outOf) :
    contribution (markerAt (callTrace a structLogs)) i =
      if RegistersReturn a structLogs i then -1 else 0 := by
  have hmarker := markerAt_callTrace a structLogs i
  unfold contribution RegistersReturn
  by_cases hres : Resolves a structLogs i
  · rw [if_pos hres, h] at hmarker
    simp [hmarker, hres]
  · rw [if_neg hres] at hmarker
    simp [hmarker, hres]

theorem contribution_of_regular (h : sourceMarkerAt a structLogs i = .regular) :
    contribution (markerAt (callTrace a structLogs)) i = 0 := by
  have hmarker := markerAt_callTrace a structLogs i
  rw [h, ite_self] at hmarker
  simp [contribution, hmarker]

/-- The contributions of a pair cancel iff both register or neither does. -/
theorem contribution_pair {x y : ℕ}
    (hmatch : Matched (signs (sourceMarkerAt a structLogs)) x y) :
    contribution (markerAt (callTrace a structLogs)) x +
        contribution (markerAt (callTrace a structLogs)) y = 0 ↔
      (RegistersCall a structLogs x ↔ RegistersReturn a structLogs y) := by
  rw [contribution_of_into (signs_eq_one_iff.mp hmatch.2.1),
    contribution_of_outOf (signs_eq_neg_one_iff.mp (hmatch.closing unitSteps_signs))]
  by_cases hcall : RegistersCall a structLogs x
  · by_cases hret : RegistersReturn a structLogs y <;> simp [hcall, hret]
  · by_cases hret : RegistersReturn a structLogs y <;> simp [hcall, hret]

end Contributions

/-- Pairs lie inside the trace. -/
theorem lt_length_of_matched {a : Artifacts} {structLogs : List StructLog} {x y : ℕ}
    (hmatch : Matched (signs (sourceMarkerAt a structLogs)) x y) : y < structLogs.length := by
  by_contra hge
  have hclose := signs_eq_neg_one_iff.mp (hmatch.closing unitSteps_signs)
  rw [sourceMarkerAt, List.getElem?_eq_none (Nat.le_of_not_lt hge)] at hclose
  cases hclose

/-! ## §2  Open calls of a recording -/

namespace Recorder

section Frame

variable (keccak256 : List UInt8 → U256) (registered : List Path) {a : Artifacts}
  {structLogs : List StructLog} {depth : Nat}

/-- Entering at a depth above 1 registers one call, before the first marker. -/
def entryCall (depth : Nat) : ℤ := if depth = 1 then 0 else 1

/-- Open calls after the depth change at log `k`, which are those after log
`k - 1`. -/
def frameCalls (a : Artifacts) (structLogs : List StructLog) (depth : Nat) (k : ℕ) : ℤ :=
  entryCall depth + ∑ i ∈ Finset.range k, contribution (markerAt (callTrace a structLogs)) i

theorem frameCalls_succ (k : ℕ) : frameCalls a structLogs depth (k + 1) =
    frameCalls a structLogs depth k + contribution (markerAt (callTrace a structLogs)) k := by
  rw [frameCalls, frameCalls, Finset.sum_range_succ, add_assoc]

/-- The depths of the frame, with the depth 1 that the recorder starts from. -/
theorem isChain_depths {R : ℕ → ℕ → Prop} (hframe : NestedFrame a structLogs depth)
    (henter : R 1 depth) (hstay : R depth depth) :
    (1 :: (callTrace a structLogs).map (·.1)).IsChain R := by
  have hdepths : (callTrace a structLogs).map (·.1) = List.replicate structLogs.length depth := by
    rw [depths_callTrace]
    exact List.map_eq_replicate_iff.mpr fun log hlog => hframe.constant log hlog
  rw [hdepths]
  cases structLogs with
  | nil => exact .singleton _
  | cons log rest =>
      have hrest : (List.replicate (rest.length + 1) depth).IsChain R :=
        List.isChain_replicate_of_rel _ hstay
      rw [List.length_cons, List.replicate_succ] at *
      exact .cons_cons henter hrest

theorem openCalls_eventsAtEntry_frame (hframe : NestedFrame a structLogs depth) {k : ℕ}
    (hk : k < structLogs.length) :
    openCalls (eventsAtEntry keccak256 registered a structLogs k) =
      frameCalls a structLogs depth k := by
  have henter : balance (depthCalls 1 depth) = entryCall depth - entryCall 1 := by
    rcases Nat.eq_or_lt_of_le hframe.positive with rfl | hlt
    · rfl
    · rw [depthCalls, if_pos hlt, entryCall, if_neg (Nat.ne_of_gt hlt)]
      rfl
  have hstay : balance (depthCalls depth depth) = entryCall depth - entryCall depth := by
    rw [depthCalls, if_neg (lt_irrefl _), Nat.sub_self, sub_self]
    rfl
  have hlog : (callTrace a structLogs)[k]? =
      some (structLogs[k].depth, processedMarker a structLogs[k]) :=
    getElem?_callTrace (List.getElem?_eq_getElem hk)
  have hchain := isChain_depths (R := fun p d => balance (depthCalls p d) = entryCall d - entryCall p)
    hframe henter hstay
  rw [openCalls_eventsAtEntry, entryBalance_eq rfl hchain k _ hlog]
  show entryCall structLogs[k].depth + _ = _
  rw [hframe.constant _ (List.getElem_mem hk), frameCalls]

theorem openCalls_eventsBefore_frame (hframe : NestedFrame a structLogs depth) {k : ℕ}
    (hk : k < structLogs.length) :
    openCalls (eventsBefore keccak256 registered a structLogs (k + 1)) =
      frameCalls a structLogs depth (k + 1) := by
  rw [openCalls_eventsBefore_succ _ _ _ _ hk, openCalls_eventsAtEntry_frame _ _ hframe hk,
    frameCalls_succ]

/-! ## §3  Balance -/

/-- After each `OutOf` there are as many open calls as before its `Into`. -/
def PairsRestore (a : Artifacts) (structLogs : List StructLog) : Prop :=
  ∀ x y, Matched (signs (sourceMarkerAt a structLogs)) x y →
    openCalls (eventsBefore keccak256 registered a structLogs (y + 1)) =
      openCalls (eventsAtEntry keccak256 registered a structLogs x)

/-- No prefix of the events has more returns than calls. -/
def NeverBelow (a : Artifacts) (structLogs : List StructLog) : Prop :=
  ∀ p, p <+: recordFromStructlog keccak256 registered a structLogs → 0 ≤ openCalls p

/-- Of each pair of markers both register, or neither does. -/
def PairsAgree (a : Artifacts) (structLogs : List StructLog) : Prop :=
  ∀ x y, Matched (signs (sourceMarkerAt a structLogs)) x y →
    (RegistersCall a structLogs x ↔ RegistersReturn a structLogs y)

theorem contribution_neutral (i : ℕ) (hi : signs (sourceMarkerAt a structLogs) i = 0) :
    contribution (markerAt (callTrace a structLogs)) i = 0 :=
  contribution_of_regular (signs_eq_zero_iff.mp hi)

theorem frameCalls_level_iff (depth : Nat) :
    (∀ x y, y < structLogs.length → Matched (signs (sourceMarkerAt a structLogs)) x y →
        frameCalls a structLogs depth (y + 1) = frameCalls a structLogs depth x) ↔
      PairsAgree a structLogs := by
  rw [pairs_level_iff unitSteps_signs (fun i _ => frameCalls_succ i)
    (fun i _ => contribution_neutral i)]
  constructor
  · intro h x y hmatch
    exact (contribution_pair hmatch).mp (h x y (lt_length_of_matched hmatch) hmatch)
  · intro h x y _ hmatch
    exact (contribution_pair hmatch).mpr (h x y hmatch)

theorem pairsRestore_iff (hframe : NestedFrame a structLogs depth) :
    PairsRestore keccak256 registered a structLogs ↔ PairsAgree a structLogs := by
  rw [← frameCalls_level_iff depth]
  constructor
  · intro h x y hy hmatch
    have hrestore := h x y hmatch
    rwa [openCalls_eventsBefore_frame _ _ hframe hy,
      openCalls_eventsAtEntry_frame _ _ hframe (Nat.lt_trans hmatch.1 hy)] at hrestore
  · intro h x y hmatch
    have hy := lt_length_of_matched hmatch
    rw [openCalls_eventsBefore_frame _ _ hframe hy,
      openCalls_eventsAtEntry_frame _ _ hframe (Nat.lt_trans hmatch.1 hy)]
    exact h x y hy hmatch

theorem frameCalls_nonneg (hframe : NestedFrame a structLogs depth)
    (hagree : PairsAgree a structLogs) {i : ℕ} (hi : i ≤ structLogs.length) :
    0 ≤ frameCalls a structLogs depth i := by
  have hopen : ∀ i, i < structLogs.length → signs (sourceMarkerAt a structLogs) i = 1 →
      0 ≤ contribution (markerAt (callTrace a structLogs)) i := by
    intro i _ hi
    rw [contribution_of_into (signs_eq_one_iff.mp hi)]
    split <;> decide
  have hle := start_le_of_pairs_level unitSteps_signs (fun i _ => frameCalls_succ i)
    (fun i _ => contribution_neutral i) hopen ((frameCalls_level_iff depth).mpr hagree)
    hframe.nested i hi
  have hstart : 0 ≤ frameCalls a structLogs depth 0 := by
    rw [frameCalls, Finset.range_zero, Finset.sum_empty, add_zero, entryCall]
    split <;> decide
  exact hstart.trans hle

theorem neverBelow_of_pairsAgree (hframe : NestedFrame a structLogs depth)
    (hagree : PairsAgree a structLogs) : NeverBelow keccak256 registered a structLogs := by
  intro p hp
  have hprefix := hp.filterMap TraceEvent.callEvent
  have hlength : (callTrace a structLogs).length = structLogs.length := List.length_map _
  rw [callEvents_recordFromStructlog] at hprefix
  refine balance_prefix_nonneg (isChain_depths hframe hframe.positive (Nat.le_refl depth))
    ?_ ?_ hprefix
  · intro k hk
    rw [hlength] at hk
    rw [← openCalls_eventsAtEntry keccak256 registered,
      openCalls_eventsAtEntry_frame _ _ hframe hk]
    exact frameCalls_nonneg hframe hagree hk.le
  · intro k hk
    rw [hlength] at hk
    cases k with
    | zero =>
        rw [Machine.outputBefore_zero]
        exact le_refl _
    | succ k =>
        rw [← openCalls_eventsBefore keccak256 registered,
          openCalls_eventsBefore_frame _ _ hframe hk]
        exact frameCalls_nonneg hframe hagree hk

end Frame

/-- On a trace of one frame with nested markers the open calls are balanced iff
of each pair of markers both register, or neither does. -/
theorem balanced_iff_pairsAgree (keccak256 : List UInt8 → U256) (registered : List Path)
    (a : Artifacts) (structLogs : List StructLog) {depth : Nat}
    (hframe : NestedFrame a structLogs depth) :
    (NeverBelow keccak256 registered a structLogs ∧ PairsRestore keccak256 registered a structLogs) ↔
      PairsAgree a structLogs := by
  constructor
  · rintro ⟨-, hrestore⟩
    exact (pairsRestore_iff keccak256 registered hframe).mp hrestore
  · intro hagree
    exact ⟨neverBelow_of_pairsAgree keccak256 registered hframe hagree,
      (pairsRestore_iff keccak256 registered hframe).mpr hagree⟩

/-- Jumps into and out of functions, the last two of a compiler-generated
helper. -/
def helperArtifacts : Artifacts :=
  singleArtifacts (SourceMap.parse "0:8:0:i;:::o;::-1:i;:::o") [0x56, 0x56, 0x56, 0x56]
    [⟨["C.sol"]⟩] ["contract C {}"] none none

def helperLog (pc : Nat) : StructLog := { pc, depth := 1, op := "JUMP" }

/-- The helper is entered and left by its own jumps. -/
theorem balanced_helperInside :
    NeverBelow (fun _ => 0) [] helperArtifacts ([0, 0, 2, 3, 1, 1].map helperLog) ∧
      PairsRestore (fun _ => 0) [] helperArtifacts ([0, 0, 2, 3, 1, 1].map helperLog) := by
  have hpairs : ∀ y < 6, ∀ x < y,
      Matched (signs (sourceMarkerAt helperArtifacts ([0, 0, 2, 3, 1, 1].map helperLog))) x y →
        (RegistersCall helperArtifacts ([0, 0, 2, 3, 1, 1].map helperLog) x ↔
          RegistersReturn helperArtifacts ([0, 0, 2, 3, 1, 1].map helperLog) y) := by
    decide
  have hframe : NestedFrame helperArtifacts ([0, 0, 2, 3, 1, 1].map helperLog) 1 := by decide
  exact (balanced_iff_pairsAgree (fun _ => 0) [] helperArtifacts _ hframe).mpr
    fun x y hmatch => hpairs y (lt_length_of_matched hmatch) x hmatch.1 hmatch

/-- The helper is entered from mapped code and returns from unmapped code: its call is
still open after that return. -/
theorem unbalanced_helperReturn :
    NestedFrame helperArtifacts ([0, 0, 3, 1].map helperLog) 1 ∧
      ¬ (NeverBelow (fun _ => 0) [] helperArtifacts ([0, 0, 3, 1].map helperLog) ∧
        PairsRestore (fun _ => 0) [] helperArtifacts ([0, 0, 3, 1].map helperLog)) :=
  ⟨by decide, fun h => absurd (h.2 1 2 (by decide)) (by decide)⟩

end Recorder

end EvmRecorder
