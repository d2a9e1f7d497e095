import EvmRecorder.Recorder.OpenCalls

/-!
# Open calls over a frame exit

A drop of the depth returns one call per level left, whatever internal calls the
left frames still have open. So the number of open calls is restored exactly
when, of the markers inside the left frames, as many calls as returns were
registered.
-/

namespace EvmRecorder

open Brackets

/-! ## §1  Frames of a trace -/

/-- Log `k` is the first one after a deeper frame that was entered from log `j`:
both have the same depth, everything between them is deeper. -/
def FrameExit (depths : List Nat) (j k : ℕ) : Prop :=
  j + 1 < k ∧ k < depths.length ∧ depths[j]? = depths[k]? ∧
    ∀ i ∈ Finset.Ioo j k, depths.getD k 0 < depths.getD i 0

instance (depths : List Nat) (j k : ℕ) : Decidable (FrameExit depths j k) :=
  inferInstanceAs (Decidable (_ ∧ _))

/-! ## §2  Markers inside the left frames -/

section Markers

variable (marker : ℕ → JumpType) (j k : ℕ)

/-- Internal calls registered between `j` and `k`. -/
def callsInside : Finset ℕ :=
  (Finset.Ioo j k).filter fun i => marker i = .into ∧ ¬ IsFirstInto marker i

/-- Internal returns registered between `j` and `k`. -/
def returnsInside : Finset ℕ :=
  (Finset.Ioo j k).filter fun i => marker i = .outOf ∧ ¬ IsAbsorbedReturn marker i

theorem sum_contribution_inside :
    ∑ i ∈ Finset.Ioo j k, contribution marker i =
      ((callsInside marker j k).card : ℤ) - (returnsInside marker j k).card := by
  have hsplit : ∀ i, contribution marker i =
      (if marker i = .into ∧ ¬ IsFirstInto marker i then 1 else 0) -
        (if marker i = .outOf ∧ ¬ IsAbsorbedReturn marker i then 1 else 0) := by
    intro i
    unfold contribution
    by_cases hinto : marker i = .into ∧ ¬ IsFirstInto marker i
    · have hout : ¬ (marker i = .outOf ∧ ¬ IsAbsorbedReturn marker i) := by simp [hinto.1]
      rw [if_pos hinto, if_pos hinto, if_neg hout, sub_zero]
    · rw [if_neg hinto, if_neg hinto, zero_sub]
      split <;> rfl
  simp only [hsplit, Finset.sum_sub_distrib, Finset.sum_boole]
  rfl

end Markers

/-! ## §3  Frame exits of a recording -/

theorem balance_depthCalls {p d : ℕ} (h : d ≤ p + 1) :
    balance (depthCalls p d) = ((d : ℤ) - 1) - ((p : ℤ) - 1) := by
  unfold depthCalls
  split
  · next hlt =>
      show (1 : ℤ) = _
      omega
  · next hle =>
      have hsum : balance (List.replicate (p - d) CallEvent.ret) = -((p - d : ℕ) : ℤ) := by
        simp [balance, CallEvent.weight]
      rw [hsum]
      omega

namespace Recorder

/-- At a frame exit the open calls are those of the log before the frame was
entered iff the markers inside it registered as many calls as returns. -/
theorem frameExit_restores_iff (keccak256 : List UInt8 → U256) (registered : List Path)
    (a : Artifacts) (structLogs : List StructLog)
    (hresolve : ∀ log ∈ structLogs, (a.resolvePc log.pc).isSome)
    (hdepths : LegalDepths (structLogs.map (·.depth))) {j k : ℕ}
    (hexit : FrameExit (structLogs.map (·.depth)) j k) :
    openCalls (eventsAtEntry keccak256 registered a structLogs k) =
        openCalls (eventsBefore keccak256 registered a structLogs (j + 1)) ↔
      (callsInside (markerAt (sourceTrace a structLogs)) j k).card =
        (returnsInside (markerAt (sourceTrace a structLogs)) j k).card := by
  obtain ⟨hjk, hk, hsame, -⟩ := hexit
  have hchain : (1 :: (callTrace a structLogs).map (·.1)).IsChain fun p d =>
      balance (depthCalls p d) = ((d : ℤ) - 1) - ((p : ℤ) - 1) := by
    rw [depths_callTrace]
    exact hdepths.chain_one.imp fun p d hpd => balance_depthCalls hpd
  have hentry := entryBalance_eq (g := fun d => (d : ℤ) - 1) (by norm_num) hchain
  rw [List.length_map] at hk
  have hj : j < structLogs.length := by omega
  have hlog : ∀ {i} (hi : i < structLogs.length), (callTrace a structLogs)[i]? =
      some (structLogs[i].depth, processedMarker a structLogs[i]) :=
    fun hi => getElem?_callTrace (List.getElem?_eq_getElem hi)
  have hdepth : structLogs[j].depth = structLogs[k].depth := by
    simpa [List.getElem?_map, List.getElem?_eq_getElem hj, List.getElem?_eq_getElem hk] using hsame
  have hsum := Finset.sum_range_add_sum_Ico
    (contribution (markerAt (callTrace a structLogs))) (by omega : j + 1 ≤ k)
  rw [openCalls_eventsAtEntry, openCalls_eventsBefore_succ _ _ _ _ hj, openCalls_eventsAtEntry,
    hentry k _ (hlog hk), hentry j _ (hlog hj), ← hsum, hdepth, Finset.sum_range_succ,
    callTrace_eq_sourceTrace hresolve]
  have hinside := sum_contribution_inside (markerAt (sourceTrace a structLogs)) j k
  have hIoo : Finset.Ico (j + 1) k = Finset.Ioo j k := by
    ext i
    rw [Finset.mem_Ico, Finset.mem_Ioo, Nat.succ_le_iff]
  rw [hIoo, hinside]
  constructor
  · intro h
    omega
  · intro h
    omega

/-- A call inside the frame that has returned. -/
def returnedSample : List StructLog :=
  [sampleLog 1 1, sampleLog 1 3, sampleLog 2 1, sampleLog 2 2, sampleLog 2 4, sampleLog 1 0]

theorem frameExit_restores_iff_returnedSample :
    openCalls (eventsAtEntry (fun _ => 0) [] sampleArtifacts returnedSample 5) =
      openCalls (eventsBefore (fun _ => 0) [] sampleArtifacts returnedSample 2) :=
  (frameExit_restores_iff (fun _ => 0) [] sampleArtifacts returnedSample (j := 1) (by decide)
    (by decide) (by decide)).mpr (by decide)

/-- The inner frame reverts inside an internal function. -/
def revertedSample : List StructLog :=
  [sampleLog 1 1, sampleLog 1 3, sampleLog 2 1, sampleLog 2 4, sampleLog 1 0]

/-- The internal call that was open when its frame reverted is never returned. -/
theorem frameExit_leaks_revertedSample :
    (∀ log ∈ revertedSample, (sampleArtifacts.resolvePc log.pc).isSome) ∧
      LegalDepths (revertedSample.map (·.depth)) ∧
      FrameExit (revertedSample.map (·.depth)) 1 4 ∧
      openCalls (eventsBefore (fun _ => 0) [] sampleArtifacts revertedSample 2) = 0 ∧
      openCalls (eventsAtEntry (fun _ => 0) [] sampleArtifacts revertedSample 4) = 1 := by
  decide

end Recorder

end EvmRecorder
