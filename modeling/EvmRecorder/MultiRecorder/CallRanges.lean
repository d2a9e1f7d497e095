import EvmRecorder.MultiRecorder.CallTree

/-!
# Step ranges of a call tree

A node is closed when the depth falls below its frame. Nothing closes the root, whose
range stays empty, nor the nodes of the frames that the last log leaves open.
-/

namespace EvmRecorder

open Levels

/-! ## §1  Closed trees -/

namespace CallNode

mutual
/-- The node and all nodes below it have ranges that are closed, each inside that of its
parent; `lo` and `hi` are the bounds of the range around it. -/
def ClosedWithin (lo hi : Nat) : CallNode → Prop
  | ⟨_, _, _, children, range⟩ =>
      lo ≤ range.1 ∧ range.1 ≤ range.2 ∧ range.2 ≤ hi ∧
        ForestClosedWithin range.1 range.2 children
def ForestClosedWithin (lo hi : Nat) : List CallNode → Prop
  | [] => True
  | child :: rest => child.ClosedWithin lo hi ∧ ForestClosedWithin lo hi rest
end

/-- The tree of a run of `n` logs is closed, and its root covers them: a range ends before
its second step, the first log behind the frame. -/
structure Closed (root : CallNode) (n : Nat) : Prop where
  within : root.ClosedWithin 0 n
  covers : ∀ k, k < n → root.stepRange.1 ≤ k ∧ k < root.stepRange.2

theorem stepRange_modifyAt_cons (f : CallNode → CallNode) (self : CallNode) (idx : Nat)
    (path : List Nat) : (self.modifyAt f (idx :: path)).stepRange = self.stepRange := by
  rw [modifyAt]
  split <;> rfl

theorem stepRange_modifyAt_pushChild (child self : CallNode) (path : List Nat) :
    (self.modifyAt (CallNode.pushChild child) path).stepRange = self.stepRange := by
  cases path with
  | nil => rfl
  | cons idx path => exact stepRange_modifyAt_cons _ self idx path

end CallNode

namespace CallTree

/-- Entering a call keeps the range of the root. -/
theorem stepRange_enterCall (self : CallTree) (address : Address) (callType : CallType)
    (step : Nat) :
    (self.enterCall address callType step).root.stepRange = self.root.stepRange :=
  CallNode.stepRange_modifyAt_pushChild _ self.root self.path

/-- So does leaving one. -/
theorem stepRange_exitCall (self : CallTree) (step : Nat) :
    (self.exitCall step).root.stepRange = self.root.stepRange := by
  unfold exitCall
  dsimp only
  split
  · rfl
  · rename_i hpath
    obtain ⟨idx, path, heq⟩ := List.exists_cons_of_ne_nil hpath
    rw [heq]
    exact CallNode.stepRange_modifyAt_cons _ self.root idx path

theorem stepRange_exitCalls (self : CallTree) (step : Nat) : ∀ n,
    ((·.exitCall step)^[n] self).root.stepRange = self.root.stepRange
  | 0 => rfl
  | n + 1 => by
      rw [Function.iterate_succ_apply', stepRange_exitCall, stepRange_exitCalls self step n]

end CallTree

namespace MultiRecorder

section Runs

variable (keccak256 : List UInt8 → U256) (registered : List Path) (registry : ContractRegistry)
  (contractAddress : Address) (structLogs : List StructLog)

theorem stepRange_enterDepth (k : Nat) (log : StructLog) (s : MultiRecorderState) :
    (enterDepth structLogs k log s).callTree.root.stepRange =
      s.callTree.root.stepRange := by
  unfold enterDepth
  dsimp only
  split
  · exact s.callTree.stepRange_enterCall _ _ k
  · split
    · exact s.callTree.stepRange_exitCalls k _
    · rfl

/-- The root has its first range. -/
def RootOpen (_ : Nat) (s : MultiRecorderState) : Prop := s.callTree.root.stepRange = (0, 0)

theorem rootOpen_stateBefore : ∀ k, k ≤ structLogs.length →
    RootOpen k (stateBefore keccak256 registered registry contractAddress structLogs k) := by
  refine Machine.invariant rfl ?_
  intro k log s _ h
  rw [RootOpen, callTree_stepOf, stepRange_enterDepth, h]

/-- The root is never closed. -/
theorem stepRange_root :
    (recordFromStructlogMultiContract keccak256 registered registry contractAddress
      structLogs).2.root.stepRange = (0, 0) := by
  unfold recordFromStructlogMultiContract
  split
  · rfl
  · have hrun := rootOpen_stateBefore keccak256 registered registry contractAddress structLogs
      structLogs.length le_rfl
    rw [stateBefore, Machine.stateBefore, List.take_length] at hrun
    exact hrun

end Runs

/-- A frame is left: a later log is below its depth. -/
def Left (depths : List Nat) (i : Nat) : Prop :=
  ∃ d e x, depths[i]? = some d ∧ i < e ∧ depths[e]? = some x ∧ x < d

section Links

variable {structLogs : List StructLog} {n i : Nat} {link : Link}

/-- A node below the root is closed exactly when its frame is left. -/
theorem closed_iff_left (h : Mirrors structLogs structLogs.length link i) :
    (link.start ≤ link.stop ∧ link.stop ≤ structLogs.length) ↔
      Left (structLogs.map (·.depth)) link.start := by
  obtain ⟨-, hpos, -⟩ := h.callType
  obtain ⟨d, hd, hstop⟩ := h.stop
  rw [h.start]
  constructor
  · rintro ⟨hle, -⟩
    rcases hstop with ⟨hzero, -⟩ | ⟨hi, -, ⟨x, hx, hlt⟩, -⟩
    · omega
    · exact ⟨d, link.stop, x, hd, hi, hx, hlt⟩
  · rintro ⟨d', e, x, hd', hie, hx, hlt⟩
    obtain rfl := Option.some.inj (hd.symm.trans hd')
    rcases hstop with ⟨-, hstays⟩ | ⟨hi, hn, -⟩
    · have hlen := (List.getElem?_eq_some_iff.mp hx).1
      rw [List.length_map] at hlen
      exact absurd (hstays e x hie hlen hx) (Nat.not_le_of_lt hlt)
    · exact ⟨hi.le, hn.le⟩

/-- Where the parent is left, the node is closed inside its range. -/
theorem nested_of_left {parent : Link} {j : Nat}
    (h : Mirrors structLogs structLogs.length link i)
    (hparent : Mirrors structLogs structLogs.length parent j) (heq : link.parent = parent.start)
    (hleft : Left (structLogs.map (·.depth)) parent.start) :
    parent.start ≤ link.start ∧ link.start ≤ link.stop ∧ link.stop ≤ parent.stop := by
  obtain ⟨p, hp, hopened⟩ := h.parent
  obtain ⟨d, hd, hstop⟩ := h.stop
  obtain ⟨e, he, hparentStop⟩ := hparent.stop
  rw [heq, hparent.start] at hopened
  obtain rfl := Option.some.inj (hopened.depth.symm.trans he)
  obtain ⟨p', d', hp', hd', hlt⟩ := risesAt_iff.mp h.rise
  obtain rfl := Option.some.inj (hp.symm.trans hp')
  obtain rfl := Option.some.inj (hd.symm.trans hd')
  obtain ⟨hle, -⟩ := (closed_iff_left hparent).mpr hleft
  rw [hparent.start] at hle ⊢
  rw [h.start]
  have hbefore := hopened.before
  rcases hparentStop with ⟨hzero, -⟩ | ⟨hj, hn, ⟨x, hx, hxlt⟩, -⟩
  · obtain ⟨-, hpos, -⟩ := hparent.callType
    omega
  · -- the log that ends the parent is behind the rise, and below the child
    have hbehind : i < parent.stop := by
      by_contra hnot
      rcases Nat.lt_or_eq_of_le (Nat.le_of_not_lt hnot) with hin | rfl
      · exact absurd (hopened.stays parent.stop x hj.le hin hx) (Nat.not_le_of_lt hxlt)
      · rw [hd] at hx
        cases hx
        omega
    rcases hstop with ⟨-, hstays⟩ | ⟨hi, -, -, hstays⟩
    · exact absurd (hstays parent.stop x hbehind hn hx) (by omega)
    · refine ⟨hbefore.le, hi.le, ?_⟩
      by_contra hnot
      exact absurd (hstays parent.stop x hbehind (Nat.lt_of_not_le hnot) hx) (by omega)

end Links

/-- In no recording is the call tree closed: the root keeps the range `(0, 0)`. A node below
it is closed exactly when its frame is left before the trace ends, and then so are those
below it, inside its range. -/
theorem callTree_not_closed (keccak256 : List UInt8 → U256) (registered : List Path)
    (registry : ContractRegistry) (contractAddress : Address) {structLogs : List StructLog}
    (hnil : structLogs ≠ []) (hdepths : LegalDepths (structLogs.map (·.depth))) :
    let root := (recordFromStructlogMultiContract keccak256 registered registry contractAddress
      structLogs).2.root
    ¬ root.Closed structLogs.length ∧ root.stepRange = (0, 0) ∧
      (∀ link ∈ root.links, (link.start ≤ link.stop ∧ link.stop ≤ structLogs.length) ↔
        Left (structLogs.map (·.depth)) link.start) ∧
      ∀ link ∈ root.links, ∀ parent ∈ root.links, link.parent = parent.start →
        Left (structLogs.map (·.depth)) parent.start →
          parent.start ≤ link.start ∧ link.start ≤ link.stop ∧ link.stop ≤ parent.stop := by
  intro root
  have hroot := stepRange_root keccak256 registered registry contractAddress structLogs
  obtain ⟨starts, htree⟩ :=
    treeBefore_recorded keccak256 registered registry contractAddress hdepths
  have hmirrors : ∀ link ∈ root.links, ∃ i, Mirrors structLogs structLogs.length link i := by
    intro link hlink
    obtain ⟨l, hl, rfl⟩ := List.mem_iff_getElem.mp hlink
    exact ⟨_, htree.links.get hl (htree.links.length_eq ▸ hl)⟩
  refine ⟨?_, hroot, ?_, ?_⟩
  · intro hclosed
    have hcovers := (hclosed.covers 0 (List.length_pos_iff.mpr hnil)).2
    rw [hroot] at hcovers
    exact absurd hcovers (Nat.lt_irrefl 0)
  · intro link hlink
    obtain ⟨i, hi⟩ := hmirrors link hlink
    exact closed_iff_left hi
  · intro link hlink parent hparent heq hleft
    obtain ⟨i, hi⟩ := hmirrors link hlink
    obtain ⟨j, hj⟩ := hmirrors parent hparent
    exact nested_of_left hi hj heq hleft

/-- The root and the frame of the CREATE, which the last log leaves open, keep the end 0. -/
theorem nestedCalls_not_closed : LegalDepths (nestedCalls.map (·.depth)) ∧
    ¬ (recordFromStructlogMultiContract (fun _ => 0) [] {} 0 nestedCalls).2.root.Closed 6 ∧
    (⟨0, 5, 0, .create⟩ : Link) ∈
      (recordFromStructlogMultiContract (fun _ => 0) [] {} 0 nestedCalls).2.root.links := by
  refine ⟨by decide, ?_, by decide⟩
  intro hclosed
  have hcovers := (hclosed.covers 0 (by decide)).2
  rw [stepRange_root] at hcovers
  exact absurd hcovers (by decide)

theorem nestedCalls_callTree_not_closed :
    ¬ (recordFromStructlogMultiContract (fun _ => 0) [] {} 0 nestedCalls).2.root.Closed
      nestedCalls.length :=
  (callTree_not_closed (fun _ => 0) [] {} 0 (List.cons_ne_nil _ _) (by decide)).1

end MultiRecorder

end EvmRecorder
