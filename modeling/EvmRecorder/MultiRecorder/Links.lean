import EvmRecorder.Model.CallTree
import Mathlib.Tactic

/-!
# Links of a call tree

The nodes of a call tree in preorder, each with the start of its parent. The
path of a tree that is built by entering and exiting calls runs along the last
children, so entering a call appends a link and exiting one closes the link of
the node at its end.
-/

namespace EvmRecorder

/-! ## §1  Links -/

/-- A node with the start of its parent. -/
structure Link where
  parent : Nat
  start : Nat
  stop : Nat
  callType : CallType
deriving DecidableEq, Repr

/-- Close the links that start at one of `closed`. -/
def Link.closeIn (closed : List Nat) (step : Nat) (link : Link) : Link :=
  if link.start ∈ closed then { link with stop := step } else link

@[simp] theorem Link.start_closeIn (closed : List Nat) (step : Nat) (link : Link) :
    (link.closeIn closed step).start = link.start := by
  unfold closeIn
  split <;> rfl

theorem Link.closeIn_closeIn (closed closed' : List Nat) (step : Nat) (link : Link) :
    (link.closeIn closed step).closeIn closed' step = link.closeIn (closed' ++ closed) step := by
  unfold closeIn
  by_cases h : link.start ∈ closed
  · rw [if_pos h, if_pos (List.mem_append_right _ h)]
    split <;> rfl
  · rw [if_neg h]
    by_cases h' : link.start ∈ closed'
    · rw [if_pos h', if_pos (List.mem_append_left _ h')]
    · rw [if_neg h', if_neg (by simp [h, h'])]

/-- Links that start elsewhere stay as they are. -/
theorem Link.map_closeIn_of_not_mem {s step : Nat} {links : List Link}
    (h : s ∉ links.map (·.start)) : links.map (·.closeIn [s] step) = links := by
  refine (List.map_congr_left fun link hlink => ?_).trans (List.map_id links)
  have hne : link.start ≠ s := fun heq => h (List.mem_map.mpr ⟨link, hlink, heq⟩)
  rw [closeIn, if_neg (by simpa using hne)]
  rfl

namespace CallNode

def start (self : CallNode) : Nat := self.stepRange.1

def link (parent : Nat) (self : CallNode) : Link :=
  ⟨parent, self.stepRange.1, self.stepRange.2, self.callType⟩

mutual
/-- The nodes below a node, in preorder. -/
def links : CallNode → List Link
  | ⟨_, _, _, children, range⟩ => forestLinks range.1 children
/-- The nodes of the children of a node that starts at `parent`. -/
def forestLinks (parent : Nat) : List CallNode → List Link
  | [] => []
  | child :: rest => child.link parent :: (child.links ++ forestLinks parent rest)
end

theorem links_eq (self : CallNode) : self.links = forestLinks self.start self.children := by
  cases self
  rw [links]
  rfl

theorem forestLinks_append (parent : Nat) : ∀ xs ys : List CallNode,
    forestLinks parent (xs ++ ys) = forestLinks parent xs ++ forestLinks parent ys
  | [], _ => rfl
  | x :: xs, ys => by
      rw [List.cons_append, forestLinks, forestLinks, forestLinks_append parent xs ys,
        List.cons_append, List.append_assoc]

/-- The last child's link and links come last. -/
theorem links_of_last {self child : CallNode} {init : List CallNode}
    (h : self.children = init ++ [child]) :
    self.links =
      forestLinks self.start init ++ child.link self.start :: child.links := by
  rw [links_eq, h, forestLinks_append, forestLinks, forestLinks, List.append_nil]

/-! ## §2  Changing the node at the end of a path -/

theorem start_modifyAt {f : CallNode → CallNode} (hf : ∀ node, (f node).start = node.start)
    (self : CallNode) (path : List Nat) : (self.modifyAt f path).start = self.start := by
  cases path with
  | nil => exact hf self
  | cons idx path =>
      rw [modifyAt]
      split <;> rfl

section Last

variable {self child : CallNode} {init : List CallNode}

theorem getElem?_last (h : self.children = init ++ [child]) :
    self.children[init.length]? = some child := by
  rw [h, List.getElem?_append_right (Nat.le_refl _), Nat.sub_self]
  rfl

theorem nodeAt_last (h : self.children = init ++ [child]) (path : List Nat) :
    self.nodeAt (init.length :: path) = child.nodeAt path := by
  rw [nodeAt, getElem?_last h]

theorem modifyAt_last (h : self.children = init ++ [child]) (f : CallNode → CallNode)
    (path : List Nat) :
    self.modifyAt f (init.length :: path) =
      { self with children := init ++ [child.modifyAt f path] } := by
  rw [modifyAt, getElem?_last h]
  dsimp only
  rw [h, List.set_append_right _ _ (Nat.le_refl _), Nat.sub_self]
  rfl

end Last

/-! ## §3  Paths along the last children -/

/-- Every index of the path is that of the last child; `starts` are the starts of
the nodes on the path. -/
def Spine : CallNode → List Nat → List Nat → Prop
  | _, [], [] => True
  | self, idx :: path, s :: starts =>
      ∃ init child, self.children = init ++ [child] ∧ init.length = idx ∧ child.start = s ∧
        Spine child path starts
  | _, _, _ => False

theorem Spine.length_eq : ∀ {path starts : List Nat} {self : CallNode},
    Spine self path starts → path.length = starts.length
  | [], [], _, _ => rfl
  | [], _ :: _, _, h => h.elim
  | _ :: _, [], _, h => h.elim
  | _ :: _, _ :: _, _, ⟨_, _, _, _, _, h⟩ => congrArg (· + 1) h.length_eq

theorem Spine.take : ∀ {path starts : List Nat} {self : CallNode},
    Spine self path starts → ∀ n, Spine self (path.take n) (starts.take n)
  | [], [], _, _, 0 => trivial
  | [], [], _, _, _ + 1 => trivial
  | [], _ :: _, _, h, _ => h.elim
  | _ :: _, [], _, h, _ => h.elim
  | _ :: _, _ :: _, _, _, 0 => trivial
  | _ :: _, _ :: _, _, ⟨init, child, hchildren, hlen, hstart, h⟩, n + 1 =>
      ⟨init, child, hchildren, hlen, hstart, h.take n⟩

/-- The nodes on the path are among the links. -/
theorem Spine.mem_links : ∀ {path starts : List Nat} {self : CallNode},
    Spine self path starts → ∀ s ∈ starts, s ∈ self.links.map (·.start)
  | [], [], _, _, _, hs => by cases hs
  | [], _ :: _, _, h, _, _ => h.elim
  | _ :: _, [], _, h, _, _ => h.elim
  | _ :: _, _ :: _, self, ⟨init, child, hchildren, _, hstart, h⟩, s, hs => by
      rw [links_of_last hchildren, List.map_append, List.mem_append, List.map_cons, List.mem_cons]
      rcases List.mem_cons.mp hs with rfl | hs
      · exact .inr (.inl hstart.symm)
      · exact .inr (.inr (h.mem_links s hs))

theorem Spine.modifyAt {f : CallNode → CallNode} (hf : ∀ node, (f node).start = node.start) :
    ∀ {path starts : List Nat} {self : CallNode},
      Spine self path starts → Spine (self.modifyAt f path) path starts
  | [], [], _, _ => trivial
  | [], _ :: _, _, h => h.elim
  | _ :: _, [], _, h => h.elim
  | _ :: _, _ :: _, _, ⟨init, child, hchildren, rfl, hstart, h⟩ => by
      rw [modifyAt_last hchildren]
      exact ⟨init, _, rfl, rfl, by rw [start_modifyAt hf, hstart], h.modifyAt hf⟩

/-! ## §4  Entering a call -/

@[simp] theorem start_pushChild (child self : CallNode) :
    (child.pushChild self).start = self.start := rfl

@[simp] theorem start_setEnd (step : Nat) (self : CallNode) :
    (self.setEnd step).start = self.start := rfl

/-- The new node is the last child of the node the path led to. -/
theorem Spine.pushChild (child : CallNode) : ∀ {path starts : List Nat} {self node : CallNode},
    Spine self path starts → self.nodeAt path = some node →
      Spine (self.modifyAt (CallNode.pushChild child) path) (path ++ [node.children.length])
        (starts ++ [child.start])
  | [], [], self, node, _, hnode => by
      obtain rfl : self = node := Option.some.inj hnode
      exact ⟨self.children, child, rfl, rfl, rfl, trivial⟩
  | [], _ :: _, _, _, h, _ => h.elim
  | _ :: _, [], _, _, h, _ => h.elim
  | _ :: _, _ :: _, _, _, ⟨init, last, hchildren, rfl, hstart, h⟩, hnode => by
      rw [nodeAt_last hchildren] at hnode
      rw [modifyAt_last hchildren]
      exact ⟨init, _, rfl, rfl, by rw [start_modifyAt (start_pushChild child), hstart],
        h.pushChild child hnode⟩

/-- The link of the new node comes last in preorder. -/
theorem Spine.links_pushChild {child : CallNode} (hchild : child.children = []) :
    ∀ {path starts : List Nat} {self : CallNode}, Spine self path starts →
      (self.modifyAt (CallNode.pushChild child) path).links =
        self.links ++ [child.link (starts.getLastD self.start)]
  | [], [], self, _ => by
      have hnone : child.links = [] := by
        rw [links_eq, hchild]
        rfl
      have hlast : (child.pushChild self).children = self.children ++ [child] := rfl
      rw [CallNode.modifyAt, links_of_last hlast, hnone, links_eq self]
      rfl
  | [], _ :: _, _, h => h.elim
  | _ :: _, [], _, h => h.elim
  | idx :: path, s :: starts, self, ⟨init, last, hchildren, hlen, hstart, h⟩ => by
      subst hlen
      have hlink : (last.modifyAt (CallNode.pushChild child) path).link self.start =
          last.link self.start := by
        cases path with
        | nil => rfl
        | cons idx path =>
            rw [CallNode.modifyAt]
            split <;> rfl
      rw [modifyAt_last hchildren, List.getLastD_cons, ← hstart, links_of_last hchildren]
      rw [links_of_last (show ({ self with
        children := init ++ [last.modifyAt (CallNode.pushChild child) path] } : CallNode).children =
          init ++ [last.modifyAt (CallNode.pushChild child) path] from rfl)]
      rw [h.links_pushChild hchild]
      show forestLinks self.start init ++
        (last.modifyAt (CallNode.pushChild child) path).link self.start :: _ = _
      rw [hlink, List.append_assoc, List.cons_append]

/-! ## §5  Exiting a call -/

/-- The link of the node left is closed, when no other starts where it does. -/
theorem Spine.links_setEnd (step : Nat) : ∀ {path starts : List Nat} {self : CallNode} {s : Nat},
    Spine self path starts → starts.getLast? = some s → (self.links.map (·.start)).Nodup →
      (self.modifyAt (CallNode.setEnd step) path).links = self.links.map (·.closeIn [s] step)
  | [], [], _, _, _, hlast, _ => by cases hlast
  | [], _ :: _, _, _, h, _, _ => h.elim
  | _ :: _, [], _, _, h, _, _ => h.elim
  | idx :: path, s :: starts, self, t, ⟨init, child, hchildren, hlen, hstart, h⟩, hlast, hnodup => by
      subst hlen
      rw [links_of_last hchildren, List.map_append, List.map_cons] at hnodup
      obtain ⟨-, hnodup', hdisjoint⟩ := List.nodup_append.mp hnodup
      obtain ⟨hfresh, hchild⟩ := List.nodup_cons.mp hnodup'
      change child.start ∉ child.links.map (·.start) at hfresh
      have hinit : ∀ t, t ∈ child.start :: child.links.map (·.start) →
          t ∉ (forestLinks self.start init).map (·.start) :=
        fun t ht hmem => hdisjoint t hmem t ht rfl
      rw [modifyAt_last hchildren, links_of_last hchildren, List.map_append, List.map_cons]
      rw [links_of_last (show ({ self with
        children := init ++ [child.modifyAt (CallNode.setEnd step) path] } : CallNode).children =
          init ++ [child.modifyAt (CallNode.setEnd step) path] from rfl)]
      show forestLinks self.start init ++
        (child.modifyAt (CallNode.setEnd step) path).link self.start :: _ = _
      cases path with
      | nil =>
          cases starts with
          | cons _ _ => exact h.elim
          | nil =>
              obtain rfl : s = t := Option.some.inj hlast
              subst hstart
              rw [CallNode.modifyAt, Link.map_closeIn_of_not_mem (hinit _ (List.mem_cons_self ..)),
                Link.map_closeIn_of_not_mem hfresh, links_eq (child.setEnd step), links_eq child]
              congr 2
              have hself : (child.link self.start).start ∈ [child.start] := List.mem_singleton.mpr rfl
              rw [Link.closeIn, if_pos hself]
              rfl
      | cons idx path =>
          cases starts with
          | nil => exact h.elim
          | cons s' starts =>
              rw [List.getLast?_cons_cons] at hlast
              have hmem := h.mem_links t (List.mem_of_getLast? hlast)
              have hne : child.start ≠ t := by
                rintro rfl
                exact hfresh hmem
              have hlink : (child.modifyAt (CallNode.setEnd step) (idx :: path)).link self.start =
                  child.link self.start := by
                rw [CallNode.modifyAt]
                split <;> rfl
              rw [Link.map_closeIn_of_not_mem (hinit _ (List.mem_cons_of_mem _ hmem)), hlink,
                h.links_setEnd step hlast hchild, Link.closeIn,
                if_neg (by rw [List.mem_singleton]; exact hne)]

end CallNode

/-! ## §6  Call trees -/

namespace CallTree

open CallNode

/-- The path runs along the last children, and no two links start together. -/
structure Grown (tree : CallTree) (starts : List Nat) : Prop where
  spine : Spine tree.root tree.path starts
  nodup : (tree.root.links.map (·.start)).Nodup

theorem grown_new (rootAddress : Address) : Grown (.new rootAddress) [] :=
  ⟨trivial, List.nodup_nil⟩

variable {self : CallTree} {starts : List Nat}

theorem Grown.links_enterCall (h : Grown self starts) (address : Address) (callType : CallType)
    (step : Nat) :
    (self.enterCall address callType step).root.links =
      self.root.links ++ [⟨starts.getLastD self.root.start, step, 0, callType⟩] :=
  h.spine.links_pushChild rfl

theorem Grown.enterCall (h : Grown self starts) (address : Address) (callType : CallType)
    {step : Nat} (hfresh : step ∉ self.root.links.map (·.start)) :
    Grown (self.enterCall address callType step) (starts ++ [step]) where
  spine := h.spine.pushChild (.new address callType step) self.nodeAt_path
  nodup := by
    rw [h.links_enterCall, List.map_append, List.nodup_append]
    refine ⟨h.nodup, List.nodup_singleton _, ?_⟩
    rintro s hs t ht rfl
    obtain rfl : s = step := List.mem_singleton.mp ht
    exact hfresh hs

theorem start_exitCall (self : CallTree) (step : Nat) :
    (self.exitCall step).root.start = self.root.start := by
  unfold exitCall
  dsimp only
  split
  · rfl
  · exact start_modifyAt (start_setEnd step) _ _

theorem start_exitCalls (self : CallTree) (step : Nat) : ∀ n,
    ((·.exitCall step)^[n] self).root.start = self.root.start
  | 0 => rfl
  | n + 1 => by rw [Function.iterate_succ_apply', start_exitCall, start_exitCalls self step n]

/-- An exit at the root changes nothing. -/
theorem exitCall_root (h : self.path = []) (step : Nat) : self.exitCall step = self := by
  obtain ⟨root, path, valid⟩ := self
  obtain rfl : path = [] := h
  rfl

theorem Grown.exitCall {s : Nat} (h : Grown self (starts ++ [s])) (step : Nat) :
    Grown (self.exitCall step) starts ∧
      (self.exitCall step).root.links = self.root.links.map (·.closeIn [s] step) := by
  have hlen := h.spine.length_eq
  have hpath : self.path ≠ [] := by
    intro hnil
    rw [hnil] at hlen
    simp at hlen
  have hroot : (self.exitCall step).root = self.root.modifyAt (.setEnd step) self.path :=
    if_neg hpath
  have hlinks : (self.exitCall step).root.links = self.root.links.map (·.closeIn [s] step) := by
    rw [hroot]
    exact h.spine.links_setEnd step (List.getLast?_concat ..) h.nodup
  refine ⟨⟨?_, ?_⟩, hlinks⟩
  · have hspine := (h.spine.modifyAt (start_setEnd step)).take starts.length
    rw [List.take_left' rfl] at hspine
    have hdrop : (self.exitCall step).path = self.path.take starts.length := by
      show self.path.dropLast = _
      rw [List.dropLast_eq_take, hlen, List.length_append, List.length_singleton,
        Nat.add_sub_cancel]
    rw [hroot, hdrop]
    exact hspine
  · rw [hlinks, List.map_map]
    have hstarts : ((·.start) ∘ (·.closeIn [s] step) : Link → Nat) = (·.start) :=
      funext fun link => link.start_closeIn [s] step
    rw [hstarts]
    exact h.nodup

/-- Exiting several calls closes the last nodes of the path. -/
theorem Grown.exitCalls (step : Nat) : ∀ {closed starts : List Nat} {self : CallTree},
    Grown self (starts ++ closed) →
      Grown ((·.exitCall step)^[closed.length] self) starts ∧
        ((·.exitCall step)^[closed.length] self).root.links =
          self.root.links.map (·.closeIn closed step) := by
  intro closed
  induction closed using List.reverseRecOn with
  | nil =>
      intro starts self h
      rw [List.append_nil] at h
      refine ⟨h, ?_⟩
      have hid : (fun link : Link => link.closeIn [] step) = id := rfl
      rw [hid, List.map_id]
      rfl
  | append_singleton closed s ih =>
      intro starts self h
      rw [← List.append_assoc] at h
      obtain ⟨hgrown, hlinks⟩ := h.exitCall step
      obtain ⟨hgrown', hlinks'⟩ := ih hgrown
      rw [List.length_append, List.length_singleton, Function.iterate_succ_apply]
      refine ⟨hgrown', hlinks'.trans ?_⟩
      rw [hlinks, List.map_map]
      exact List.map_congr_left fun link _ => link.closeIn_closeIn [s] closed step

end CallTree

end EvmRecorder
