import EvmRecorder.Library.Bytes

/-!
# Call trees

The tree of call frames that the multi-contract recorder builds, with the path
of child indices to the frame being executed. A tree carries the proof that its
path leads to a node, so that no index is ever out of range.
-/

namespace EvmRecorder

abbrev Address : Type := BitVec 160

inductive CallType where
  | call
  | delegateCall
  | staticCall
  | create
  | create2
  | transaction
deriving DecidableEq, Repr

/-- `stepRange` holds the start and, once the frame has exited, the end. -/
structure CallNode where
  address : Address
  functionName : String := ""
  callType : CallType
  children : List CallNode
  stepRange : Nat × Nat

namespace CallNode

def new (address : Address) (callType : CallType) (startStep : Nat) : CallNode :=
  { address, callType, children := [], stepRange := (startStep, 0) }

/-- The node that a path of child indices leads to. -/
def nodeAt (self : CallNode) : List Nat → Option CallNode
  | [] => some self
  | idx :: path => match self.children[idx]? with
    | some child => child.nodeAt path
    | none => none

/-- Change the node that a path leads to. -/
def modifyAt (f : CallNode → CallNode) (self : CallNode) : List Nat → CallNode
  | [] => f self
  | idx :: path => match self.children[idx]? with
    | some child => { self with children := self.children.set idx (child.modifyAt f path) }
    | none => self

def pushChild (child self : CallNode) : CallNode :=
  { self with children := self.children ++ [child] }

def setEnd (step : Nat) (self : CallNode) : CallNode :=
  { self with stepRange := (self.stepRange.1, step) }

theorem nodeAt_modifyAt (f : CallNode → CallNode) : ∀ (path : List Nat) (self : CallNode),
    (self.modifyAt f path).nodeAt path = (self.nodeAt path).map f
  | [], _ => rfl
  | idx :: path, self => by
      rw [modifyAt, nodeAt, nodeAt]
      cases hchild : self.children[idx]? with
      | none => rw [hchild]; rfl
      | some child =>
          have hlt : idx < self.children.length := (List.getElem?_eq_some_iff.mp hchild).1
          dsimp only
          rw [List.getElem?_set_self hlt]
          exact nodeAt_modifyAt f path child

theorem nodeAt_append : ∀ (path rest : List Nat) (self : CallNode),
    self.nodeAt (path ++ rest) = (self.nodeAt path).bind fun node => node.nodeAt rest
  | [], _, _ => rfl
  | idx :: path, rest, self => by
      rw [List.cons_append, nodeAt, nodeAt]
      cases self.children[idx]? with
      | none => rfl
      | some child => exact nodeAt_append path rest child

end CallNode

/-- `path` is the path from the root to the current node. -/
structure CallTree where
  root : CallNode
  path : List Nat
  valid : (root.nodeAt path).isSome

namespace CallTree

def new (rootAddress : Address) : CallTree := ⟨.new rootAddress .transaction 0, [], rfl⟩

def current (self : CallTree) : CallNode := (self.root.nodeAt self.path).get self.valid

theorem nodeAt_path (self : CallTree) : self.root.nodeAt self.path = some self.current :=
  (Option.some_get self.valid).symm

/-- The depth increases. -/
def enterCall (self : CallTree) (address : Address) (callType : CallType) (step : Nat) :
    CallTree where
  root := self.root.modifyAt (.pushChild (.new address callType step)) self.path
  path := self.path ++ [self.current.children.length]
  valid := by
    rw [CallNode.nodeAt_append, CallNode.nodeAt_modifyAt, nodeAt_path]
    simp [CallNode.pushChild, CallNode.nodeAt]

/-- The depth decreases; nothing at the root. -/
def exitCall (self : CallTree) (step : Nat) : CallTree where
  root := if self.path = [] then self.root else self.root.modifyAt (.setEnd step) self.path
  path := self.path.dropLast
  valid := by
    by_cases hroot : self.path = []
    · rw [if_pos hroot, hroot]
      rfl
    · rw [if_neg hroot]
      have hsplit := List.dropLast_append_getLast hroot
      have hvalid : ((self.root.modifyAt (.setEnd step) self.path).nodeAt self.path).isSome := by
        rw [CallNode.nodeAt_modifyAt, nodeAt_path]
        rfl
      rw [← hsplit, CallNode.nodeAt_append] at hvalid
      obtain ⟨node, hnode⟩ := Option.isSome_iff_exists.mp hvalid
      obtain ⟨parent, hparent, -⟩ := Option.bind_eq_some_iff.mp hnode
      rw [hsplit] at hparent
      rw [hparent]
      rfl

end CallTree

end EvmRecorder
