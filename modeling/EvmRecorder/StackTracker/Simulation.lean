import EvmRecorder.Model.StackTracker
import EvmRecorder.Evm.Instruction

/-!
# The tracker simulates the EVM stack

With no variables in scope `process_step` moves labels exactly as the EVM moves
words: the tracker stays as deep as the stack, and a slot that is labelled with
a name holds the value of that name. With variables in scope labels may be
added, but the depth is the same.
-/

namespace EvmRecorder.StackTracker

open Stack Evm

/-! ## §1  Opcode match and instruction table -/

/-- The arm of the opcode match has the stack effect of the rule. -/
def Implements : SlotEffect → StackRule → Bool
  | .anon pops pushes, .generic δ α => pops = δ && pushes = α
  | .push, .generic δ α => δ = 0 && α = 1
  | .dup m, .dup n => m = n
  | .swap m, .swap n => m = n
  | _, _ => false

/-- Every instruction is handled by an arm with its stack effect. -/
theorem slotEffect_implements {i : Instruction} (hi : i ∈ cancun) :
    Implements (slotEffect i.opcode) i.rule = true := by
  have hall : ∀ i ∈ cancun, Implements (slotEffect i.opcode) i.rule = true := by
    decide +kernel
  exact hall i hi

/-! ## §2  Labels and values -/

/-- `slot` is anonymous, or labelled with a name whose value is `w`. -/
def Labels (v : String → U256) (slot : Option String) (w : U256) : Prop :=
  ∀ x, slot = some x → w = v x

theorem labels_none (v : String → U256) (w : U256) : Labels v none w := by
  rintro x ⟨⟩

/-- The tracker mirrors the stack: same height, and labelled slots hold the
value of their label. -/
def Mirrors (v : String → U256) (slots : List (Option String)) (stack : List U256) : Prop :=
  List.Forall₂ (Labels v) slots stack

theorem mirrors_iff {v : String → U256} {slots : List (Option String)} {stack : List U256} :
    Mirrors v slots stack ↔ slots.length = stack.length ∧
      ∀ (i : Nat) x, slots[i]? = some (some x) → stack[i]? = some (v x) := by
  constructor
  · intro h
    refine ⟨h.length_eq, fun i x hx => ?_⟩
    obtain ⟨w, hw, hlabels⟩ := getElem?_of_forall₂ h hx
    rw [hw, hlabels x rfl]
  · rintro ⟨hlen, hget⟩
    refine List.forall₂_iff_get.mpr ⟨hlen, fun i h₁ h₂ x hx => ?_⟩
    have hx' : slots[i]? = some (some x) := by
      rw [List.getElem?_eq_getElem h₁]
      exact congrArg some hx
    have := hget i x hx'
    rw [List.getElem?_eq_getElem h₂] at this
    exact Option.some.inj this

theorem mirrors_append {v : String → U256} {xs ys : List (Option String)} {s t : List U256}
    (h₁ : Mirrors v xs s) (h₂ : Mirrors v ys t) : Mirrors v (xs ++ ys) (s ++ t) :=
  List.rel_append h₁ h₂

/-- Fresh anonymous slots mirror any words. -/
theorem mirrors_replicate_none (v : String → U256) :
    ∀ results : List U256, Mirrors v (List.replicate results.length none) results
  | [] => .nil
  | w :: results => .cons (labels_none v w) (mirrors_replicate_none v results)

/-! ## §3  One instruction -/

section Effects

variable {slots : List (Option String)} {opcode : UInt8} {offset : Option Int32}
  {vars : List VarDecl} {n : Nat}

theorem execOpcode_anon {pops pushes : Nat} (h : slotEffect opcode = .anon pops pushes) :
    (execOpcode slots opcode offset vars).1 = popN slots pops ++ List.replicate pushes none := by
  rw [execOpcode, h]

theorem execOpcode_push (h : slotEffect opcode = .push) :
    (execOpcode slots opcode offset vars).1 = slots ++ [labelForPush offset vars] := by
  rw [execOpcode, h]

theorem execOpcode_dup (h : slotEffect opcode = .dup n) :
    (execOpcode slots opcode offset vars).1 = slots ++ [peekFromTop slots n] := by
  rw [execOpcode, h]

theorem execOpcode_swap (h : slotEffect opcode = .swap n) :
    (execOpcode slots opcode offset vars).1 = swapTop slots n := by
  rw [execOpcode, h]

end Effects

/-- The arms that can implement each rule. -/
theorem implements_generic {e : SlotEffect} {δ α : Nat} (h : Implements e (.generic δ α) = true) :
    e = .anon δ α ∨ (e = .push ∧ δ = 0 ∧ α = 1) := by
  cases e <;> simp_all [Implements]

theorem implements_dup {e : SlotEffect} {n : Nat} (h : Implements e (.dup n) = true) :
    e = .dup n := by
  cases e <;> simp_all [Implements]

theorem implements_swap {e : SlotEffect} {n : Nat} (h : Implements e (.swap n) = true) :
    e = .swap n := by
  cases e <;> simp_all [Implements]

theorem labelForPush_nil (offset : Option Int32) : labelForPush offset [] = none := by
  cases offset <;> rfl

/-- The opcode match without variables in scope, rule by rule. -/
theorem mirrors_execOpcode {v : String → U256} {slots : List (Option String)}
    {s s' : List U256} {rule : StackRule} {opcode : UInt8} (offset : Option Int32)
    (heffect : Implements (slotEffect opcode) rule = true) (hstep : StackStep rule s s')
    (hm : Mirrors v slots s) : Mirrors v (execOpcode slots opcode offset []).1 s' := by
  cases hstep with
  | @generic rest args results =>
      obtain ⟨us, vs, rfl, hrest, hargs⟩ := exists_append_of_forall₂ hm
      rcases implements_generic heffect with he | ⟨he, hδ, hα⟩
      · rw [execOpcode_anon he, ← hargs.length_eq, popN_append]
        exact mirrors_append hrest (mirrors_replicate_none v results)
      · obtain ⟨w, rfl⟩ := List.length_eq_one_iff.mp hα
        obtain rfl := List.length_eq_zero_iff.mp hδ
        cases hargs
        rw [execOpcode_push he, labelForPush_nil, List.append_nil]
        exact mirrors_append hrest (.cons (labels_none v w) .nil)
  | @dup rest above w =>
      obtain ⟨us, vs, rfl, hrest, hvs⟩ := exists_append_of_forall₂ hm
      cases hvs with
      | @cons slot _ vs _ hslot habove =>
          have hpeek : peekFromTop (us ++ slot :: vs) (above.length + 1) = slot := by
            have hindex : (us ++ slot :: vs).length - (above.length + 1) = us.length := by
              simp [← habove.length_eq]
            have hlong : ¬ (above.length + 1 = 0 ∨
                (us ++ slot :: vs).length < above.length + 1) := by
              simp only [List.length_append, List.length_cons, habove.length_eq]
              omega
            rw [peekFromTop, if_neg hlong, hindex]
            simp
          rw [execOpcode_dup (implements_dup heffect), hpeek]
          exact mirrors_append hm (.cons hslot .nil)
  | @swap rest between below top =>
      obtain ⟨us, vs, rfl, hrest, hvs⟩ := exists_append_of_forall₂ hm
      cases hvs with
      | @cons slotBelow _ vs _ hbelow hvs =>
          obtain ⟨bs, ts, rfl, hbetween, hts⟩ := exists_append_of_forall₂ hvs
          cases hts with
          | @cons slotTop _ ts _ htop hnil =>
              cases hnil
              rw [execOpcode_swap (implements_swap heffect), ← hbetween.length_eq,
                swapTop_append]
              exact mirrors_append hrest
                (.cons htop (mirrors_append hbetween (.cons hbelow .nil)))

theorem processStep_nil (self : StackTracker) (opcode : UInt8) (offset : Option Int32) :
    (self.processStep opcode offset []).1.slots = (execOpcode self.slots opcode offset []).1 := by
  cases offset <;> rfl

/-- Reading a name off a mirrored stack gives its value, if anything. -/
theorem getVariableValue_of_mirrors {v : String → U256} {self : StackTracker}
    {stack : List U256} (hm : Mirrors v self.slots stack) (x : String) :
    self.getVariableValue x stack = some (v x) ∨ self.getVariableValue x stack = none := by
  unfold getVariableValue
  cases hpos : rposition (fun slot => decide (slot = some x)) self.slots with
  | none => exact Or.inr rfl
  | some pos =>
      obtain ⟨slot, hslot, heq⟩ := rposition_eq_some hpos
      obtain rfl : slot = some x := of_decide_eq_true heq
      exact Or.inl ((mirrors_iff.mp hm).2 pos x hslot)

/-! ## §4  Whole runs -/

/-- A run of non-halting instructions, each with the source offset it maps to,
from one stack to another. Every prefix of a run is a run. -/
inductive StackRun : List U256 → List (Instruction × Option Int32) → List U256 → Prop where
  | nil {s : List U256} : StackRun s [] s
  | cons {s s' s'' : List U256} {i : Instruction} {offset : Option Int32}
      {is : List (Instruction × Option Int32)} :
      i ∈ cancun → StackStep i.rule s s' → StackRun s' is s'' →
      StackRun s ((i, offset) :: is) s''

/-- `process_step` over the instructions of a run, no variable in scope. -/
def processAll (self : StackTracker) (is : List (Instruction × Option Int32)) : StackTracker :=
  is.foldl (fun t i => (t.processStep i.1.opcode i.2 []).1) self

theorem mirrors_processAll {v : String → U256} {is : List (Instruction × Option Int32)}
    {s s' : List U256} (hrun : StackRun s is s') : ∀ {self : StackTracker},
    Mirrors v self.slots s → Mirrors v (self.processAll is).slots s' := by
  induction hrun with
  | nil => exact fun hm => hm
  | @cons s s' s'' i offset is hi hstep _ ih =>
      intro self hm
      refine ih ?_
      rw [processStep_nil]
      exact mirrors_execOpcode offset (slotEffect_implements hi) hstep hm

/-- **The tracker simulates the stack.** From a tracker as deep as the stack
whose labelled slots hold the values of their labels, every run leads to a
tracker as deep as the new stack whose labelled slots still hold those values;
reading a name gives its value or nothing. -/
theorem processStep_simulates (v : String → U256) (self : StackTracker) (s s' : List U256)
    (is : List (Instruction × Option Int32)) (hdepth : self.depth = s.length)
    (hlabels : ∀ (i : Nat) x, self.slots[i]? = some (some x) → s[i]? = some (v x))
    (hrun : StackRun s is s') :
    (self.processAll is).depth = s'.length ∧
      (∀ (i : Nat) x, (self.processAll is).slots[i]? = some (some x) → s'[i]? = some (v x)) ∧
      ∀ x, (self.processAll is).getVariableValue x s' = some (v x) ∨
        (self.processAll is).getVariableValue x s' = none := by
  have hm : Mirrors v (self.processAll is).slots s' :=
    mirrors_processAll hrun (mirrors_iff.mpr ⟨hdepth, hlabels⟩)
  exact ⟨hm.length_eq, (mirrors_iff.mp hm).2, getVariableValue_of_mirrors hm⟩

/-- `PUSH1, DUP2, SWAP1` over a stack whose only word is named `x`: the copy of
`x` is found below the top. -/
theorem processStep_simulates_dup_swap :
    let is := [(⟨"PUSH1", 0x60, .generic 0 1⟩, none), (⟨"DUP2", 0x81, .dup 2⟩, none),
      (⟨"SWAP1", 0x90, .swap 1⟩, none)]
    (processAll ⟨[some "x"]⟩ is).depth = 3 ∧
      (processAll ⟨[some "x"]⟩ is).getVariableValue "x" [7, 7, 5] = some 7 := by
  intro is
  have hpush : StackStep (.generic 0 1) ([7] : List U256) [7, 5] := @StackStep.generic _ [7] [] [5]
  have hdup : StackStep (.dup 2) ([7, 5] : List U256) [7, 5, 7] := @StackStep.dup _ [] [5] 7
  have hswap : StackStep (.swap 1) ([7, 5, 7] : List U256) [7, 7, 5] :=
    @StackStep.swap _ [7] [] 5 7
  have hrun : StackRun [7] is [7, 7, 5] :=
    .cons (by decide +kernel) hpush
      (.cons (by decide +kernel) hdup (.cons (by decide +kernel) hswap .nil))
  have h := processStep_simulates (fun _ => 7) ⟨[some "x"]⟩ [7] [7, 7, 5] is rfl
    (fun i x hx => by cases i <;> simp_all) hrun
  exact ⟨h.1, by decide⟩

/-! ## §5  Depth with variables in scope

Labels may appear, but only in existing slots, so the depth depends on the
opcode alone. -/

theorem length_recoverLabel (offset : Int32) (vars : List VarDecl) :
    ∀ acc : List (Option String) × List VarAssignment,
      (vars.foldl (recoverLabel offset) acc).1.length = acc.1.length := by
  induction vars with
  | nil => exact fun _ => rfl
  | cons v vars ih =>
      intro acc
      rw [List.foldl_cons, ih]
      unfold recoverLabel
      split
      · exact List.length_set
      · rfl

theorem length_execOpcode (slots : List (Option String)) (opcode : UInt8)
    (offset : Option Int32) (vars : List VarDecl) :
    (execOpcode slots opcode offset vars).1.length = (execOpcode slots opcode none []).1.length := by
  unfold execOpcode
  cases slotEffect opcode <;> simp

theorem depth_processStep (self : StackTracker) (opcode : UInt8) (offset : Option Int32)
    (vars : List VarDecl) :
    (self.processStep opcode offset vars).1.depth =
      (execOpcode self.slots opcode none []).1.length := by
  rw [← length_execOpcode self.slots opcode offset vars]
  cases offset with
  | none => rfl
  | some offset => exact length_recoverLabel offset vars _

/-- A tracker as deep as the stack stays so over every instruction, whatever
variables are in scope. -/
theorem depth_processStep_of_stackStep {self : StackTracker} {i : Instruction}
    {s s' : List U256} (hi : i ∈ cancun) (hstep : StackStep i.rule s s')
    (hdepth : self.depth = s.length) (offset : Option Int32) (vars : List VarDecl) :
    (self.processStep i.opcode offset vars).1.depth = s'.length := by
  -- Only heights matter, so forget the labels and mirror anonymous slots.
  have hblank : ∀ n : Nat, ∀ stack : List U256, n = stack.length →
      Mirrors (fun _ => 0) (List.replicate n none) stack := by
    rintro n stack rfl
    exact mirrors_replicate_none _ stack
  have hm := mirrors_execOpcode none (slotEffect_implements hi) hstep
    (hblank self.depth s hdepth)
  have hlen : (execOpcode self.slots i.opcode none []).1.length =
      (execOpcode (List.replicate self.depth none) i.opcode none []).1.length := by
    unfold execOpcode
    cases slotEffect i.opcode <;> simp [length_popN, length_swapTop, depth]
  rw [depth_processStep, hlen]
  exact hm.length_eq

end EvmRecorder.StackTracker
