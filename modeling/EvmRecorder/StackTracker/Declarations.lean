import EvmRecorder.StackTracker.Recovery
import EvmRecorder.StackTracker.Simulation

/-!
# Initialised declarations

An unoptimised declaration `T x = rhs;` pushes a placeholder, evaluates the right
hand side above it, swaps the two and pops the placeholder. Whatever labels the
evaluation moves about, the placeholder keeps the label of `x`, so `x` has no slot
when the placeholder has been popped, and recovery labels the result.
-/

namespace EvmRecorder

open Stack Evm

/-! ## §1  Runs above a base -/

/-- An executed instruction with the source offset it maps to and the variables in
scope there. -/
structure Executed where
  instruction : Instruction
  offset : Int32
  varsInScope : List VarDecl

/-- A run that removes and replaces nothing below `base`. -/
inductive RunAbove (base : Nat) : List U256 → List Executed → List U256 → Prop where
  | nil {s : List U256} : RunAbove base s [] s
  | cons {s s' s'' : List U256} {e : Executed} {es : List Executed} :
      e.instruction ∈ cancun → StackStep e.instruction.rule s s' →
      base + e.instruction.rule.touched ≤ s.length → RunAbove base s' es s'' →
      RunAbove base s (e :: es) s''

namespace StackTracker

/-- `process_step` over executed instructions. -/
def processExecuted (self : StackTracker) (es : List Executed) : StackTracker :=
  es.foldl (fun t e =>
    (t.processStep e.instruction.opcode (some e.offset) e.varsInScope).1) self

/-- Labels below `base` stay when words below `base` do. -/
theorem take_movedLabels {slots : List (Option String)} {opcode : UInt8} {rule : StackRule}
    {base : Nat} (heffect : Implements (slotEffect opcode) rule = true)
    (hbase : base + rule.touched ≤ slots.length) (pushed : Option String) :
    (movedLabels slots opcode pushed).take base = slots.take base := by
  have hle : base ≤ slots.length := Nat.le_of_add_right_le hbase
  cases rule with
  | generic δ α =>
      rcases implements_generic heffect with he | ⟨he, -, -⟩
      · have hpop : base ≤ (popN slots δ).length := by
          rw [length_popN]
          exact Nat.le_sub_of_add_le hbase
        rw [movedLabels, he]
        show (popN slots δ ++ _).take base = _
        rw [List.take_append_of_le_length hpop]
        exact take_popN hbase
      · rw [movedLabels, he]
        exact List.take_append_of_le_length hle
  | dup n =>
      rw [movedLabels, implements_dup heffect]
      exact List.take_append_of_le_length hle
  | swap n =>
      rw [movedLabels, implements_swap heffect]
      exact take_swapTop hbase

/-! ## §2  The statement that declares one variable -/

/-- The instruction maps into the statement that declares `x`, and into no statement
of another variable in scope. -/
structure InStatementOf (x : VarDecl) (e : Executed) : Prop where
  inScope : x ∈ e.varsInScope
  distinct : (e.varsInScope.map (·.name)).Nodup
  covered : x.statementContains e.offset = true
  alone : ∀ u ∈ e.varsInScope, u ≠ x → u.statementContains e.offset = false

section Statement

variable {x : VarDecl} {e : Executed}

/-- Only `x` can be recovered. -/
theorem eq_of_recovers (he : InStatementOf x e) {slots : List (Option String)} {u : VarDecl}
    (hu : u ∈ e.varsInScope) (hrec : Recovers e.offset slots u) : u = x := by
  by_contra hne
  exact absurd hrec.1 (by rw [he.alone u hu hne]; decide)

/-- While `x` has a slot, labels only move. -/
theorem processStep_of_labelled (he : InStatementOf x e) {self : StackTracker}
    (hx : some x.name ∈ movedLabels self.slots e.instruction.opcode
      (labelForPush (some e.offset) e.varsInScope)) :
    (self.processStep e.instruction.opcode (some e.offset) e.varsInScope).1.slots =
      movedLabels self.slots e.instruction.opcode
        (labelForPush (some e.offset) e.varsInScope) := by
  rw [← execOpcode_fst] at hx ⊢
  rw [processStep_some, foldl_recoverLabel_eq_self fun u hu hrec => ?_]
  rw [eq_of_recovers he hu hrec] at hrec
  exact hrec.2.1 hx

/-- When `x` can only be the label on top, it is that label after the step. -/
theorem processStep_of_lost (he : InStatementOf x e) {self : StackTracker}
    {below : List (Option String)} {top : Option String} (hx : some x.name ∉ below)
    (hmoved : movedLabels self.slots e.instruction.opcode
      (labelForPush (some e.offset) e.varsInScope) = below ++ [top]) :
    (self.processStep e.instruction.opcode (some e.offset) e.varsInScope).1.slots =
      below ++ [some x.name] := by
  by_cases htop : top = some x.name
  · have hlabelled : some x.name ∈ below ++ [top] := by simp [htop]
    rw [← hmoved] at hlabelled
    rw [processStep_of_labelled he hlabelled, hmoved, htop]
  · obtain ⟨pre, post, hsplit, hpre⟩ := List.eq_append_cons_of_mem he.inScope
    have hrec : Recovers e.offset (below ++ [top]) x := by
      refine ⟨he.covered, fun h => ?_, by simp⟩
      rcases List.mem_append.mp h with h | h
      · exact hx h
      · exact htop (List.mem_singleton.mp h).symm
    rw [processStep_some, execOpcode_eq, hmoved, hsplit]
    rw [foldl_recoverLabel_single _ (fun u hu hu' => ?_) hrec (fun u hu hu' => ?_)]
    · exact hpre (eq_of_recovers he (hsplit ▸ List.mem_append_left _ hu) hu' ▸ hu)
    · obtain rfl := eq_of_recovers he
        (hsplit ▸ List.mem_append_right _ (List.mem_cons_of_mem x hu)) hu'
      exact hu'.2.1 (by simp)

end Statement

/-- Above the slot of `x` the right hand side is evaluated without touching the
labels up to it. -/
theorem take_processExecuted {x : VarDecl} {base : Nat} {s s' : List U256}
    {es : List Executed} (hrun : RunAbove base s es s') : ∀ {self : StackTracker},
    (∀ e ∈ es, InStatementOf x e) → self.depth = s.length →
    some x.name ∈ self.slots.take base →
    (self.processExecuted es).slots.take base = self.slots.take base ∧
      (self.processExecuted es).depth = s'.length ∧ s'.take base = s.take base := by
  induction hrun with
  | nil => exact fun _ hdepth _ => ⟨rfl, hdepth, rfl⟩
  | @cons s s' s'' e es hi hstep hbase _ ih =>
      intro self hes hdepth hx
      have he := hes e List.mem_cons_self
      have hroom : base + e.instruction.rule.touched ≤ self.slots.length := by
        rw [show self.slots.length = s.length from hdepth]
        exact hbase
      have htake := take_movedLabels (slotEffect_implements hi) hroom
        (labelForPush (some e.offset) e.varsInScope)
      have hlabels := processStep_of_labelled he
        (List.mem_of_mem_take (htake.symm ▸ hx))
      have hstepDepth := depth_processStep_of_stackStep hi hstep hdepth (some e.offset)
        e.varsInScope
      rw [← hlabels] at htake
      obtain ⟨hslots, hfinal, hwords⟩ := ih
        (fun e' he' => hes e' (List.mem_cons_of_mem e he')) hstepDepth (htake.symm ▸ hx)
      exact ⟨hslots.trans htake, hfinal, hwords.trans (take_of_stackStep hstep hbase)⟩

/-! ## §3  The declaration -/

def pushes : List Instruction := family "PUSH" 0x5f 0 33 fun _ => .generic 0 1

theorem push_spec {i : Instruction} (hi : i ∈ pushes) :
    slotEffect i.opcode = .push ∧ i.rule = .generic 0 1 := by
  have hall : ∀ i ∈ pushes, slotEffect i.opcode = .push ∧ i.rule = .generic 0 1 := by
    decide +kernel
  exact hall i hi

theorem processExecuted_cons (self : StackTracker) (e : Executed) (es : List Executed) :
    self.processExecuted (e :: es) =
      (self.processStep e.instruction.opcode (some e.offset) e.varsInScope).1.processExecuted es :=
  rfl

theorem processExecuted_append (self : StackTracker) (es es' : List Executed) :
    self.processExecuted (es ++ es') = (self.processExecuted es).processExecuted es' :=
  List.foldl_append

section Declaration

variable {x : VarDecl} {e : Executed} {self : StackTracker} {labels : List (Option String)}
  {label : Option String}

/-- The placeholder is labelled `x`: it is all there is to label. -/
theorem slots_placeholder (hin : InStatementOf x e) (he : e.instruction ∈ pushes)
    (hx : some x.name ∉ self.slots) :
    (self.processStep e.instruction.opcode (some e.offset) e.varsInScope).1.slots =
      self.slots ++ [some x.name] := by
  have hmoved : movedLabels self.slots e.instruction.opcode
      (labelForPush (some e.offset) e.varsInScope) =
        self.slots ++ [labelForPush (some e.offset) e.varsInScope] := by
    rw [movedLabels, (push_spec he).1]
  exact processStep_of_lost hin hx hmoved

/-- SWAP1 takes the label of `x` to the top. -/
theorem slots_swap1 (hin : InStatementOf x e) (he : e.instruction = ⟨"SWAP1", 0x90, .swap 1⟩)
    (hslots : self.slots = labels ++ [some x.name, label]) :
    (self.processStep e.instruction.opcode (some e.offset) e.varsInScope).1.slots =
      labels ++ [label, some x.name] := by
  have hmoved : movedLabels self.slots e.instruction.opcode
      (labelForPush (some e.offset) e.varsInScope) = labels ++ [label, some x.name] := by
    rw [movedLabels, he, show slotEffect 0x90 = .swap 1 by decide, hslots]
    exact swapTop_append labels [] (some x.name) label
  rw [processStep_of_labelled hin (by rw [hmoved]; simp), hmoved]

/-- POP drops the label of `x`, which is recovered on the slot below. -/
theorem slots_pop (hin : InStatementOf x e) (he : e.instruction = ⟨"POP", 0x50, .generic 1 0⟩)
    (hx : some x.name ∉ labels) (hslots : self.slots = labels ++ [label, some x.name]) :
    (self.processStep e.instruction.opcode (some e.offset) e.varsInScope).1.slots =
      labels ++ [some x.name] := by
  have hmoved : movedLabels self.slots e.instruction.opcode
      (labelForPush (some e.offset) e.varsInScope) = labels ++ [label] := by
    rw [movedLabels, he, show slotEffect 0x50 = .anon 1 0 by decide, hslots]
    show popN (labels ++ [label, some x.name]) 1 ++ [] = _
    rw [List.append_nil, List.append_cons]
    exact popN_append (labels ++ [label]) [some x.name]
  exact processStep_of_lost hin hx hmoved

end Declaration

/-- Reading the label on top gives the word on top. -/
theorem getVariableValue_snoc {self : StackTracker} {below : List (Option String)}
    {name : String} {stack : List U256} {value : U256} (hslots : self.slots = below ++ [some name])
    (hlen : below.length = stack.length) :
    self.getVariableValue name (stack ++ [value]) = some value := by
  have hpos : rposition (fun slot => decide (slot = some name)) self.slots = some below.length := by
    rw [hslots]
    exact rposition_append_cons (by simp) (fun slot hslot => absurd hslot List.not_mem_nil)
  rw [getVariableValue, hpos]
  simp [hlen]

/-- **Initialised declarations end up labelled.** From a tracker as deep as the stack
with no slot labelled `x`: after a placeholder PUSH, any right hand side that adds one
word and touches nothing up to the placeholder, SWAP1 and POP, all within the
statement that declares `x` alone, the labels below are unchanged, the placeholder's
slot is labelled `x`, and the value read for `x` is that of the right hand side. -/
theorem declaration_labelled (x : VarDecl) (self : StackTracker) (below : List U256)
    (hdepth : self.depth = below.length) (hx : some x.name ∉ self.slots)
    (placeholder swap1 pop : Executed) (rhs : List Executed)
    (hplaceholder : placeholder.instruction ∈ pushes)
    (hswap1 : swap1.instruction = ⟨"SWAP1", 0x90, .swap 1⟩)
    (hpop : pop.instruction = ⟨"POP", 0x50, .generic 1 0⟩)
    (hin : ∀ e ∈ placeholder :: (rhs ++ [swap1, pop]), InStatementOf x e)
    (s₁ s₂ s₃ s₄ : List U256) (h₁ : StackStep placeholder.instruction.rule below s₁)
    (h₂ : RunAbove (below.length + 1) s₁ rhs s₂) (hnet : s₂.length = s₁.length + 1)
    (h₃ : StackStep swap1.instruction.rule s₂ s₃) (h₄ : StackStep pop.instruction.rule s₃ s₄) :
    let after := self.processExecuted (placeholder :: (rhs ++ [swap1, pop]))
    after.slots = self.slots ++ [some x.name] ∧
      ∃ value, s₂.getLast? = some value ∧ s₄ = below ++ [value] ∧
        after.getVariableValue x.name s₄ = some value := by
  obtain ⟨p, rfl⟩ : ∃ p, s₁ = below ++ [p] :=
    exists_of_stackStep_push ((push_spec hplaceholder).2 ▸ h₁)
  have hlen : self.slots.length = below.length := hdepth
  have hplaced := slots_placeholder (hin placeholder List.mem_cons_self) hplaceholder hx
  rw [processExecuted_cons, processExecuted_append]
  generalize (self.processStep _ _ _).1 = placed at hplaced
  -- The right hand side leaves the label of the placeholder there.
  have hdepth₁ : placed.depth = (below ++ [p]).length := by
    simp [depth, hplaced, hlen]
  have hkept : placed.slots.take (below.length + 1) = self.slots ++ [some x.name] := by
    rw [hplaced]
    exact List.take_of_length_le (by simp [hlen])
  obtain ⟨hslots, hdepth₂, hwords⟩ := take_processExecuted h₂
    (fun e he => hin e (List.mem_cons_of_mem _ (List.mem_append_left _ he))) hdepth₁
    (by rw [hkept]; simp)
  generalize placed.processExecuted rhs = evaluated at hslots hdepth₂
  obtain ⟨label, hlabel⟩ : ∃ label, evaluated.slots = (self.slots ++ [some x.name]) ++ [label] := by
    refine exists_snoc_of_take ?_ ?_
    · rw [List.length_append, List.length_singleton, hlen, hslots, hkept]
    · rw [show evaluated.slots.length = s₂.length from hdepth₂, hnet]
      simp [hlen]
  obtain ⟨value, rfl⟩ : ∃ value, s₂ = (below ++ [p]) ++ [value] := by
    refine exists_snoc_of_take ?_ hnet
    rw [List.length_append, List.length_singleton, hwords]
    exact List.take_of_length_le (by simp)
  rw [List.append_assoc] at h₃ hlabel
  -- The words of the two slots are swapped and the placeholder is dropped.
  rw [hswap1] at h₃
  obtain rfl := eq_of_stackStep_swap_one h₃
  rw [hpop, show below ++ [value, p] = (below ++ [value]) ++ [p] by simp] at h₄
  obtain rfl := eq_of_stackStep_pop h₄
  have hswapped := slots_swap1 (hin swap1 (by simp)) hswap1 hlabel
  rw [processExecuted_cons]
  generalize (evaluated.processStep _ _ _).1 = swapped at hswapped
  have hpopped := slots_pop (hin pop (by simp)) hpop hx hswapped
  exact ⟨hpopped, value, by simp, rfl, getVariableValue_snoc hpopped hlen⟩

/-- An instruction of the statement that declares `sampleVar "x" 0`. -/
def inSample (mnemonic : String) (opcode : UInt8) (rule : StackRule) : Executed :=
  ⟨⟨mnemonic, opcode, rule⟩, 10, [sampleVar "x" 0]⟩

/-- `uint256 x = 7;` over one word: PUSH0, PUSH1 7, SWAP1, POP. -/
theorem declaration_labelled_literal :
    let es := [inSample "PUSH0" 0x5f (.generic 0 1), inSample "PUSH1" 0x60 (.generic 0 1),
      inSample "SWAP1" 0x90 (.swap 1), inSample "POP" 0x50 (.generic 1 0)]
    (processExecuted ⟨[none]⟩ es).slots = [none, some "x"] ∧
      (processExecuted ⟨[none]⟩ es).getVariableValue "x" [5, 7] = some 7 := by
  have hin : ∀ mnemonic opcode rule,
      InStatementOf (sampleVar "x" 0) (inSample mnemonic opcode rule) := by
    intro mnemonic opcode rule
    have hcovered : (sampleVar "x" 0).statementContains 10 = true := by decide
    refine ⟨List.mem_singleton.mpr rfl, List.nodup_singleton _, hcovered, fun u hu hne => ?_⟩
    exact absurd (List.mem_singleton.mp hu) hne
  have hpush : ∀ s : List U256, ∀ w, StackStep (.generic 0 1) s (s ++ [w]) := by
    intro s w
    have h := @StackStep.generic _ s [] [w]
    rwa [List.append_nil] at h
  have hrhs : RunAbove 2 [5, 0] [inSample "PUSH1" 0x60 (.generic 0 1)] [5, 0, 7] :=
    .cons (by decide +kernel) (hpush [5, 0] 7) (by decide) .nil
  obtain ⟨hslots, value, hvalue, -, hread⟩ := declaration_labelled (sampleVar "x" 0) ⟨[none]⟩ [5]
    rfl (by decide) (inSample "PUSH0" 0x5f (.generic 0 1)) (inSample "SWAP1" 0x90 (.swap 1))
    (inSample "POP" 0x50 (.generic 1 0)) [inSample "PUSH1" 0x60 (.generic 0 1)]
    (by decide +kernel) rfl rfl (by simp [hin]) [5, 0] [5, 0, 7] [5, 7, 0] [5, 7] (hpush [5] 0)
    hrhs rfl (@StackStep.swap _ [5] [] 0 7) (@StackStep.generic _ [5, 7] [0] [])
  obtain rfl : 7 = value := Option.some.inj hvalue
  exact ⟨hslots, hread⟩

end StackTracker

end EvmRecorder
