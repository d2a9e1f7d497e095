import EvmRecorder.MemoryTracker.DeclarationMatch
import EvmRecorder.StackTracker.Recovery
import EvmRecorder.StackTracker.Simulation

/-!
# Where labels come from

A step of the tracker moves the labels it has. A new one is the name of a variable in scope
whose declaration or statement contains the source offset.
-/

namespace EvmRecorder.StackTracker

open Stack Scans Evm

/-- The source offset is in the declaration or the statement of the variable. -/
def Matches (offset : Option Int32) (v : VarDecl) : Prop :=
  ∃ off, offset = some off ∧ matchClass off v ≠ none

theorem matches_of_statementContains {off : Int32} {v : VarDecl}
    (h : v.statementContains off = true) : Matches (some off) v := by
  refine ⟨off, rfl, ?_⟩
  rw [matchClass]
  split
  · exact Option.some_ne_none 1
  · split
    · exact Option.some_ne_none 2
    · exact Option.some_ne_none 3

/-- A pushed word is labelled with the name of a matching variable. -/
theorem exists_of_labelForPush {offset : Option Int32} {vars : List VarDecl} {name : String}
    (h : labelForPush offset vars = some name) :
    ∃ v ∈ vars, v.name = name ∧ Matches offset v := by
  cases offset with
  | none => cases h
  | some off =>
      rw [labelForPush_some, Option.map_eq_some_iff] at h
      obtain ⟨v, hfound, rfl⟩ := h
      obtain ⟨c, i, hleast, hv⟩ := firstFound_eq_some_iff.mp hfound
      obtain ⟨v', hv', hclass⟩ := hleast.1
      obtain rfl : v = v' := Option.some.inj (hv.symm.trans hv')
      rw [← matchClass_eq] at hclass
      exact ⟨v, List.mem_of_getElem? hv, rfl, off, rfl, by
        rw [hclass]
        exact Option.some_ne_none c⟩

theorem mem_of_mem_swapTop {α : Type} {xs : List α} {n : Nat} {x : α}
    (h : x ∈ swapTop xs n) : x ∈ xs := by
  unfold swapTop at h
  split at h
  · rename_i top below htop hbelow
    split at h
    · rcases List.mem_or_eq_of_mem_set h with h | rfl
      · rcases List.mem_or_eq_of_mem_set h with h | rfl
        · exact h
        · exact List.mem_of_getElem? hbelow
      · exact List.mem_of_getElem? htop
    · exact h
  · exact h

section

variable {slots : List (Option String)} {name : String}

theorem mem_of_peekFromTop {n : Nat} (h : peekFromTop slots n = some name) :
    some name ∈ slots := by
  unfold peekFromTop at h
  split at h
  · cases h
  · cases hslot : slots[slots.length - n]? with
    | none =>
        rw [hslot] at h
        cases h
    | some slot =>
        rw [hslot] at h
        obtain rfl : slot = some name := h
        exact List.mem_of_getElem? hslot

/-- An opcode moves and copies labels, or adds that of the pushed word. -/
theorem mem_movedLabels {opcode : UInt8} {pushed : Option String}
    (h : some name ∈ movedLabels slots opcode pushed) : some name ∈ slots ∨ pushed = some name := by
  unfold movedLabels at h
  split at h
  · rcases List.mem_append.mp h with h | h
    · exact .inl (List.mem_of_mem_take h)
    · cases List.eq_of_mem_replicate h
  · rcases List.mem_append.mp h with h | h
    · exact .inl h
    · exact .inr (List.mem_singleton.mp h).symm
  · rcases List.mem_append.mp h with h | h
    · exact .inl h
    · exact .inl (mem_of_peekFromTop (List.mem_singleton.mp h).symm)
  · exact .inl (mem_of_mem_swapTop h)

/-- The recovery loop labels the top word only. -/
theorem getElem?_foldl_recoverLabel {off : Int32} {pos : Nat} {vars : List VarDecl} :
    ∀ {acc : List (Option String) × List VarAssignment},
      (vars.foldl (recoverLabel off) acc).1[pos]? = some (some name) →
        acc.1[pos]? = some (some name) ∨ (pos + 1 = acc.1.length ∧
          ∃ v ∈ vars, v.name = name ∧ v.statementContains off = true) := by
  induction vars with
  | nil => exact fun h => .inl h
  | cons v vars ih =>
      intro acc h
      rw [List.foldl_cons] at h
      have hlength := length_recoverLabel off [v] acc
      rw [List.foldl_cons, List.foldl_nil] at hlength
      rcases ih h with h | ⟨htop, u, hu, hname, hstmt⟩
      · unfold recoverLabel at h
        split at h
        · rename_i hround
          rw [Bool.and_eq_true, Bool.and_eq_true] at hround
          by_cases hpos : acc.1.length - 1 = pos
          · rw [hpos, List.getElem?_set_self'] at h
            obtain ⟨_, hold, hname⟩ := Option.map_eq_some_iff.mp h
            have hlt := (List.getElem?_eq_some_iff.mp hold).1
            exact .inr ⟨by omega, v, List.mem_cons_self, Option.some.inj hname, hround.1.1⟩
          · rw [List.getElem?_set_ne hpos] at h
            exact .inl h
        · exact .inl h
      · exact .inr ⟨htop.trans hlength, u, List.mem_cons_of_mem v hu, hname, hstmt⟩

/-- A label after a step was there before, or is the name of a matching variable in scope. -/
theorem mem_slots_processStep {self : StackTracker} {opcode : UInt8} {offset : Option Int32}
    {vars : List VarDecl} (h : some name ∈ (self.processStep opcode offset vars).1.slots) :
    some name ∈ self.slots ∨ ∃ v ∈ vars, v.name = name ∧ Matches offset v := by
  have hexec : some name ∈ (execOpcode self.slots opcode offset vars).1 →
      some name ∈ self.slots ∨ ∃ v ∈ vars, v.name = name ∧ Matches offset v := by
    intro h
    rw [execOpcode_fst] at h
    exact (mem_movedLabels h).imp_right exists_of_labelForPush
  cases offset with
  | none => exact hexec h
  | some off =>
      obtain ⟨pos, hpos⟩ := List.mem_iff_getElem?.mp h
      rcases getElem?_foldl_recoverLabel hpos with h | ⟨-, v, hv, hname, hstmt⟩
      · exact hexec (List.mem_of_getElem? h)
      · exact .inr ⟨v, hv, hname, matches_of_statementContains hstmt⟩

/-- On a stack that the slots are as high as, the opcode moves labels as the instruction moves
words. -/
theorem getElem?_movedLabels {rule : StackRule} {before after : List U256} {opcode : UInt8}
    {pushed : Option String} {pos : Nat} (heffect : Implements (slotEffect opcode) rule = true)
    (hstep : StackStep rule before after) (hdepth : slots.length = before.length)
    (h : (movedLabels slots opcode pushed)[pos]? = some (some name)) :
    (∃ old, slots[old]? = some (some name) ∧ rule.Moves before.length old pos) ∨
      (pos + 1 = after.length ∧ pushed = some name) := by
  unfold movedLabels at h
  cases hstep with
  | @generic rest args results =>
      rcases implements_generic heffect with he | ⟨he, hδ, hα⟩
      · rw [he] at h
        dsimp only at h
        rcases Nat.lt_or_ge pos (popN slots args.length).length with hlt | hge
        -- below the removed words; the new slots above them are anonymous
        · rw [List.getElem?_append_left hlt, popN] at h
          rw [length_popN, hdepth] at hlt
          rw [List.getElem?_take] at h
          split at h
          · exact .inl ⟨pos, h, Nat.add_lt_of_lt_sub hlt, rfl⟩
          · cases h
        · rw [List.getElem?_append_right hge] at h
          cases List.eq_of_mem_replicate (List.mem_of_getElem? h)
      · rw [he] at h
        dsimp only at h
        rcases Nat.lt_or_ge pos slots.length with hlt | hge
        · rw [List.getElem?_append_left hlt] at h
          rw [hdepth] at hlt
          exact .inl ⟨pos, h, by rwa [hδ], rfl⟩
        -- the pushed word
        · rw [List.getElem?_append_right hge, List.getElem?_singleton] at h
          split at h
          · refine .inr ⟨?_, Option.some.inj h⟩
            simp only [List.length_append, hδ, hα] at hdepth ⊢
            omega
          · cases h
  | @dup rest above w =>
      rw [implements_dup heffect] at h
      dsimp only at h
      rcases Nat.lt_or_ge pos slots.length with hlt | hge
      · rw [List.getElem?_append_left hlt] at h
        exact .inl ⟨pos, h, .inl rfl⟩
      · rw [List.getElem?_append_right hge, List.getElem?_singleton] at h
        split at h
        · next htop =>
            -- the copy of a labelled word
            have hpeek := Option.some.inj h
            unfold peekFromTop at hpeek
            split at hpeek
            · cases hpeek
            · next hdeep =>
                rw [not_or, Nat.not_lt] at hdeep
                cases hslot : slots[slots.length - (above.length + 1)]? with
                | none =>
                    rw [hslot] at hpeek
                    cases hpeek
                | some slot =>
                    rw [hslot] at hpeek
                    obtain rfl : slot = some name := hpeek
                    refine .inl ⟨_, hslot, .inr ⟨?_, ?_⟩⟩
                    · rw [← hdepth]
                      exact Nat.sub_add_cancel hdeep.2
                    · rw [← hdepth]
                      exact Nat.le_antisymm (Nat.sub_eq_zero_iff_le.mp htop) hge
        · cases h
  | @swap rest between below top =>
      rw [implements_swap heffect] at h
      have hdeep : between.length + 1 < slots.length := by
        rw [hdepth, List.length_append, List.length_cons, List.length_append, List.length_singleton]
        omega
      obtain ⟨old, hold, hmoved⟩ := exists_of_getElem?_swapTop hdeep h
      rw [hdepth] at hmoved
      exact .inl ⟨old, hold, hmoved⟩

/-- Behind an instruction labels are where it has moved them, and on top of the stack those of
matching variables in scope. -/
theorem getElem?_processStep {self : StackTracker} {i : Instruction} {before after : List U256}
    {offset : Option Int32} {vars : List VarDecl} {pos : Nat} (hi : i ∈ cancun)
    (hstep : StackStep i.rule before after) (hdepth : self.depth = before.length)
    (h : (self.processStep i.opcode offset vars).1.slots[pos]? = some (some name)) :
    (∃ old, self.slots[old]? = some (some name) ∧ i.rule.Moves before.length old pos) ∨
      (pos + 1 = after.length ∧ ∃ v ∈ vars, v.name = name ∧ Matches offset v) := by
  have hexec : (execOpcode self.slots i.opcode offset vars).1[pos]? = some (some name) →
      (∃ old, self.slots[old]? = some (some name) ∧ i.rule.Moves before.length old pos) ∨
        (pos + 1 = after.length ∧ ∃ v ∈ vars, v.name = name ∧ Matches offset v) := by
    intro h
    rw [execOpcode_fst] at h
    exact (getElem?_movedLabels (slotEffect_implements hi) hstep hdepth h).imp_right
      fun ⟨htop, hpushed⟩ => ⟨htop, exists_of_labelForPush hpushed⟩
  cases offset with
  | none => exact hexec h
  | some off =>
      rcases getElem?_foldl_recoverLabel h with h | ⟨htop, v, hv, hname, hstmt⟩
      · exact hexec h
      · have hheight := depth_processStep_of_stackStep hi hstep hdepth (some off) vars
        rw [depth_processStep, ← length_execOpcode self.slots i.opcode (some off) vars] at hheight
        exact .inr ⟨htop.trans hheight, v, hv, hname, matches_of_statementContains hstmt⟩

end

/-- A seeded tracker has the labels it is given, if there is room for them. -/
theorem mem_slots_seedTopLabels {self : StackTracker} {depth : Nat} {labels : List String}
    {name : String} (h : some name ∈ (self.seedTopLabels depth labels).slots) : name ∈ labels := by
  unfold seedTopLabels at h
  split at h
  · cases List.eq_of_mem_replicate h
  · rcases List.mem_append.mp h with h | h
    · cases List.eq_of_mem_replicate h
    · exact (List.mem_map_of_injective (Option.some_injective String)).mp h

/-- The label of the variable that is looked up is at `pos`. -/
def LabelAt (tracker : StackTracker) (var : VarDecl) (pos : Nat) : Prop :=
  rposition (· = some var.name) tracker.slots = some pos

theorem getVariableValue_eq_none_iff {tracker : StackTracker} {var : VarDecl}
    {stack : List U256} : tracker.getVariableValue var.name stack = none ↔
      ∀ pos, LabelAt tracker var pos → stack.length ≤ pos := by
  simp only [StackTracker.getVariableValue, Option.bind_eq_bind, Option.bind_eq_none_iff,
    List.getElem?_eq_none_iff]
  rfl

theorem LabelAt.mem {tracker : StackTracker} {var : VarDecl} {pos : Nat}
    (h : LabelAt tracker var pos) : some var.name ∈ tracker.slots := by
  obtain ⟨slot, hslot, heq⟩ := rposition_eq_some h
  obtain rfl : slot = some var.name := of_decide_eq_true heq
  exact List.mem_of_getElem? hslot

end EvmRecorder.StackTracker
