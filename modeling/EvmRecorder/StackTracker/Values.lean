import EvmRecorder.StackTracker.Simulation

/-!
# The values of all variables

One walk over the labelled slots gives what the lookups of the single names give, each
name once; along a run these are the values that the names stand for.
-/

namespace EvmRecorder.StackTracker

open Stack Evm

/-! ## §1  The walk and the lookups -/

theorem rposition_append_singleton {α : Type} (p : α → Bool) (xs : List α) (x : α) :
    rposition p (xs ++ [x]) = if p x then some xs.length else rposition p xs := by
  by_cases hx : p x = true
  · rw [if_pos hx]
    exact rposition_append_cons hx fun _ hy => absurd hy (List.not_mem_nil)
  · rw [if_neg hx, rposition, rposition, List.reverse_append, List.reverse_singleton,
      List.singleton_append, List.findIdx?_cons, if_neg hx, List.length_append,
      List.length_singleton, Option.map_map]
    congr 1
    funext i
    show xs.length + 1 - 1 - (i + 1) = xs.length - 1 - i
    omega

variable (actualStack : List U256)

/-- The walk down from the top of `slots`. -/
def walk (slots : List (Option String)) (seen : List String) : List (String × U256) :=
  visibleValues actualStack slots.zipIdx.reverse seen

variable {actualStack}

theorem walk_append_singleton (slots : List (Option String)) (slot : Option String)
    (seen : List String) :
    walk actualStack (slots ++ [slot]) seen =
      match slot with
      | none => walk actualStack slots seen
      | some name =>
          if name ∈ seen then walk actualStack slots seen
          else ((actualStack[slots.length]?).map fun val => (name, val)).toList ++
            walk actualStack slots (name :: seen) := by
  have hsplit : (slots ++ [slot]).zipIdx.reverse = (slot, slots.length) :: slots.zipIdx.reverse := by
    rw [List.zipIdx_append, List.reverse_append, Nat.zero_add]
    rfl
  rw [walk, hsplit]
  cases slot with
  | none => rfl
  | some name =>
      rw [visibleValues]
      dsimp only
      split
      · rfl
      · cases actualStack[slots.length]? with
        | none => rfl
        | some val => rfl

/-- A name not met above is found where its lookup finds it. -/
theorem mem_walk_iff {name : String} {w : U256} (slots : List (Option String)) :
    ∀ seen, (name, w) ∈ walk actualStack slots seen ↔
      name ∉ seen ∧ (⟨slots⟩ : StackTracker).getVariableValue name actualStack = some w := by
  induction slots using List.reverseRecOn with
  | nil =>
      intro seen
      simp [walk, visibleValues, getVariableValue, rposition]
  | append_singleton slots slot ih =>
      intro seen
      rw [walk_append_singleton]
      have hlookup : (⟨slots ++ [slot]⟩ : StackTracker).getVariableValue name actualStack =
          if slot = some name then actualStack[slots.length]?
          else (⟨slots⟩ : StackTracker).getVariableValue name actualStack := by
        unfold getVariableValue
        dsimp only
        rw [rposition_append_singleton]
        by_cases hslot : slot = some name
        · rw [if_pos hslot, if_pos (decide_eq_true hslot)]
          rfl
        · rw [if_neg hslot, if_neg (by simpa using hslot)]
      rw [hlookup]
      cases slot with
      | none => exact ih seen
      | some other =>
          have hhead : (name, w) ∈ ((actualStack[slots.length]?).map fun val =>
              (other, val)).toList ↔ other = name ∧ actualStack[slots.length]? = some w := by
            rw [Option.mem_toList, Option.map_eq_some_iff]
            constructor
            · rintro ⟨val, hval, heq⟩
              obtain ⟨rfl, rfl⟩ := Prod.mk.inj heq
              exact ⟨rfl, hval⟩
            · rintro ⟨rfl, hval⟩
              exact ⟨w, hval, rfl⟩
          dsimp only
          by_cases hseen : other ∈ seen
          · rw [if_pos hseen, ih seen]
            apply and_congr_right
            intro hname
            have hne : other ≠ name := fun heq => hname (heq ▸ hseen)
            rw [if_neg fun heq => hne (Option.some.inj heq)]
          · rw [if_neg hseen, List.mem_append, hhead, ih, List.mem_cons, not_or]
            by_cases hname : other = name
            · obtain rfl := hname
              rw [if_pos rfl]
              simp [hseen]
            · rw [if_neg fun heq => hname (Option.some.inj heq)]
              simp [hname, Ne.symm hname]

theorem nodup_walk (slots : List (Option String)) :
    ∀ seen, ((walk actualStack slots seen).map Prod.fst).Nodup := by
  induction slots using List.reverseRecOn with
  | nil => exact fun _ => List.nodup_nil
  | append_singleton slots slot ih =>
      intro seen
      rw [walk_append_singleton]
      cases slot with
      | none => exact ih seen
      | some name =>
          dsimp only
          split
          · exact ih seen
          · cases actualStack[slots.length]? with
            | none => exact ih (name :: seen)
            | some val =>
                refine List.nodup_cons.mpr ⟨?_, ih (name :: seen)⟩
                intro hmem
                obtain ⟨⟨other, w⟩, hmem, rfl⟩ := List.mem_map.mp hmem
                exact ((mem_walk_iff slots _).mp hmem).1 List.mem_cons_self

/-- All values are those of the single lookups. -/
theorem mem_allVariableValues_iff {self : StackTracker} {name : String} {w : U256} :
    (name, w) ∈ self.allVariableValues actualStack ↔
      self.getVariableValue name actualStack = some w := by
  rw [allVariableValues]
  refine (mem_walk_iff self.slots []).trans ?_
  simp

/-! ## §2  On a mirrored stack -/

theorem isSome_rposition_iff {α : Type} {p : α → Bool} {xs : List α} :
    (rposition p xs).isSome ↔ ∃ x ∈ xs, p x = true := by
  rw [rposition, Option.isSome_map, List.findIdx?_isSome, List.any_reverse, List.any_eq_true]

/-- Every labelled name is found on a stack that the slots mirror. -/
theorem getVariableValue_eq_some_iff {v : String → U256} {self : StackTracker}
    {s : List U256} (hm : Mirrors v self.slots s) {name : String} {w : U256} :
    self.getVariableValue name s = some w ↔ hasLabel self.slots name ∧ w = v name := by
  have hlabel : hasLabel self.slots name ↔ (rposition (· = some name) self.slots).isSome := by
    rw [isSome_rposition_iff, hasLabel, List.any_eq_true]
  rw [hlabel, getVariableValue]
  cases hpos : rposition (· = some name) self.slots with
  | none => simp
  | some pos =>
      obtain ⟨slot, hslot, heq⟩ := rposition_eq_some hpos
      obtain rfl : slot = some name := of_decide_eq_true heq
      have hword : s[pos]? = some (v name) := (mirrors_iff.mp hm).2 pos name hslot
      simp only [Option.bind_eq_bind, Option.bind_some, hword, Option.isSome_some, true_and]
      exact ⟨fun h => (Option.some.inj h).symm, fun h => congrArg some h.symm⟩

/-! ## §3  Labels that are added -/

section Added

variable {v : String → U256} {s s' : List U256} {vars : List VarDecl}

/-- What a step reports is true of the stack behind it: each name is given to a word
that is its value. -/
def Truthful (v : String → U256) (s : List U256) (assignments : List VarAssignment) : Prop :=
  ∀ a ∈ assignments, s[a.stackPosition]? = some (v a.name)

instance (assignments : List VarAssignment) : Decidable (Truthful v s assignments) :=
  inferInstanceAs (Decidable (∀ a ∈ assignments, _))

/-- A labelled push mirrors the pushed word, the other opcodes add no label. -/
theorem mirrors_execOpcode_of_truthful {slots : List (Option String)} {rule : StackRule}
    {opcode : UInt8} {offset : Option Int32}
    (heffect : Implements (slotEffect opcode) rule = true) (hstep : StackStep rule s s')
    (htrue : Truthful v s' (execOpcode slots opcode offset vars).2) (hm : Mirrors v slots s) :
    Mirrors v (execOpcode slots opcode offset vars).1 s' := by
  have hunlabelled := mirrors_execOpcode offset heffect hstep hm
  cases he : slotEffect opcode with
  | push =>
      rw [execOpcode_push he] at hunlabelled ⊢
      rw [execOpcode, he] at htrue
      rw [mirrors_iff] at hunlabelled ⊢
      refine ⟨by rw [← hunlabelled.1, List.length_append, List.length_append]; rfl, ?_⟩
      intro i x hx
      rcases Nat.lt_or_ge i slots.length with hlt | hge
      · rw [List.getElem?_append_left hlt] at hx
        exact hunlabelled.2 i x (by rw [List.getElem?_append_left hlt, hx])
      · rw [List.getElem?_append_right hge, List.getElem?_singleton] at hx
        split at hx
        · next htop =>
            obtain rfl : i = slots.length := Nat.le_antisymm (Nat.sub_eq_zero_iff_le.mp htop) hge
            exact htrue ⟨x, slots.length⟩ (by simp [Option.some.inj hx])
        · cases hx
  | anon pops pushes =>
      rw [execOpcode_anon he] at hunlabelled ⊢
      exact hunlabelled
  | dup n =>
      rw [execOpcode_dup he] at hunlabelled ⊢
      exact hunlabelled
  | swap n =>
      rw [execOpcode_swap he] at hunlabelled ⊢
      exact hunlabelled

theorem isPrefix_foldl_recoverLabel {offset : Int32} :
    ∀ acc : List (Option String) × List VarAssignment,
      acc.2 <+: (vars.foldl (recoverLabel offset) acc).2 := by
  induction vars with
  | nil => exact fun acc => List.prefix_rfl
  | cons u vars ih =>
      intro acc
      refine List.IsPrefix.trans ?_ (ih _)
      unfold recoverLabel
      split
      · exact List.prefix_append _ _
      · exact List.prefix_rfl

/-- A recovered label mirrors the top word. -/
theorem mirrors_foldl_recoverLabel {offset : Int32} :
    ∀ acc : List (Option String) × List VarAssignment,
      Truthful v s' (vars.foldl (recoverLabel offset) acc).2 → Mirrors v acc.1 s' →
        Mirrors v (vars.foldl (recoverLabel offset) acc).1 s' := by
  induction vars with
  | nil => exact fun _ _ hm => hm
  | cons u vars ih =>
      intro acc htrue hm
      rw [List.foldl_cons] at htrue ⊢
      refine ih _ htrue ?_
      have hround : Truthful v s' (recoverLabel offset acc u).2 :=
        fun a ha => htrue a ((isPrefix_foldl_recoverLabel _).subset ha)
      unfold recoverLabel at hround ⊢
      split at hround
      · rename_i h
        rw [if_pos h]
        have htop := hround _ (List.mem_append_right _ (List.mem_singleton.mpr rfl))
        rw [mirrors_iff] at hm ⊢
        refine ⟨by rw [List.length_set, hm.1], fun i x hx => ?_⟩
        by_cases hi : acc.1.length - 1 = i
        · obtain rfl := hi
          rw [List.getElem?_set_self'] at hx
          obtain ⟨_, -, hname⟩ := Option.map_eq_some_iff.mp hx
          obtain rfl : u.name = x := Option.some.inj hname
          exact htop
        · rw [List.getElem?_set_ne hi] at hx
          exact hm.2 i x hx
      · rename_i h
        rw [if_neg h]
        exact hm

theorem mirrors_processStep {self : StackTracker} {i : Instruction} {offset : Option Int32}
    (hi : i ∈ cancun) (hstep : StackStep i.rule s s')
    (htrue : Truthful v s' (self.processStep i.opcode offset vars).2)
    (hm : Mirrors v self.slots s) : Mirrors v (self.processStep i.opcode offset vars).1.slots s' := by
  have hexec := fun htrue => @mirrors_execOpcode_of_truthful v s s' vars self.slots i.rule i.opcode
    offset (slotEffect_implements hi) hstep htrue hm
  cases offset with
  | none => exact hexec htrue
  | some offset =>
      refine mirrors_foldl_recoverLabel _ htrue (hexec fun a ha => ?_)
      exact htrue a ((isPrefix_foldl_recoverLabel _).subset ha)

end Added

/-! ## §4  Whole runs -/

/-- A run of instructions, each with the offset and the variables in scope there, in which
the tracker reports only what is true of the stack. -/
inductive TruthfulRun (v : String → U256) : StackTracker → List U256 → StackTracker →
    List U256 → Prop where
  | nil {self : StackTracker} {s : List U256} : TruthfulRun v self s self s
  | cons {self self' : StackTracker} {s s' s'' : List U256} {i : Instruction}
      {offset : Option Int32} {vars : List VarDecl} :
      i ∈ cancun → StackStep i.rule s s' →
      Truthful v s' (self.processStep i.opcode offset vars).2 →
      TruthfulRun v (self.processStep i.opcode offset vars).1 s' self' s'' →
      TruthfulRun v self s self' s''

theorem mirrors_of_truthfulRun {v : String → U256} {self self' : StackTracker}
    {s s' : List U256} (hrun : TruthfulRun v self s self' s') (hm : Mirrors v self.slots s) :
    Mirrors v self'.slots s' := by
  induction hrun with
  | nil => exact hm
  | cons hi hstep htrue _ ih => exact ih (mirrors_processStep hi hstep htrue hm)

/-- **All variables of a run.** After a run that starts with labelled slots that hold
their names' values, the walk lists every labelled name once, with its value. -/
theorem allVariableValues_of_run (v : String → U256) {self self' : StackTracker}
    {s s' : List U256} (hdepth : self.depth = s.length)
    (hlabels : ∀ (i : Nat) x, self.slots[i]? = some (some x) → s[i]? = some (v x))
    (hrun : TruthfulRun v self s self' s') :
    ((self'.allVariableValues s').map Prod.fst).Nodup ∧
      ∀ name w, (name, w) ∈ self'.allVariableValues s' ↔
        hasLabel self'.slots name ∧ w = v name := by
  have hm : Mirrors v self'.slots s' :=
    mirrors_of_truthfulRun hrun (mirrors_iff.mpr ⟨hdepth, hlabels⟩)
  refine ⟨nodup_walk _ _, fun name w => ?_⟩
  rw [mem_allVariableValues_iff]
  exact getVariableValue_eq_some_iff hm

/-- `PUSH1` in the declaration of `x`, then `PUSH1, SWAP1` behind it: `x` is listed where
it has gone. -/
theorem allVariableValues_of_run_swap :
    ∃ self', TruthfulRun (fun _ => 7) .new [] self' [5, 7] ∧
      ("x", 7) ∈ self'.allVariableValues [5, 7] := by
  let x : VarDecl :=
    { name := "x", typeName := "uint256", src := ⟨35, 9, 0⟩, declarationOffset := 35 }
  have hdeclare : StackStep (.generic 0 1) ([] : List U256) [7] := @StackStep.generic _ [] [] [7]
  have hpush : StackStep (.generic 0 1) ([7] : List U256) [7, 5] := @StackStep.generic _ [7] [] [5]
  have hswap : StackStep (.swap 1) ([7, 5] : List U256) [5, 7] := @StackStep.swap _ [] [] 7 5
  have hrun :=
    @TruthfulRun.cons (fun _ => 7) .new _ _ _ _ ⟨"PUSH1", 0x60, .generic 0 1⟩ (some 35) [x]
      (by decide +kernel) hdeclare (by decide +kernel)
      (@TruthfulRun.cons _ _ _ _ _ _ ⟨"PUSH1", 0x60, .generic 0 1⟩ none [x]
        (by decide +kernel) hpush (by decide +kernel)
        (@TruthfulRun.cons _ _ _ _ _ _ ⟨"SWAP1", 0x90, .swap 1⟩ none [x]
          (by decide +kernel) hswap (by decide +kernel) .nil))
  exact ⟨_, hrun, ((allVariableValues_of_run (fun _ => 7) rfl (fun i x hx => by cases hx)
    hrun).2 "x" 7).mpr ⟨by decide +kernel, rfl⟩⟩

end EvmRecorder.StackTracker
