import EvmRecorder.Model.StackTracker

/-!
# Label recovery

After every opcode a variable whose statement contains the offset and that has no
slot takes over the top slot. The loop runs over all variables in scope, so a
second one, or one whose label was on top, undoes the first. What is recovered
stays valid exactly when one variable at most is recovered and the label it
overwrites is not needed.
-/

namespace EvmRecorder.StackTracker

open Stack

/-! ## §1  The recovery loop -/

theorem hasLabel_iff {slots : List (Option String)} {name : String} :
    hasLabel slots name = true ↔ some name ∈ slots := by
  simp [hasLabel]

/-- The round of `v` writes the top slot. -/
def Recovers (offset : Int32) (slots : List (Option String)) (v : VarDecl) : Prop :=
  v.statementContains offset = true ∧ some v.name ∉ slots ∧ slots ≠ []

theorem recoverLabel_of_not_recovers {offset : Int32}
    {acc : List (Option String) × List VarAssignment} {v : VarDecl}
    (h : ¬ Recovers offset acc.1 v) : recoverLabel offset acc v = acc := by
  refine if_neg fun hround => h ?_
  simp only [Bool.and_eq_true, Bool.not_eq_true', ← Bool.not_eq_true, hasLabel_iff,
    List.isEmpty_iff] at hround
  exact ⟨hround.1.1, hround.1.2, hround.2⟩

theorem recoverLabel_of_recovers {offset : Int32} {below : List (Option String)}
    {top : Option String} {assignments : List VarAssignment} {v : VarDecl}
    (h : Recovers offset (below ++ [top]) v) :
    recoverLabel offset (below ++ [top], assignments) v =
      (below ++ [some v.name], assignments ++ [⟨v.name, below.length⟩]) := by
  have hlabel : hasLabel (below ++ [top]) v.name = false := by
    rw [← Bool.not_eq_true, hasLabel_iff]
    exact h.2.1
  simp [recoverLabel, h.1, hlabel]

/-- Nothing is recovered when every variable of the statement has a slot. -/
theorem foldl_recoverLabel_eq_self {offset : Int32}
    {acc : List (Option String) × List VarAssignment} : ∀ {vars : List VarDecl},
    (∀ v ∈ vars, ¬ Recovers offset acc.1 v) → vars.foldl (recoverLabel offset) acc = acc
  | [], _ => rfl
  | v :: vars, h => by
      rw [List.foldl_cons, recoverLabel_of_not_recovers (h v List.mem_cons_self)]
      exact foldl_recoverLabel_eq_self fun u hu => h u (List.mem_cons_of_mem v hu)

/-- One variable is recovered when those before it are not, and those after it
have slots of their own. -/
theorem foldl_recoverLabel_single {offset : Int32} {below : List (Option String)}
    {top : Option String} (assignments : List VarAssignment) {pre post : List VarDecl}
    {v : VarDecl} (hpre : ∀ u ∈ pre, ¬ Recovers offset (below ++ [top]) u)
    (hv : Recovers offset (below ++ [top]) v)
    (hpost : ∀ u ∈ post, ¬ Recovers offset (below ++ [some v.name]) u) :
    (pre ++ v :: post).foldl (recoverLabel offset) (below ++ [top], assignments) =
      (below ++ [some v.name], assignments ++ [⟨v.name, below.length⟩]) := by
  have hfirst : pre.foldl (recoverLabel offset) (below ++ [top], assignments) =
      (below ++ [top], assignments) := foldl_recoverLabel_eq_self hpre
  rw [List.foldl_append, hfirst, List.foldl_cons, recoverLabel_of_recovers hv]
  exact foldl_recoverLabel_eq_self hpost

/-! ## §2  The labels before recovery -/

/-- Labels moved as the opcode moves words; a pushed word gets `pushed`. -/
def movedLabels (slots : List (Option String)) (opcode : UInt8) (pushed : Option String) :
    List (Option String) :=
  match slotEffect opcode with
  | .anon pops pushes => popN slots pops ++ List.replicate pushes none
  | .push => slots ++ [pushed]
  | .dup n => slots ++ [peekFromTop slots n]
  | .swap n => swapTop slots n

theorem execOpcode_fst (slots : List (Option String)) (opcode : UInt8) (offset : Option Int32)
    (vars : List VarDecl) :
    (execOpcode slots opcode offset vars).1 =
      movedLabels slots opcode (labelForPush offset vars) := by
  unfold execOpcode movedLabels
  cases slotEffect opcode <;> rfl

/-- The opcode is a PUSH whose word gets a label. -/
def LabelsPush (opcode : UInt8) (offset : Option Int32) (vars : List VarDecl) : Prop :=
  slotEffect opcode = .push ∧ labelForPush offset vars ≠ none

/-- Only a labelled PUSH is reported by the opcode match, at the new top slot. -/
theorem execOpcode_snd (slots : List (Option String)) (opcode : UInt8) (offset : Option Int32)
    (vars : List VarDecl) :
    (¬ LabelsPush opcode offset vars ∧ (execOpcode slots opcode offset vars).2 = []) ∨
      ∃ name, LabelsPush opcode offset vars ∧
        (execOpcode slots opcode offset vars).2 = [⟨name, slots.length⟩] ∧
        movedLabels slots opcode (labelForPush offset vars) = slots ++ [some name] := by
  unfold execOpcode LabelsPush movedLabels
  cases slotEffect opcode with
  | push =>
      cases labelForPush offset vars with
      | none => exact .inl ⟨by simp, rfl⟩
      | some name => exact .inr ⟨name, by simp, rfl, rfl⟩
  | anon pops pushes => exact .inl ⟨by simp, rfl⟩
  | dup n => exact .inl ⟨by simp, rfl⟩
  | swap n => exact .inl ⟨by simp, rfl⟩

theorem processStep_none (self : StackTracker) (opcode : UInt8) (vars : List VarDecl) :
    self.processStep opcode none vars =
      (⟨(execOpcode self.slots opcode none vars).1⟩, (execOpcode self.slots opcode none vars).2) :=
  rfl

theorem processStep_some (self : StackTracker) (opcode : UInt8) (offset : Int32)
    (vars : List VarDecl) :
    self.processStep opcode (some offset) vars =
      (⟨(vars.foldl (recoverLabel offset)
          (execOpcode self.slots opcode (some offset) vars)).1⟩,
        (vars.foldl (recoverLabel offset)
          (execOpcode self.slots opcode (some offset) vars)).2) :=
  rfl

/-! ## §3  When recovery steals -/

/-- `pos` is the only slot labelled `name`. -/
def IsOnlySlot (slots : List (Option String)) (pos : Nat) (name : String) : Prop :=
  slots[pos]? = some (some name) ∧ ∀ i : Nat, slots[i]? = some (some name) → i = pos

theorem isOnlySlot_top_iff {below : List (Option String)} {top : Option String}
    {name : String} :
    IsOnlySlot (below ++ [top]) ((below ++ [top]).length - 1) name ↔
      top = some name ∧ some name ∉ below := by
  have hlen : (below ++ [top]).length - 1 = below.length := by simp
  rw [IsOnlySlot, hlen]
  constructor
  · rintro ⟨htop, honly⟩
    refine ⟨by simpa using htop, fun hmem => ?_⟩
    obtain ⟨i, hi⟩ := List.mem_iff_getElem?.mp hmem
    have hlt : i < below.length := (List.getElem?_eq_some_iff.mp hi).1
    have := honly i (by rw [List.getElem?_append_left hlt, hi])
    exact absurd this (Nat.ne_of_lt hlt)
  · rintro ⟨rfl, hbelow⟩
    refine ⟨by simp, fun i hi => ?_⟩
    rcases Nat.lt_trichotomy i below.length with hlt | heq | hgt
    · rw [List.getElem?_append_left hlt] at hi
      exact absurd (List.mem_of_getElem? hi) hbelow
    · exact heq
    · rw [List.getElem?_eq_none (by simp; omega)] at hi
      exact absurd hi (Option.some_ne_none _).symm

/-- Every assignment reported holds when the step returns, and no round of the
recovery loop overwrites the only slot of another variable in scope. -/
structure RecoveryKeeps (tracker : StackTracker) (opcode : UInt8) (offset : Option Int32)
    (vars : List VarDecl) : Prop where
  assigned : ∀ a ∈ (tracker.processStep opcode offset vars).2,
    (tracker.processStep opcode offset vars).1.slots[a.stackPosition]? = some (some a.name)
  kept : ∀ off pre v post, offset = some off → vars = pre ++ v :: post →
    ∀ slots, slots = (pre.foldl (recoverLabel off)
        (execOpcode tracker.slots opcode offset vars)).1 →
      Recovers off slots v → ∀ u ∈ vars, u.name ≠ v.name →
        ¬ IsOnlySlot slots (slots.length - 1) u.name

/-- The variables of the statement that have no slot. -/
def lostVars (offset : Int32) (slots : List (Option String)) (vars : List VarDecl) :
    List VarDecl :=
  vars.filter fun v => v.statementContains offset && !hasLabel slots v.name

theorem mem_lostVars {offset : Int32} {slots : List (Option String)} {vars : List VarDecl}
    {v : VarDecl} : v ∈ lostVars offset slots vars ↔
      v ∈ vars ∧ v.statementContains offset = true ∧ some v.name ∉ slots := by
  rw [lostVars, List.mem_filter, Bool.and_eq_true, Bool.not_eq_true', ← Bool.not_eq_true,
    hasLabel_iff]

theorem lostVars_append (offset : Int32) (slots : List (Option String)) (us vs : List VarDecl) :
    lostVars offset slots (us ++ vs) = lostVars offset slots us ++ lostVars offset slots vs :=
  List.filter_append us vs

theorem lostVars_cons_of_recovers {offset : Int32} {slots : List (Option String)} {v : VarDecl}
    (hv : Recovers offset slots v) (vs : List VarDecl) :
    lostVars offset slots (v :: vs) = v :: lostVars offset slots vs := by
  refine List.filter_cons_of_pos ?_
  rw [hv.1, Bool.true_and, Bool.not_eq_true', ← Bool.not_eq_true, hasLabel_iff]
  exact hv.2.1

theorem lostVars_eq_nil {offset : Int32} {slots : List (Option String)} {us vars : List VarDecl}
    (hus : ∀ u ∈ us, u ∈ vars) (hnot : ∀ u ∈ us, u ∉ lostVars offset slots vars) :
    lostVars offset slots us = [] := by
  refine List.eq_nil_iff_forall_not_mem.mpr fun u hu => ?_
  obtain ⟨hmem, hlost⟩ := mem_lostVars.mp hu
  exact hnot u hmem (mem_lostVars.mpr ⟨hus u hmem, hlost⟩)

/-- No variable, or one alone, is recovered; that one takes over a slot that was not
just labelled and is no variable's only one. -/
def RecoverySafe (self : StackTracker) (opcode : UInt8) (offset : Option Int32)
    (vars : List VarDecl) : Prop :=
  ∀ off, offset = some off →
    let slots := movedLabels self.slots opcode (labelForPush offset vars)
    slots = [] ∨ lostVars off slots vars = [] ∨
      ((lostVars off slots vars).length = 1 ∧ ¬ LabelsPush opcode offset vars ∧
        ∀ u ∈ vars, ¬ IsOnlySlot slots (slots.length - 1) u.name)

/-! ## §4  Recovery is safe exactly then -/

section Safe

variable {self : StackTracker} {opcode : UInt8} {off : Int32} {vars : List VarDecl}

theorem recovers_iff_mem_lostVars {slots : List (Option String)} (hslots : slots ≠ [])
    {v : VarDecl} (hv : v ∈ vars) :
    Recovers off slots v ↔ v ∈ lostVars off slots vars := by
  rw [mem_lostVars, Recovers]
  constructor
  · rintro ⟨hstmt, hlabel, -⟩
    exact ⟨hv, hstmt, hlabel⟩
  · rintro ⟨-, hstmt, hlabel⟩
    exact ⟨hstmt, hlabel, hslots⟩

theorem execOpcode_eq (slots : List (Option String)) (offset : Option Int32) :
    execOpcode slots opcode offset vars =
      (movedLabels slots opcode (labelForPush offset vars),
        (execOpcode slots opcode offset vars).2) :=
  Prod.ext (execOpcode_fst slots opcode offset vars) rfl

/-- The opcode match reports what it labels. -/
theorem assigned_execOpcode {offset : Option Int32} {a : VarAssignment}
    (ha : a ∈ (execOpcode self.slots opcode offset vars).2) :
    (movedLabels self.slots opcode (labelForPush offset vars))[a.stackPosition]? =
      some (some a.name) := by
  rcases execOpcode_snd self.slots opcode offset vars with ⟨-, hnil⟩ | ⟨name, -, hone, hmoved⟩
  · rw [hnil] at ha
    exact absurd ha List.not_mem_nil
  · rw [hone, List.mem_singleton] at ha
    subst ha
    rw [hmoved]
    simp

/-- Without recovery nothing can go wrong. -/
theorem recoveryKeeps_of_none (h : ∀ v ∈ vars,
    ¬ Recovers off (movedLabels self.slots opcode (labelForPush (some off) vars)) v) :
    RecoveryKeeps self opcode (some off) vars := by
  rw [← execOpcode_fst] at h
  refine ⟨fun a ha => ?_, fun off' pre v post hoff hsplit slots hslots hv => ?_⟩
  · rw [processStep_some, foldl_recoverLabel_eq_self h] at ha ⊢
    rw [execOpcode_fst]
    exact assigned_execOpcode ha
  · obtain rfl : off = off' := Option.some.inj hoff
    have hpre : ∀ u ∈ pre, ¬ Recovers off (execOpcode self.slots opcode (some off) vars).1 u :=
      fun u hu => h u (hsplit ▸ List.mem_append_left _ hu)
    rw [hslots, foldl_recoverLabel_eq_self hpre] at hv
    exact absurd hv (h v (hsplit ▸ List.mem_append_right _ List.mem_cons_self))

variable {below : List (Option String)} {top : Option String} {v : VarDecl}

/-- Once `v` has the top slot, only variables that had no slot before can still be
recovered, unless the top slot was the only one of another variable. -/
theorem not_recovers_of_labelled {u : VarDecl} (hu : u ∈ vars)
    (hfree : ∀ u ∈ vars, ¬ IsOnlySlot (below ++ [top]) ((below ++ [top]).length - 1) u.name)
    (hlabelled : u ∉ lostVars off (below ++ [top]) vars) :
    ¬ Recovers off (below ++ [some v.name]) u := by
  rintro ⟨hstmt, hlabel, -⟩
  have hbelow : some u.name ∉ below := fun h => hlabel (List.mem_append_left _ h)
  have hmem : some u.name ∈ below ++ [top] := by
    by_contra hnot
    exact hlabelled (mem_lostVars.mpr ⟨hu, hstmt, hnot⟩)
  rcases List.mem_append.mp hmem with h | h
  · exact hbelow h
  · exact hfree u hu (isOnlySlot_top_iff.mpr ⟨(List.mem_singleton.mp h).symm, hbelow⟩)

/-- Where only `v` is lost, it is recovered in the round that reaches it, and no round
before or after does anything. -/
theorem foldl_recoverLabel_of_lost (hlost : ∀ u ∈ lostVars off (below ++ [top]) vars, u = v)
    (hv : v ∈ lostVars off (below ++ [top]) vars)
    (hfree : ∀ u ∈ vars, ¬ IsOnlySlot (below ++ [top]) ((below ++ [top]).length - 1) u.name)
    {pre : List VarDecl} (hpre : ∀ u ∈ pre, u ∈ vars) :
    (v ∉ pre ∧ pre.foldl (recoverLabel off) (below ++ [top], []) = (below ++ [top], [])) ∨
      (v ∈ pre ∧ pre.foldl (recoverLabel off) (below ++ [top], []) =
        (below ++ [some v.name], [⟨v.name, below.length⟩])) := by
  have hne : below ++ [top] ≠ [] := by simp
  by_cases hmem : v ∈ pre
  · obtain ⟨as, bs, rfl, has⟩ := List.eq_append_cons_of_mem hmem
    refine .inr ⟨hmem, foldl_recoverLabel_single [] (fun u hu hrec => ?_)
      ((recovers_iff_mem_lostVars hne (hpre v hmem)).mpr hv) (fun u hu hrec => ?_)⟩
    · have huv := hpre u (List.mem_append_left _ hu)
      exact has (hlost u ((recovers_iff_mem_lostVars hne huv).mp hrec) ▸ hu)
    · have huv := hpre u (List.mem_append_right _ (List.mem_cons_of_mem v hu))
      refine not_recovers_of_labelled huv hfree (fun hl => ?_) hrec
      refine hrec.2.1 ?_
      rw [hlost u hl]
      exact List.mem_append_right _ (List.mem_singleton.mpr rfl)
  · refine .inl ⟨hmem, foldl_recoverLabel_eq_self fun u hu hrec => ?_⟩
    exact hmem (hlost u ((recovers_iff_mem_lostVars hne (hpre u hu)).mp hrec) ▸ hu)

/-- One lost variable and a top slot that is not needed. -/
theorem recoveryKeeps_of_single
    (hmoved : movedLabels self.slots opcode (labelForPush (some off) vars) = below ++ [top])
    (hlost : ∀ u ∈ lostVars off (below ++ [top]) vars, u = v)
    (hv : v ∈ lostVars off (below ++ [top]) vars)
    (hpush : ¬ LabelsPush opcode (some off) vars)
    (hfree : ∀ u ∈ vars, ¬ IsOnlySlot (below ++ [top]) ((below ++ [top]).length - 1) u.name) :
    RecoveryKeeps self opcode (some off) vars := by
  have hexec : execOpcode self.slots opcode (some off) vars = (below ++ [top], []) := by
    rcases execOpcode_snd self.slots opcode (some off) vars with ⟨-, hnil⟩ | ⟨name, h, -⟩
    · rw [execOpcode_eq, hmoved, hnil]
    · exact absurd h hpush
  have hvmem : v ∈ vars := (mem_lostVars.mp hv).1
  refine ⟨fun a ha => ?_, fun off' pre w post hoff hsplit slots hslots hw u hu _ => ?_⟩
  · rcases foldl_recoverLabel_of_lost hlost hv hfree fun _ hu => hu with
      ⟨hnot, -⟩ | ⟨-, hfold⟩
    · exact absurd hvmem hnot
    · rw [processStep_some, hexec, hfold] at ha ⊢
      obtain rfl := List.mem_singleton.mp ha
      simp
  · obtain rfl : off = off' := Option.some.inj hoff
    have hwmem : w ∈ vars := hsplit ▸ List.mem_append_right _ List.mem_cons_self
    have hpre : ∀ u ∈ pre, u ∈ vars := fun u hu => hsplit ▸ List.mem_append_left _ hu
    rw [hexec] at hslots
    rcases foldl_recoverLabel_of_lost hlost hv hfree hpre with ⟨-, hfold⟩ | ⟨-, hfold⟩
    · rw [hslots, hfold]
      exact hfree u hu
    · rw [hslots, hfold] at hw
      by_cases hwl : w ∈ lostVars off (below ++ [top]) vars
      · refine absurd ?_ hw.2.1
        rw [hlost w hwl]
        exact List.mem_append_right _ (List.mem_singleton.mpr rfl)
      · exact absurd hw (not_recovers_of_labelled hwmem hfree hwl)

/-- The round of `v` overwrites the top slot, so nobody else may need it. -/
theorem top_free_of_keeps
    (hmoved : movedLabels self.slots opcode (labelForPush (some off) vars) = below ++ [top])
    (hkeeps : RecoveryKeeps self opcode (some off) vars) {pre post : List VarDecl}
    (hsplit : vars = pre ++ v :: post)
    (hpre : ∀ u ∈ pre, ¬ Recovers off (below ++ [top]) u) (hv : Recovers off (below ++ [top]) v) :
    ∀ u ∈ vars, ¬ IsOnlySlot (below ++ [top]) ((below ++ [top]).length - 1) u.name := by
  intro u hu honly
  by_cases hname : u.name = v.name
  · refine hv.2.1 ?_
    rw [← hname]
    exact List.mem_of_getElem? honly.1
  · refine hkeeps.kept off pre v post rfl hsplit (below ++ [top]) ?_ hv u hu hname honly
    rw [execOpcode_eq, hmoved, foldl_recoverLabel_eq_self hpre]

/-- A second lost variable would overwrite the first, which has no other slot. -/
theorem lost_unique_of_keeps (hnames : (vars.map (·.name)).Nodup)
    (hmoved : movedLabels self.slots opcode (labelForPush (some off) vars) = below ++ [top])
    (hkeeps : RecoveryKeeps self opcode (some off) vars) {pre post : List VarDecl}
    (hsplit : vars = pre ++ v :: post)
    (hpre : ∀ u ∈ pre, ¬ Recovers off (below ++ [top]) u) (hv : Recovers off (below ++ [top]) v)
    (hfree : ∀ u ∈ vars, ¬ IsOnlySlot (below ++ [top]) ((below ++ [top]).length - 1) u.name) :
    ∀ u ∈ post, u ∉ lostVars off (below ++ [top]) vars := by
  have hpost : ∀ u ∈ post, u ∈ vars := fun u hu =>
    hsplit ▸ List.mem_append_right _ (List.mem_cons_of_mem v hu)
  intro u₀ hu₀ hl₀
  obtain ⟨u, hfind⟩ := Option.isSome_iff_exists.mp (List.find?_isSome.mpr
    ⟨u₀, hu₀, decide_eq_true hl₀⟩ :
      (post.find? fun u => decide (u ∈ lostVars off (below ++ [top]) vars)).isSome)
  obtain ⟨hl, mid, rest, rfl, hmid⟩ := List.find?_eq_some_iff_append.mp hfind
  rw [decide_eq_true_eq] at hl
  have humem : u ∈ vars := (mem_lostVars.mp hl).1
  have hne : v.name ≠ u.name := by
    rw [hsplit, List.map_append, List.map_cons, List.map_append, List.map_cons] at hnames
    have hcons := (List.nodup_cons.mp (List.Nodup.of_append_right hnames)).1
    exact fun h => hcons (h ▸ List.mem_append_right _ List.mem_cons_self)
  have hfold := foldl_recoverLabel_single
    (execOpcode self.slots opcode (some off) vars).2 hpre hv fun w hw =>
      not_recovers_of_labelled (hpost w (List.mem_append_left _ hw)) hfree
        (by simpa using hmid w hw)
  have hu : Recovers off (below ++ [some v.name]) u := by
    obtain ⟨-, hstmt, hlabel⟩ := mem_lostVars.mp hl
    refine ⟨hstmt, fun h => ?_, by simp⟩
    rcases List.mem_append.mp h with h | h
    · exact hlabel (List.mem_append_left _ h)
    · exact hne (Option.some.inj (List.mem_singleton.mp h)).symm
  refine hkeeps.kept off (pre ++ v :: mid) u rest rfl (by simp [hsplit]) (below ++ [some v.name])
    ?_ hu v (hsplit ▸ List.mem_append_right _ List.mem_cons_self) hne
    (isOnlySlot_top_iff.mpr ⟨rfl, fun h => hv.2.1 (List.mem_append_left _ h)⟩)
  rw [execOpcode_eq, hmoved, hfold]

/-- A label just pushed would be reported and then overwritten. -/
theorem not_labelsPush_of_keeps
    (hmoved : movedLabels self.slots opcode (labelForPush (some off) vars) = below ++ [top])
    (hkeeps : RecoveryKeeps self opcode (some off) vars) {pre post : List VarDecl}
    (hsplit : vars = pre ++ v :: post)
    (hpre : ∀ u ∈ pre, ¬ Recovers off (below ++ [top]) u) (hv : Recovers off (below ++ [top]) v)
    (hpost : ∀ u ∈ post, ¬ Recovers off (below ++ [some v.name]) u) :
    ¬ LabelsPush opcode (some off) vars := by
  intro hpush
  rcases execOpcode_snd self.slots opcode (some off) vars with ⟨hnot, -⟩ | ⟨name, -, hone, h⟩
  · exact hnot hpush
  obtain ⟨rfl, htop⟩ := List.append_singleton_inj.mp (h.symm.trans hmoved)
  obtain rfl : some name = top := htop
  have hfold := foldl_recoverLabel_single [⟨name, self.slots.length⟩] hpre hv hpost
  have hassigned := hkeeps.assigned ⟨name, self.slots.length⟩
  rw [processStep_some, execOpcode_eq, hmoved, hone, hsplit, hfold] at hassigned
  have hname := hassigned (List.mem_append_left _ List.mem_cons_self)
  simp at hname
  exact hv.2.1 (by simp [hname])

theorem recoverySafe_of_keeps (hnames : (vars.map (·.name)).Nodup)
    (hkeeps : RecoveryKeeps self opcode (some off) vars) :
    RecoverySafe self opcode (some off) vars := by
  rintro off' hoff
  obtain rfl : off = off' := Option.some.inj hoff
  intro slots
  rcases List.eq_nil_or_concat slots with hnil | ⟨below, top, hconcat⟩
  · exact .inl hnil
  rw [List.concat_eq_append] at hconcat
  have hmoved : movedLabels self.slots opcode (labelForPush (some off) vars) = below ++ [top] :=
    hconcat
  have hne : below ++ [top] ≠ [] := by simp
  rw [hconcat]
  refine .inr ?_
  cases hfind : vars.find? fun u => decide (u ∈ lostVars off (below ++ [top]) vars) with
  | none =>
      refine .inl (List.eq_nil_iff_forall_not_mem.mpr fun u hu => ?_)
      have := List.find?_eq_none.mp hfind u (mem_lostVars.mp hu).1
      simp [hu] at this
  | some v =>
      obtain ⟨hl, pre, post, hsplit, hpre⟩ := List.find?_eq_some_iff_append.mp hfind
      rw [decide_eq_true_eq] at hl
      have hv := (recovers_iff_mem_lostVars hne (mem_lostVars.mp hl).1).mpr hl
      have hpreMem : ∀ u ∈ pre, u ∈ vars := fun u hu => hsplit ▸ List.mem_append_left _ hu
      have hpostMem : ∀ u ∈ post, u ∈ vars := fun u hu =>
        hsplit ▸ List.mem_append_right _ (List.mem_cons_of_mem v hu)
      have hpre' : ∀ u ∈ pre, u ∉ lostVars off (below ++ [top]) vars := by
        intro u hu
        simpa using hpre u hu
      have hquiet : ∀ u ∈ pre, ¬ Recovers off (below ++ [top]) u := fun u hu hrec =>
        hpre' u hu ((recovers_iff_mem_lostVars hne (hpreMem u hu)).mp hrec)
      have hfree := top_free_of_keeps hmoved hkeeps hsplit hquiet hv
      have hpost := lost_unique_of_keeps hnames hmoved hkeeps hsplit hquiet hv hfree
      have hlost : lostVars off (below ++ [top]) vars = [v] := by
        calc lostVars off (below ++ [top]) vars
          _ = lostVars off (below ++ [top]) pre ++ lostVars off (below ++ [top]) (v :: post) := by
              rw [← lostVars_append, ← hsplit]
          _ = [] ++ v :: [] := by
              rw [lostVars_eq_nil hpreMem hpre', lostVars_cons_of_recovers hv post,
                lostVars_eq_nil hpostMem hpost]
      refine .inr ⟨by rw [hlost]; rfl, ?_, hfree⟩
      exact not_labelsPush_of_keeps hmoved hkeeps hsplit hquiet hv fun u hu =>
        not_recovers_of_labelled (hpostMem u hu) hfree (hpost u hu)

end Safe

/-- **When recovery keeps labels.** In every tracker state, for every opcode, offset
and list of variables with distinct names: the assignments reported hold when the
step returns and no variable's only slot is overwritten, exactly when no variable is
recovered, or one alone over a slot that was not just labelled and that no variable
needs. -/
theorem recoveryKeeps_iff (self : StackTracker) (opcode : UInt8) (offset : Option Int32)
    (vars : List VarDecl) (hnames : (vars.map (·.name)).Nodup) :
    RecoveryKeeps self opcode offset vars ↔ RecoverySafe self opcode offset vars := by
  cases offset with
  | none =>
      refine ⟨fun _ off hoff => absurd hoff.symm (Option.some_ne_none off),
        fun _ => ⟨fun a ha => ?_, ?_⟩⟩
      · rw [processStep_none] at ha ⊢
        rw [execOpcode_fst]
        exact assigned_execOpcode ha
      · rintro off pre v post ⟨⟩
  | some off =>
      refine ⟨recoverySafe_of_keeps hnames, fun hsafe => ?_⟩
      rcases hsafe off rfl with hnil | hlost | ⟨hone, hpush, hfree⟩
      · exact recoveryKeeps_of_none fun v _ hrec => hrec.2.2 hnil
      · refine recoveryKeeps_of_none fun v hv hrec => ?_
        have hmem := (recovers_iff_mem_lostVars hrec.2.2 hv).mp hrec
        rw [hlost] at hmem
        exact List.not_mem_nil hmem
      · obtain ⟨v, hv⟩ := List.length_eq_one_iff.mp hone
        rcases List.eq_nil_or_concat
          (movedLabels self.slots opcode (labelForPush (some off) vars)) with
            hnil | ⟨below, top, hconcat⟩
        · exact recoveryKeeps_of_none fun v _ hrec => hrec.2.2 hnil
        · rw [List.concat_eq_append] at hconcat
          rw [hconcat] at hv hfree
          refine recoveryKeeps_of_single hconcat (fun u hu => ?_)
            (hv ▸ List.mem_singleton.mpr rfl) hpush hfree
          rw [hv] at hu
          exact List.mem_singleton.mp hu

/-- A variable of the statement at `0:20`, for samples. -/
def sampleVar (name : String) (start : Int32) : VarDecl :=
  { name, typeName := "uint256", src := ⟨start, 1, 0⟩, declarationOffset := start,
    statementRange := some ⟨0, 20, 0⟩ }

/-- A JUMPDEST in a statement that declares one variable. -/
theorem recoveryKeeps_single_declaration :
    RecoveryKeeps ⟨[none]⟩ 0x5b (some 10) [sampleVar "a" 1] ∧
      ([sampleVar "a" 1].map (·.name)).Nodup := by
  refine ⟨(recoveryKeeps_iff _ _ _ _ (by decide)).mpr fun off hoff => .inr (.inr ?_), by decide⟩
  obtain rfl : (10 : Int32) = off := Option.some.inj hoff
  refine ⟨by decide, fun h => absurd h.1 (by decide), fun u _ honly => ?_⟩
  have htop : (movedLabels [none] 0x5b (labelForPush (some 10) [sampleVar "a" 1]))[0]? =
      some none := by decide
  exact absurd (htop.symm.trans honly.1) (by simp)

/-- A JUMPDEST in a statement that declares `a` and `b`: both are reported in slot 0,
which ends up labelled `b`. -/
theorem recovery_steals_tuple :
    ([sampleVar "a" 1, sampleVar "b" 3].map (·.name)).Nodup ∧
      ¬ RecoveryKeeps ⟨[none]⟩ 0x5b (some 10) [sampleVar "a" 1, sampleVar "b" 3] := by
  refine ⟨by decide, fun hkeeps => ?_⟩
  exact absurd (hkeeps.assigned ⟨"a", 0⟩ (by decide)) (by decide)

end EvmRecorder.StackTracker
