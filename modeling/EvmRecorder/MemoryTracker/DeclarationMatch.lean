import EvmRecorder.Library.Scans
import EvmRecorder.Model.MemoryTracker
import EvmRecorder.Model.StackTracker

/-!
# The two declaration matchers

A source offset is attributed to a variable twice: the stack tracker labels a pushed
value, the memory tracker names an allocated region. Both scan the variables in scope
for the same three matches in turn, the memory tracker only those that are in memory.
-/

namespace EvmRecorder

open Scans StackTracker

/-! ## §1  Classes of matches -/

/-- How a variable matches an offset: 1 exact declaration offset, 2 inside the
declaration, 3 inside the statement. -/
def matchClass (offset : Int32) (v : VarDecl) : Option ℕ :=
  if v.declarationOffset = offset then some 1
  else if v.src.containsOffset offset then some 2
  else if v.statementContains offset then some 3
  else none

/-- The end of the range is an `i32`, so its computation does not wrap. -/
def SourceRange.Fits (self : SourceRange) : Prop :=
  -2 ^ 31 ≤ self.offset.toInt + self.length.toInt ∧
    self.offset.toInt + self.length.toInt < 2 ^ 31

/-- The offset is in the range, over the integers. -/
def SourceRange.Covers (self : SourceRange) (offset : Int32) : Prop :=
  self.offset.toInt ≤ offset.toInt ∧ offset.toInt < self.offset.toInt + self.length.toInt

theorem containsOffset_iff {range : SourceRange} (hfits : range.Fits) (offset : Int32) :
    range.containsOffset offset = true ↔ range.Covers offset := by
  have hend : (range.offset + range.length).toInt = range.offset.toInt + range.length.toInt := by
    rw [Int32.toInt_add]
    exact Int.bmod_eq_of_le hfits.1 hfits.2
  rw [SourceRange.containsOffset, Bool.and_eq_true, decide_eq_true_eq, decide_eq_true_eq,
    Int32.le_iff_toInt_le, Int32.lt_iff_toInt_lt, hend]
  rfl

open Classical in
/-- Where no range wraps, the classes are those of the integers. -/
theorem matchClass_of_fits {v : VarDecl} (hsrc : v.src.Fits)
    (hstatement : ∀ range, v.statementRange = some range → range.Fits) (offset : Int32) :
    matchClass offset v =
      if v.declarationOffset = offset then some 1
      else if v.src.Covers offset then some 2
      else if ∃ range, v.statementRange = some range ∧ range.Covers offset then some 3
      else none := by
  have hinside : v.statementContains offset = true ↔
      ∃ range, v.statementRange = some range ∧ range.Covers offset := by
    rw [VarDecl.statementContains, Option.any_eq_true]
    apply exists_congr
    intro range
    apply and_congr_right
    intro hrange
    exact containsOffset_iff (hstatement range hrange) offset
  rw [matchClass]
  simp only [containsOffset_iff hsrc, hinside]

/-- Class and list position of the memory-resident variables that match; the class is
compared first. -/
def residentMatches (offset : Int32) (vars : List VarDecl) : Set (ℕ ×ₗ ℕ) :=
  {place | ∃ v, vars[(ofLex place).2]? = some v ∧ v.isMemoryResident = true ∧
    matchClass offset v = some (ofLex place).1}

/-- The tests of the three scans. -/
def matchTests (offset : Int32) : List (VarDecl → Bool) :=
  [fun v => v.declarationOffset = offset, fun v => v.src.containsOffset offset,
    fun v => v.statementContains offset]

def residentTests (offset : Int32) : List (VarDecl → Bool) :=
  (matchTests offset).map fun test v => v.isMemoryResident && test v

theorem matchClass_eq (offset : Int32) (v : VarDecl) :
    matchClass offset v = classOf (matchTests offset) v := by
  simp only [matchClass, matchTests, classOf_cons, classOf_nil, decide_eq_true_eq]
  by_cases hexact : v.declarationOffset = offset
  · rw [if_pos hexact, if_pos hexact]
  · rw [if_neg hexact, if_neg hexact]
    cases v.src.containsOffset offset <;> cases v.statementContains offset <;> rfl

section

variable (offset : Int32) (vars : List VarDecl)

theorem residentMatches_eq : residentMatches offset vars = places (residentTests offset) vars := by
  apply Set.ext
  intro place
  apply exists_congr
  intro v
  rw [residentTests, classOf_map_and, ← matchClass_eq]
  cases v.isMemoryResident <;> simp

theorem pickVarForOffset_eq :
    pickVarForOffset offset vars = firstFound (residentTests offset) vars := by
  rw [residentTests, matchTests, List.map_cons, List.map_cons, List.map_singleton,
    firstFound_cons, firstFound_cons, firstFound_singleton]
  rfl

theorem labelForPush_some :
    labelForPush (some offset) vars = (firstFound (matchTests offset) vars).map (·.name) := by
  rw [matchTests, firstFound_cons, firstFound_cons, firstFound_singleton]
  rfl

/-- Among the memory-resident variables the stack tracker finds what the memory tracker
finds. -/
theorem labelForPush_filter :
    labelForPush (some offset) (vars.filter (·.isMemoryResident)) =
      (pickVarForOffset offset vars).map (·.name) := by
  rw [labelForPush_some, firstFound_filter, pickVarForOffset_eq, residentTests]

end

/-! ## §2  Attribution -/

section

variable {offset : Int32} {vars : List VarDecl} {v : VarDecl}

theorem pickVarForOffset_eq_some_iff :
    pickVarForOffset offset vars = some v ↔
      ∃ c i, IsLeast (residentMatches offset vars) (toLex (c, i)) ∧ vars[i]? = some v := by
  rw [pickVarForOffset_eq, firstFound_eq_some_iff, residentMatches_eq]

theorem pickVarForOffset_eq_none_iff :
    pickVarForOffset offset vars = none ↔ residentMatches offset vars = ∅ := by
  rw [pickVarForOffset_eq, firstFound_eq_none_iff, residentMatches_eq]

theorem mem_of_pickVarForOffset (h : pickVarForOffset offset vars = some v) : v ∈ vars := by
  obtain ⟨c, i, -, hv⟩ := pickVarForOffset_eq_some_iff.mp h
  exact List.mem_of_getElem? hv

/-- Variables that do not match do not matter to the stack tracker. -/
theorem labelForPush_eq_of_resident
    (h : ∀ v ∈ vars, matchClass offset v ≠ none → v.isMemoryResident = true) :
    labelForPush (some offset) vars = (pickVarForOffset offset vars).map (·.name) := by
  rw [← labelForPush_filter, labelForPush_some, labelForPush_some, firstFound_filter_eq_self]
  intro v hv hmatch
  rw [← matchClass_eq] at hmatch
  exact h v hv hmatch

/-- A variable that is found for the offset gets the region of an allocation there, unless
it has one. -/
theorem regions_handleFmpBump (h : pickVarForOffset offset vars = some v)
    (tracker : MemoryTracker) (prevFmp newFmp : Nat) :
    (tracker.handleFmpBump prevFmp newFmp (some offset) vars).regions =
      tracker.regions ++
        if prevFmp < newFmp ∧ tracker.isAlreadyRegistered v.name = false then
          [⟨v.name, v.typeName, prevFmp, newFmp - prevFmp⟩]
        else [] := by
  unfold MemoryTracker.handleFmpBump
  rw [Option.bind_some, h]
  by_cases hle : newFmp ≤ prevFmp
  · rw [if_pos hle, if_neg (fun hnew => Nat.not_lt_of_le hle hnew.1), List.append_nil]
  · rw [if_neg hle]
    cases hregistered : tracker.isAlreadyRegistered v.name with
    | true => simp [hregistered]
    | false => simp [hregistered, Nat.lt_of_not_le hle]

variable (offset vars v)

/-- A value pushed at the offset is labelled `v`, and memory allocated there is a region of
`v`, or of no variable where `v` has a region. -/
structure AttributedTo : Prop where
  label : labelForPush (some offset) vars = some v.name
  region : ∀ (tracker : MemoryTracker) prevFmp newFmp,
    (tracker.handleFmpBump prevFmp newFmp (some offset) vars).regions =
      tracker.regions ++
        if prevFmp < newFmp ∧ tracker.isAlreadyRegistered v.name = false then
          [⟨v.name, v.typeName, prevFmp, newFmp - prevFmp⟩]
        else []

/-- The memory tracker picks the memory-resident match of the least class, the first of
that class, and the stack tracker labels the same one when it looks at no others. Where
all matches are memory-resident, both attribute to one variable. -/
theorem declarationMatchers_agree :
    (∀ v, pickVarForOffset offset vars = some v ↔
        ∃ c i, IsLeast (residentMatches offset vars) (toLex (c, i)) ∧ vars[i]? = some v) ∧
      (pickVarForOffset offset vars = none ↔ residentMatches offset vars = ∅) ∧
      labelForPush (some offset) (vars.filter (·.isMemoryResident)) =
        (pickVarForOffset offset vars).map (·.name) ∧
      ((∀ v ∈ vars, matchClass offset v ≠ none → v.isMemoryResident = true) →
        labelForPush (some offset) vars = (pickVarForOffset offset vars).map (·.name) ∧
          ((∃ v ∈ vars, matchClass offset v ≠ none) →
            ∃ v ∈ vars, pickVarForOffset offset vars = some v ∧ AttributedTo offset vars v)) := by
  refine ⟨fun v => pickVarForOffset_eq_some_iff, pickVarForOffset_eq_none_iff,
    labelForPush_filter offset vars, ?_⟩
  intro hresident
  have hlabel := labelForPush_eq_of_resident hresident
  refine ⟨hlabel, ?_⟩
  rintro ⟨u, hu, hmatch⟩
  cases hpick : pickVarForOffset offset vars with
  | none =>
      obtain ⟨i, hi⟩ := List.mem_iff_getElem?.mp hu
      obtain ⟨c, hclass⟩ := Option.ne_none_iff_exists'.mp hmatch
      have hplace : toLex (c, i) ∈ residentMatches offset vars :=
        ⟨u, hi, hresident u hu hmatch, hclass⟩
      rw [pickVarForOffset_eq_none_iff.mp hpick] at hplace
      exact absurd hplace (Set.notMem_empty _)
  | some v =>
      rw [hpick] at hlabel
      exact ⟨v, mem_of_pickVarForOffset hpick, rfl, hlabel, regions_handleFmpBump hpick⟩

end

def outerVar : VarDecl := ⟨"outer", "bytes memory", ⟨100, 30, 0⟩, 100, some ⟨100, 60, 0⟩⟩

def innerVar : VarDecl := ⟨"inner", "string memory", ⟨120, 10, 0⟩, 120, some ⟨120, 20, 0⟩⟩

/-- The second of two variables that match is found where its match is of a lesser class. -/
theorem declarationMatchers_agree_nested : AttributedTo 120 [outerVar, innerVar] innerVar := by
  obtain ⟨-, -, -, hagree⟩ := declarationMatchers_agree 120 [outerVar, innerVar]
  obtain ⟨v, -, hpick, hv⟩ := (hagree (by decide +kernel)).2
    ⟨outerVar, List.mem_cons_self, by decide +kernel⟩
  have hinner : pickVarForOffset 120 [outerVar, innerVar] = some innerVar := by decide +kernel
  obtain rfl := Option.some.inj (hinner.symm.trans hpick)
  exact hv

end EvmRecorder
