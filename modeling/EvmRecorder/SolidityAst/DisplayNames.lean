import EvmRecorder.Model.SolidityAst
import Mathlib.Data.List.Basic

/-!
# Display names

Functions are registered with the trace writer by their display name. When
identifiers contain no dot, a qualified name can be read back, so two functions
share a name only if both are shown bare. A member is compared with the members
of other contracts but not with free functions, and that is the only way two
functions can share a name.
-/

namespace EvmRecorder.SolidityAst

/-! ## §1  Reading a name back -/

def DotFree (s : String) : Prop := '.' ∉ s.toList

theorem toList_qualified (parent name : String) :
    (parent ++ "." ++ name).toList = parent.toList ++ '.' :: name.toList := by
  simp

theorem qualified_inj {parent parent' name name' : String} (hparent : DotFree parent)
    (hname : DotFree name) (h : parent ++ "." ++ name = parent' ++ "." ++ name') :
    parent = parent' ∧ name = name' := by
  have hchars := congrArg String.toList h
  rw [toList_qualified, toList_qualified] at hchars
  obtain ⟨hparents, -, hnames⟩ := (List.append_cons_inj_of_notMem hparent hname).mp hchars
  exact ⟨String.toList_inj.mp hparents, String.toList_inj.mp hnames⟩

theorem qualified_ne_bare {parent name bare : String} (hbare : DotFree bare) :
    parent ++ "." ++ name ≠ bare := by
  rintro rfl
  refine hbare ?_
  rw [toList_qualified]
  exact List.mem_append_right _ List.mem_cons_self

/-! ## §2  When a name is qualified -/

/-- A member of another contract has the bare name of this member of `parent`. -/
def SharedAcrossContracts (self : SolidityAst) (parent name : String) : Prop :=
  ∃ other ∈ self.functions, other.name = name ∧ other.contractName ≠ some parent ∧
    other.contractName.isSome

instance (self : SolidityAst) (parent name : String) :
    Decidable (self.SharedAcrossContracts parent name) :=
  inferInstanceAs (Decidable (∃ other ∈ self.functions, _))

/-- The members whose name is qualified by `parent`. -/
def QualifiedBy (self : SolidityAst) (func : FunctionDef) (parent : String) : Prop :=
  func.contractName = some parent ∧
    (func.contractKind = some "library" ∨ self.SharedAcrossContracts parent func.name)

/-- What a display name is. -/
theorem qualifiedFunctionName_cases (self : SolidityAst) (func : FunctionDef) :
    (∃ parent, self.QualifiedBy func parent ∧
      self.qualifiedFunctionName func = parent ++ "." ++ func.name) ∨
    ((∀ parent, ¬ self.QualifiedBy func parent) ∧
      self.qualifiedFunctionName func = func.name) := by
  cases hparent : func.contractName with
  | none =>
      refine .inr ⟨fun parent hq => ?_, by rw [qualifiedFunctionName, hparent]⟩
      exact absurd (hparent.symm.trans hq.1) (Option.some_ne_none parent).symm
  | some parent =>
      have hshared : (self.functions.any fun other =>
          other.name = func.name && other.contractName ≠ some parent &&
            other.contractName.isSome) = true ↔
          self.SharedAcrossContracts parent func.name := by
        simp [SharedAcrossContracts, List.any_eq_true, and_assoc]
      have hname : self.qualifiedFunctionName func =
          if func.contractKind = some "library" then parent ++ "." ++ func.name
          else if self.SharedAcrossContracts parent func.name then parent ++ "." ++ func.name
          else func.name := by
        simp only [qualifiedFunctionName, hparent, hshared]
      by_cases hq : self.QualifiedBy func parent
      · refine .inl ⟨parent, hq, ?_⟩
        rcases hq.2 with hlibrary | hs
        · rw [hname, if_pos hlibrary]
        · rw [hname, if_pos hs, ite_self]
      · have hnot := fun h => hq ⟨hparent, h⟩
        refine .inr ⟨fun parent' hq' => ?_, ?_⟩
        · obtain rfl : parent = parent' := Option.some.inj (hparent.symm.trans hq'.1)
          exact hq hq'
        · rw [hname, if_neg fun h => hnot (.inl h), if_neg fun h => hnot (.inr h)]

/-! ## §3  Functions told apart by their names -/

/-- `free` is a file-level function, and `member` the member of a contract that
no other contract's member shares its bare name with, which is that of `free`. -/
def ShadowsMember (self : SolidityAst) (free member : FunctionDef) : Prop :=
  free.contractName = none ∧ free.name = member.name ∧
    ∃ parent, member.contractName = some parent ∧ ¬ self.QualifiedBy member parent

/-- Identifiers contain no dot. -/
def DotFreeNames (self : SolidityAst) : Prop :=
  ∀ func ∈ self.functions, DotFree func.name ∧ ∀ parent, func.contractName = some parent →
    DotFree parent

/-- Two members shown bare under one name belong to one contract. -/
theorem contractName_eq_of_bare {self : SolidityAst} {f g : FunctionDef}
    {parent parent' : String} (hg : g ∈ self.functions) (hname : f.name = g.name)
    (hf : f.contractName = some parent) (hg' : g.contractName = some parent')
    (hbare : ¬ self.QualifiedBy f parent) : parent = parent' := by
  by_contra hne
  refine hbare ⟨hf, .inr ⟨g, hg, hname.symm, ?_, ?_⟩⟩
  · rw [hg']
    exact fun h => hne (Option.some.inj h).symm
  · rw [hg']
    rfl

/-- A qualified name is the display name of one contract and bare name. -/
theorem eq_of_qualifiedBy {self : SolidityAst} (hdots : self.DotFreeNames) {f g : FunctionDef}
    (hf : f ∈ self.functions) (hg : g ∈ self.functions) {parent : String}
    (hq : self.QualifiedBy f parent)
    (hname : self.qualifiedFunctionName g = parent ++ "." ++ f.name) :
    (f.contractName, f.name) = (g.contractName, g.name) := by
  rcases self.qualifiedFunctionName_cases g with ⟨parent', hq', hname'⟩ | ⟨-, hname'⟩
  · obtain ⟨rfl, hnames⟩ := qualified_inj ((hdots f hf).2 parent hq.1) (hdots f hf).1
      (hname.symm.trans hname')
    rw [hq.1, hq'.1, hnames]
  · exact absurd (hname.symm.trans hname') (qualified_ne_bare (hdots g hg).1)

/-- A free function and a member shown bare under one name. -/
theorem shadowsMember_of_bare {self : SolidityAst} {f g : FunctionDef}
    (hf : f.contractName = none) (hname : f.name = g.name)
    (hne : (f.contractName, f.name) ≠ (g.contractName, g.name))
    (hbare : ∀ parent, ¬ self.QualifiedBy g parent) : self.ShadowsMember f g := by
  cases hg : g.contractName with
  | none => exact absurd (by rw [hf, hg, hname]) hne
  | some parent => exact ⟨hf, hname, parent, hg, hbare parent⟩

theorem qualifiedFunctionName_eq_of_shadowsMember {self : SolidityAst} {f g : FunctionDef}
    (h : self.ShadowsMember f g) :
    self.qualifiedFunctionName f = self.qualifiedFunctionName g := by
  obtain ⟨hf, hname, parent, hg, hbare⟩ := h
  rcases self.qualifiedFunctionName_cases g with ⟨parent', hq, -⟩ | ⟨-, hg'⟩
  · obtain rfl : parent = parent' := Option.some.inj (hg.symm.trans hq.1)
    exact absurd hq hbare
  · rw [hg', ← hname, qualifiedFunctionName, hf]

/-- **Display names keep functions apart.** Two functions that differ in contract
or bare name have one display name exactly when one is a free function and the
other a non-library member whose bare name no other contract shares. -/
theorem qualifiedFunctionName_eq_iff (self : SolidityAst) (hdots : self.DotFreeNames)
    (f g : FunctionDef) (hf : f ∈ self.functions) (hg : g ∈ self.functions)
    (hne : (f.contractName, f.name) ≠ (g.contractName, g.name)) :
    self.qualifiedFunctionName f = self.qualifiedFunctionName g ↔
      self.ShadowsMember f g ∨ self.ShadowsMember g f := by
  constructor
  · intro heq
    rcases self.qualifiedFunctionName_cases f with ⟨parent, hq, hf'⟩ | ⟨hbare, hf'⟩
    · exact absurd (eq_of_qualifiedBy hdots hf hg hq (heq.symm.trans hf')) hne
    rcases self.qualifiedFunctionName_cases g with ⟨parent, hq, hg'⟩ | ⟨hbare', hg'⟩
    · exact absurd (eq_of_qualifiedBy hdots hg hf hq (heq.trans hg')) hne.symm
    -- Both are shown bare, so their names agree and their contracts do not.
    have hname : f.name = g.name := hf'.symm.trans (heq.trans hg')
    cases hfc : f.contractName with
    | none => exact .inl (shadowsMember_of_bare hfc hname hne hbare')
    | some parent =>
        cases hgc : g.contractName with
        | none => exact .inr (shadowsMember_of_bare hgc hname.symm hne.symm hbare)
        | some parent' =>
            obtain rfl := contractName_eq_of_bare hg hname hfc hgc (hbare parent)
            exact absurd (by rw [hfc, hgc, hname]) hne
  · rintro (h | h)
    · exact qualifiedFunctionName_eq_of_shadowsMember h
    · exact (qualifiedFunctionName_eq_of_shadowsMember h).symm

/-- The function `name` of `contractName`, for samples. -/
def sampleFunction (name : String) (contractName : Option String) : FunctionDef :=
  { name, src := ⟨0, 1, 0⟩, contractName,
    contractKind := contractName.map fun _ => "contract" }

/-- A free function `foo` and the function `foo` of the only contract. -/
def freeAndMember : SolidityAst :=
  ⟨[sampleFunction "foo" none, sampleFunction "foo" (some "C")]⟩

/-- Two contracts with a function `foo` each. -/
def twoContracts : SolidityAst :=
  ⟨[sampleFunction "foo" (some "A"), sampleFunction "foo" (some "B")]⟩

/-- The two functions named `foo` are shown as `foo`. -/
theorem freeAndMember_collide :
    freeAndMember.DotFreeNames ∧
      ∃ f ∈ freeAndMember.functions, ∃ g ∈ freeAndMember.functions,
        (f.contractName, f.name) ≠ (g.contractName, g.name) ∧
          freeAndMember.qualifiedFunctionName f = freeAndMember.qualifiedFunctionName g := by
  refine ⟨?_, sampleFunction "foo" none, by decide, sampleFunction "foo" (some "C"), by decide,
    by decide, by decide⟩
  simp [DotFreeNames, freeAndMember, sampleFunction, DotFree]

/-- `A.foo` and `B.foo` are told apart. -/
theorem twoContracts_apart :
    twoContracts.qualifiedFunctionName (sampleFunction "foo" (some "A")) ≠
      twoContracts.qualifiedFunctionName (sampleFunction "foo" (some "B")) ∧
    twoContracts.DotFreeNames := by
  have hdots : twoContracts.DotFreeNames := by
    simp [DotFreeNames, twoContracts, sampleFunction, DotFree]
  refine ⟨?_, hdots⟩
  rw [Ne, twoContracts.qualifiedFunctionName_eq_iff hdots _ _ (by decide) (by decide) (by decide)]
  simp [ShadowsMember, sampleFunction]

end EvmRecorder.SolidityAst
