import EvmRecorder.MemoryTracker.Allocation
import EvmRecorder.SolidityAst.Extraction

/-!
# The order of the variables in scope

The last variable in scope is taken for the one declared most recently. The visitor's
order is that of the source but for loops, whose body it visits before their header, and
clauses, whose parameters it adds behind their block.
-/

namespace EvmRecorder

open Solc SolidityAst

/-! ## §1  Sorted lists of variables -/

/-- Later in the list is later in the source. -/
def Sorted (vars : List VarDecl) : Prop :=
  vars.Pairwise fun v w => v.declarationOffset < w.declarationOffset

/-- The variables declared at or before `offset`. -/
def declaredBy (offset : Int32) (vars : List VarDecl) : List VarDecl :=
  vars.filter fun lv => lv.declarationOffset ≤ offset

section Sorted

variable {offset : Int32} {xs ys xs' ys' : List VarDecl}

theorem mem_declaredBy {v : VarDecl} :
    v ∈ declaredBy offset xs ↔ v ∈ xs ∧ v.declarationOffset ≤ offset := by
  simp [declaredBy]

theorem sorted_append : Sorted (xs ++ ys) ↔ Sorted xs ∧ Sorted ys ∧
    ∀ v ∈ xs, ∀ w ∈ ys, v.declarationOffset < w.declarationOffset :=
  List.pairwise_append

theorem Sorted.declaredBy (h : Sorted xs) : Sorted (declaredBy offset xs) := h.filter _

/-- What stands in source order stays sorted if its parts are. -/
theorem sorted_declaredBy_append_iff (h : Sorted (xs ++ ys)) (hxs : xs'.Perm xs)
    (hys : ys'.Perm ys) :
    Sorted (declaredBy offset (xs' ++ ys')) ↔
      Sorted (declaredBy offset xs') ∧ Sorted (declaredBy offset ys') := by
  obtain ⟨-, -, hcross⟩ := sorted_append.mp h
  rw [declaredBy, List.filter_append, sorted_append]
  constructor
  · rintro ⟨hleft, hright, -⟩
    exact ⟨hleft, hright⟩
  · rintro ⟨hleft, hright⟩
    refine ⟨hleft, hright, ?_⟩
    intro v hv w hw
    exact hcross v (hxs.mem_iff.mp (mem_declaredBy.mp hv).1) w
      (hys.mem_iff.mp (mem_declaredBy.mp hw).1)

/-- What stands against it is sorted only if one of the parts is empty. -/
theorem sorted_declaredBy_swap_iff (h : Sorted (xs ++ ys)) (hxs : xs'.Perm xs)
    (hys : ys'.Perm ys) :
    Sorted (declaredBy offset (ys' ++ xs')) ↔
      Sorted (declaredBy offset ys') ∧ Sorted (declaredBy offset xs') ∧
        (xs = [] ∨ ∀ w ∈ ys, offset < w.declarationOffset) := by
  obtain ⟨-, -, hcross⟩ := sorted_append.mp h
  rw [declaredBy, List.filter_append, sorted_append]
  apply and_congr_right
  intro _
  apply and_congr_right
  intro _
  constructor
  · intro hswap
    rw [or_iff_not_imp_right]
    intro hopen
    push Not at hopen
    obtain ⟨w, hw, hle⟩ := hopen
    rw [List.eq_nil_iff_forall_not_mem]
    intro v hv
    have hlt := hcross v hv w hw
    rw [Int32.not_lt] at hle
    have hv' : v ∈ declaredBy offset xs' :=
      mem_declaredBy.mpr ⟨hxs.mem_iff.mpr hv, Int32.le_trans (Int32.le_of_lt hlt) hle⟩
    have hw' : w ∈ declaredBy offset ys' := mem_declaredBy.mpr ⟨hys.mem_iff.mpr hw, hle⟩
    exact Int32.lt_irrefl (Int32.lt_trans hlt (hswap w hw' v hv'))
  · rintro (rfl | hlate) w hw v hv
    · rw [hxs.eq_nil] at hv
      contradiction
    · obtain ⟨hmem, hle⟩ := mem_declaredBy.mp hw
      exact absurd (hlate w (hys.mem_iff.mp hmem)) (Int32.not_lt.mpr hle)

/-- The last hit in a sorted list is the most recent one. -/
theorem Sorted.le_of_find?_reverse {p : VarDecl → Bool} {v w : VarDecl} (h : Sorted xs)
    (hv : xs.reverse.find? p = some v) (hw : w ∈ xs) (hp : p w = true) :
    w.declarationOffset ≤ v.declarationOffset := by
  induction xs using List.reverseRecOn with
  | nil => contradiction
  | append_singleton xs x ih =>
      obtain ⟨hxs, -, hcross⟩ := sorted_append.mp h
      rw [List.reverse_append, List.reverse_singleton, List.singleton_append] at hv
      rw [List.mem_append, List.mem_singleton] at hw
      cases hx : p x with
      | true =>
          rw [List.find?_cons_of_pos hx] at hv
          obtain rfl := Option.some.inj hv
          rcases hw with hw | rfl
          · exact Int32.le_of_lt (hcross w hw x (List.mem_singleton_self x))
          · exact Int32.le_refl _
      | false =>
          rw [List.find?_cons_of_neg (by simp [hx])] at hv
          rcases hw with hw | rfl
          · exact ih hxs hv hw
          · rw [hx] at hp
            contradiction

end Sorted

/-! ## §2  Trees in order -/

namespace Solc

mutual
/-- At `offset` no loop has a variable of its body declared while its header declares
some, and no clause one of its block while it has named parameters. -/
def Statement.InOrderAt (offset : Int32) : Statement → Prop
  | .block statements => AllInOrderAt offset statements
  | .uncheckedBlock statements => AllInOrderAt offset statements
  | .ifStatement trueBody falseBody =>
      trueBody.InOrderAt offset ∧ OptInOrderAt offset falseBody
  | .forStatement init loop body =>
      body.InOrderAt offset ∧ (OptInOrderAt offset init ∧ OptInOrderAt offset loop) ∧
        (declaredOpt init ++ declaredOpt loop = [] ∨
          ∀ v ∈ body.declared, offset < v.declarationOffset)
  | .whileStatement body => body.InOrderAt offset
  | .doWhileStatement body => body.InOrderAt offset
  | .tryStatement clauses => AllInOrderAt offset clauses
  | .tryCatchClause parameters block =>
      block.InOrderAt offset ∧
        (named parameters = [] ∨ ∀ v ∈ block.declared, offset < v.declarationOffset)
  | .variableDeclarationStatement _ _ => True
  | .other => True

def AllInOrderAt (offset : Int32) : List Statement → Prop
  | [] => True
  | s :: rest => s.InOrderAt offset ∧ AllInOrderAt offset rest

def OptInOrderAt (offset : Int32) : Option Statement → Prop
  | none => True
  | some s => s.InOrderAt offset
end

mutual
/-- Declared in source order, the variables of a statement are visited in source order
exactly when it is in order. Induction over the tree. -/
theorem Statement.sorted_visitOrder_iff (offset : Int32) : ∀ s : Statement,
    Sorted s.declared → (Sorted (declaredBy offset s.visitOrder) ↔ s.InOrderAt offset)
  | .block statements, h => by
      rw [Statement.visitOrder, Statement.InOrderAt]
      rw [Statement.declared] at h
      exact sorted_visitOrderAll_iff offset statements h
  | .uncheckedBlock statements, h => by
      rw [Statement.visitOrder, Statement.InOrderAt]
      rw [Statement.declared] at h
      exact sorted_visitOrderAll_iff offset statements h
  | .ifStatement trueBody falseBody, h => by
      rw [Statement.declared] at h
      obtain ⟨htrue, hfalse, -⟩ := sorted_append.mp h
      rw [Statement.visitOrder, Statement.InOrderAt,
        sorted_declaredBy_append_iff h trueBody.visitOrder_perm (visitOrderOpt_perm falseBody),
        trueBody.sorted_visitOrder_iff offset htrue, sorted_visitOrderOpt_iff offset falseBody hfalse]
  | .forStatement init loop body, h => by
      rw [Statement.declared] at h
      obtain ⟨hheader, hbody, -⟩ := sorted_append.mp h
      obtain ⟨hinit, hloop, -⟩ := sorted_append.mp hheader
      have hinitPerm := visitOrderOpt_perm init
      have hloopPerm := visitOrderOpt_perm loop
      -- the body is visited before the header
      rw [Statement.visitOrder, Statement.InOrderAt,
        sorted_declaredBy_swap_iff h (hinitPerm.append hloopPerm) body.visitOrder_perm,
        sorted_declaredBy_append_iff hheader hinitPerm hloopPerm,
        body.sorted_visitOrder_iff offset hbody, sorted_visitOrderOpt_iff offset init hinit,
        sorted_visitOrderOpt_iff offset loop hloop]
  | .whileStatement body, h => by
      rw [Statement.visitOrder, Statement.InOrderAt]
      rw [Statement.declared] at h
      exact body.sorted_visitOrder_iff offset h
  | .doWhileStatement body, h => by
      rw [Statement.visitOrder, Statement.InOrderAt]
      rw [Statement.declared] at h
      exact body.sorted_visitOrder_iff offset h
  | .tryStatement clauses, h => by
      rw [Statement.visitOrder, Statement.InOrderAt]
      rw [Statement.declared] at h
      exact sorted_visitOrderAll_iff offset clauses h
  | .tryCatchClause parameters block, h => by
      rw [Statement.declared] at h
      obtain ⟨hparameters, hblock, -⟩ := sorted_append.mp h
      -- the parameters come behind the block
      rw [Statement.visitOrder, Statement.InOrderAt,
        sorted_declaredBy_swap_iff h (.refl _) block.visitOrder_perm,
        block.sorted_visitOrder_iff offset hblock]
      constructor
      · rintro ⟨hin, -, hlate⟩
        exact ⟨hin, hlate⟩
      · rintro ⟨hin, hlate⟩
        exact ⟨hin, hparameters.declaredBy, hlate⟩
  | .variableDeclarationStatement src declarations, h => by
      rw [Statement.visitOrder, Statement.InOrderAt]
      rw [Statement.declared] at h
      exact iff_true_intro h.declaredBy
  | .other, _ => by
      rw [Statement.visitOrder, Statement.InOrderAt]
      exact iff_true_intro List.Pairwise.nil

theorem sorted_visitOrderAll_iff (offset : Int32) : ∀ statements : List Statement,
    Sorted (declaredAll statements) →
      (Sorted (declaredBy offset (visitOrderAll statements)) ↔ AllInOrderAt offset statements)
  | [], _ => by
      rw [visitOrderAll, AllInOrderAt]
      exact iff_true_intro List.Pairwise.nil
  | s :: rest, h => by
      rw [declaredAll] at h
      obtain ⟨hs, hrest, -⟩ := sorted_append.mp h
      rw [visitOrderAll, AllInOrderAt,
        sorted_declaredBy_append_iff h s.visitOrder_perm (visitOrderAll_perm rest),
        s.sorted_visitOrder_iff offset hs, sorted_visitOrderAll_iff offset rest hrest]

theorem sorted_visitOrderOpt_iff (offset : Int32) : ∀ o : Option Statement,
    Sorted (declaredOpt o) →
      (Sorted (declaredBy offset (visitOrderOpt o)) ↔ OptInOrderAt offset o)
  | none, _ => by
      rw [visitOrderOpt, OptInOrderAt]
      exact iff_true_intro List.Pairwise.nil
  | some s, h => by
      rw [declaredOpt] at h
      rw [visitOrderOpt, OptInOrderAt]
      exact s.sorted_visitOrder_iff offset h
end

end Solc

/-! ## §3  Variables in scope -/

/-- Parameters, return variables and then the body, as they stand in the source. -/
def Solc.FunctionDefinition.InSourceOrder (function : FunctionDefinition) : Prop :=
  Sorted (function.parameters.map (·.varDecl none) ++ function.locals)

/-- The variables in scope are in the order of their declarations; so where no variable has
the offset in its range, a region is registered for the most recent of those that are in
memory and have none. -/
structure MostRecentLast (vars : List VarDecl) : Prop where
  sorted : Sorted vars
  fallback : ∀ (tracker : MemoryTracker) prevFmp newFmp sourceOffset r,
    sourceOffset.bind (pickVarForOffset · vars) = none →
    (tracker.handleFmpBump prevFmp newFmp sourceOffset vars).regions = tracker.regions ++ [r] →
      ∃ v ∈ vars, v.name = r.name ∧ ∀ w ∈ vars, w.isMemoryResident →
        tracker.isAlreadyRegistered w.name = false → w.declarationOffset ≤ v.declarationOffset

/-- Where no range is hit, a region is registered for the last variable that is in memory
and has none. -/
theorem find?_of_handleFmpBump {tracker : MemoryTracker} {prevFmp newFmp : Nat}
    {sourceOffset : Option Int32} {vars : List VarDecl} {r : MemRegion}
    (hrange : sourceOffset.bind (pickVarForOffset · vars) = none)
    (h : (tracker.handleFmpBump prevFmp newFmp sourceOffset vars).regions =
      tracker.regions ++ [r]) :
    ∃ v, vars.reverse.find? (fun v =>
      v.isMemoryResident && !tracker.isAlreadyRegistered v.name) = some v ∧ v.name = r.name := by
  have hsame : tracker.regions ≠ tracker.regions ++ [r] := by simp
  simp only [MemoryTracker.handleFmpBump, hrange, Option.orElse_none] at h
  by_cases hle : newFmp ≤ prevFmp
  · rw [if_pos hle] at h
    exact absurd h hsame
  · rw [if_neg hle] at h
    cases hv : vars.reverse.find? fun v =>
        v.isMemoryResident && !tracker.isAlreadyRegistered v.name with
    | none =>
        rw [hv] at h
        exact absurd h hsame
    | some v =>
        rw [hv] at h
        cases hreg : tracker.isAlreadyRegistered v.name with
        | true =>
            simp only [hreg, if_true] at h
            exact absurd h hsame
        | false =>
            simp only [hreg, Bool.false_eq_true, if_false, List.append_cancel_left_eq,
              List.cons.injEq, and_true] at h
            exact ⟨v, rfl, h ▸ rfl⟩

theorem Sorted.mostRecentLast {vars : List VarDecl} (h : Sorted vars) : MostRecentLast vars where
  sorted := h
  fallback := by
    intro tracker prevFmp newFmp sourceOffset r hrange hregions
    obtain ⟨v, hv, hname⟩ := find?_of_handleFmpBump hrange hregions
    refine ⟨v, List.mem_reverse.mp (List.mem_of_find?_eq_some hv), hname, ?_⟩
    intro w hw hmemory hfresh
    exact h.le_of_find?_reverse hv hw (by simp [hmemory, hfresh])

section

variable {function : FunctionDefinition} {v : Value} {fdef : FunctionDef} (offset : Int32)

theorem varsInScopeAt_of_encodes (h : function.Encodes v) (hparse : parseFunction v = some fdef) :
    fdef.varsInScopeAt offset = function.parameters.map (·.varDecl none) ++
      (declaredBy offset (named function.returnParameters) ++
        declaredBy offset (visitOrderOpt function.body)) := by
  rw [parseFunction_eq h] at hparse
  obtain rfl := Option.some.inj hparse
  rw [FunctionDef.varsInScopeAt, FunctionDefinition.visitOrder, List.filter_append]
  rfl

theorem sorted_varsInScopeAt_iff (h : function.Encodes v) (hparse : parseFunction v = some fdef)
    (horder : function.InSourceOrder) :
    Sorted (fdef.varsInScopeAt offset) ↔ OptInOrderAt offset function.body := by
  obtain ⟨hparameters, hlocals, hcross⟩ := sorted_append.mp horder
  rw [FunctionDefinition.locals] at hlocals hcross
  obtain ⟨hreturns, hbody, -⟩ := sorted_append.mp hlocals
  have hperm := visitOrderOpt_perm function.body
  have hboth := @sorted_declaredBy_append_iff offset _ _ _ _ hlocals (.refl _) hperm
  rw [declaredBy, List.filter_append, ← declaredBy, ← declaredBy] at hboth
  rw [varsInScopeAt_of_encodes offset h hparse, sorted_append, hboth,
    sorted_visitOrderOpt_iff offset function.body hbody]
  constructor
  · rintro ⟨-, ⟨-, hin⟩, -⟩
    exact hin
  · intro hin
    refine ⟨hparameters, ⟨hreturns.declaredBy, hin⟩, ?_⟩
    intro v hv w hw
    apply hcross v hv w
    rw [List.mem_append] at hw ⊢
    rcases hw with hw | hw
    · exact .inl (mem_declaredBy.mp hw).1
    · exact .inr (hperm.mem_iff.mp (mem_declaredBy.mp hw).1)

end

/-- For a function as solc prints it, in source order, the variables in scope come with the
most recent one last exactly when the body is in order at the offset. -/
theorem varsInScopeAt_mostRecentLast_iff {function : FunctionDefinition} {v : Value}
    {fdef : FunctionDef} (h : function.Encodes v) (hparse : parseFunction v = some fdef)
    (horder : function.InSourceOrder) (offset : Int32) :
    MostRecentLast (fdef.varsInScopeAt offset) ↔ OptInOrderAt offset function.body := by
  rw [← sorted_varsInScopeAt_iff offset h hparse horder]
  constructor
  · exact fun hlast => hlast.sorted
  · exact fun hsorted => hsorted.mostRecentLast

/-! ### A loop with a variable in its header and one in its body -/

def bytesJson (name src : String) : Value :=
  .object [("name", .string name), ("src", .string src),
    ("typeName", .object [("name", .string "bytes")])]

def bytesDeclaration (name : String) (offset length : Int32) : Declaration where
  name := name
  typeName := "bytes"
  src := { offset, length, fileIndex := 0 }

def blockJson (statements : List Value) : Value :=
  .object [("nodeType", .string "Block"), ("statements", .array statements)]

def statementJson (src : String) (declaration : Value) : Value :=
  .object [("nodeType", .string "VariableDeclarationStatement"), ("src", .string src),
    ("declarations", .array [declaration])]

/-- `for (bytes memory b = ..; ..; ..) { bytes memory c = ..; }` -/
def loopJson : Value :=
  .object [("nodeType", .string "ForStatement"),
    ("initializationExpression", statementJson "20:20:0" (bytesJson "b" "20:14:0")),
    ("body", blockJson [statementJson "60:20:0" (bytesJson "c" "60:14:0")])]

def loopFunctionJson : Value :=
  .object [("nodeType", .string "FunctionDefinition"), ("name", .string "f"),
    ("kind", .string "function"), ("src", .string "0:120:0"),
    ("parameters", .object [("parameters", .array [])]),
    ("returnParameters", .object [("parameters", .array [])]), ("body", blockJson [loopJson])]

def loopFunction : FunctionDefinition where
  name := "f"
  kind := some "function"
  src := { offset := 0, length := 120, fileIndex := 0 }
  parameters := []
  returnParameters := []
  body := some (.block [.forStatement
    (some (.variableDeclarationStatement { offset := 20, length := 20, fileIndex := 0 }
      [some (bytesDeclaration "b" 20 14)])) none
    (.block [.variableDeclarationStatement { offset := 60, length := 20, fileIndex := 0 }
      [some (bytesDeclaration "c" 60 14)]])])

theorem statementJson_encodes {name src statementSrc : String} {offset length : Int32}
    {range : SourceRange} (hrange : printSrc range = statementSrc)
    (hsrc : printSrc { offset, length, fileIndex := 0 } = src) :
    (Statement.variableDeclarationStatement range [some (bytesDeclaration name offset length)]).Encodes
      (statementJson statementSrc (bytesJson name src)) := by
  subst hrange
  subst hsrc
  refine ⟨isNode_of_isNone rfl ?_, rfl, _, rfl, .cons ⟨rfl, rfl, rfl⟩ .nil⟩
  simp [childKeys, statementJson, Value.get, List.lookup_cons]

theorem blockJson_encodes {statements : List Statement} {vs : List Value}
    (h : encodesAll statements vs) : (Statement.block statements).Encodes (blockJson vs) := by
  refine ⟨isNode_of_isNone rfl ?_, vs, rfl, h⟩
  simp [childKeys, blockJson, Value.get, List.lookup_cons]

theorem loopFunction_encodes : loopFunction.Encodes loopFunctionJson := by
  refine ⟨rfl, rfl, rfl, ?_, .inl ⟨_, _, rfl, rfl, .nil⟩, .inl ⟨_, _, rfl, rfl, .nil⟩, _, rfl, ?_⟩
  · exact congrArg (fun s => some (Value.string s)) (by decide)
  · refine blockJson_encodes ⟨_, _, rfl, ⟨isNode_of_isNone rfl (by decide), ?_, .inl rfl, ?_⟩, rfl⟩
    · exact ⟨_, rfl, statementJson_encodes (by decide) (by decide)⟩
    · exact ⟨_, rfl, blockJson_encodes
        ⟨_, _, rfl, statementJson_encodes (by decide) (by decide), rfl⟩⟩

theorem loopFunction_inSourceOrder : loopFunction.InSourceOrder := by
  have hlocals : loopFunction.parameters.map (·.varDecl none) ++ loopFunction.locals =
      [(bytesDeclaration "b" 20 14).varDecl (some { offset := 20, length := 20, fileIndex := 0 }),
        (bytesDeclaration "c" 60 14).varDecl
          (some { offset := 60, length := 20, fileIndex := 0 })] := by
    rfl
  rw [FunctionDefinition.InSourceOrder, hlocals]
  exact .cons (by decide) (.cons (by simp) .nil)

/-- In the body, `b` comes last, and is taken for the variable declared most recently. -/
theorem loopFunction_not_mostRecentLast : loopFunction.Encodes loopFunctionJson ∧
    loopFunction.InSourceOrder ∧ ∃ fdef, parseFunction loopFunctionJson = some fdef ∧
      (fdef.varsInScopeAt 85).map (·.name) = ["c", "b"] ∧
      ((MemoryTracker.new.handleFmpBump 0x80 0xC0 none (fdef.varsInScopeAt 85)).regions.map
        (·.name)) = ["b"] ∧
      ¬ MostRecentLast (fdef.varsInScopeAt 85) := by
  refine ⟨loopFunction_encodes, loopFunction_inSourceOrder, _,
    parseFunction_eq loopFunction_encodes, by decide +kernel, by decide +kernel, ?_⟩
  intro hlast
  have hin := (sorted_varsInScopeAt_iff 85 loopFunction_encodes
    (parseFunction_eq loopFunction_encodes) loopFunction_inSourceOrder).mp hlast.sorted
  simp only [loopFunction, OptInOrderAt, Statement.InOrderAt, AllInOrderAt, Statement.declared,
    declaredOpt, declaredAll] at hin
  revert hin
  decide

/-- In the header only `b` is in scope. -/
theorem loopFunction_mostRecentLast : ∃ fdef, parseFunction loopFunctionJson = some fdef ∧
    MostRecentLast (fdef.varsInScopeAt 45) := by
  refine ⟨_, parseFunction_eq loopFunction_encodes, ?_⟩
  apply (varsInScopeAt_mostRecentLast_iff loopFunction_encodes
    (parseFunction_eq loopFunction_encodes) loopFunction_inSourceOrder 45).mpr
  simp only [loopFunction, OptInOrderAt, Statement.InOrderAt, AllInOrderAt, Statement.declared,
    declaredOpt, declaredAll]
  decide

end EvmRecorder
