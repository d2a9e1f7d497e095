import EvmRecorder.SolidityAst.Extraction

/-!
# Scopes of local variables

A local of Solidity is visible from its declaration to the end of the block, loop or
clause around it. The extraction keeps the declarations in one list without their
scopes, so a local opens at its declaration and is never closed.
-/

namespace EvmRecorder

open Solc SolidityAst

/-! ## §1  Scopes -/

/-- Nodes that are the scope of what is declared in them. -/
def scopeTypes : List String := ["Block", "UncheckedBlock", "ForStatement", "TryCatchClause"]

/-- The scope inside a node that stands in `scope`. -/
def innerScope (scope : SourceRange) (node : Value) : SourceRange :=
  if (node.getStr "nodeType").getD "" ∈ scopeTypes then
    ((node.getStr "src").bind SourceRange.parse).getD scope
  else scope

/-- The variables collected from a node, each with its scope. -/
def scopedLocalVars (scope : SourceRange) (node : Value) : List (VarDecl × SourceRange) :=
  let nodeType := (node.getStr "nodeType").getD ""
  let scope := innerScope scope node
  ((if nodeType = "VariableDeclarationStatement" then statementVars node else []).map (·, scope)) ++
    (childKeys.flatMap fun key =>
      match _h : node.get key with
      | some (.array items) => items.attach.flatMap fun item => scopedLocalVars scope item.1
      | some child => scopedLocalVars scope child
      | none => []) ++
    ((if nodeType = "TryCatchClause" then namedParameters node "parameters" else []).map (·, scope))
termination_by sizeOf node
decreasing_by
  · exact (Value.sizeOf_mem_lt item.2).trans (Value.sizeOf_get_lt _h)
  · exact Value.sizeOf_get_lt _h

/-- The scope of the return variables is the whole function. -/
def scopedLocals (function : SourceRange) (node : Value) : List (VarDecl × SourceRange) :=
  (namedParameters node "returnParameters").map (·, function) ++
    ((node.get "body").map (scopedLocalVars function)).getD []

def SourceRange.endOffset (self : SourceRange) : Int := self.offset.toInt + self.length.toInt

/-- The variable is declared, and its scope has not ended. -/
def visibleAt (offset : Int32) (x : VarDecl × SourceRange) : Bool :=
  x.1.declarationOffset ≤ offset && decide (offset.toInt < x.2.endOffset)

/-! ## §2  The extraction forgets the scopes -/

/-- The variables under one key, with their scopes. -/
def scopedChildVars (scope : SourceRange) (node : Value) (key : String) :
    List (VarDecl × SourceRange) :=
  match node.get key with
  | some (.array items) => items.flatMap (scopedLocalVars scope)
  | some child => scopedLocalVars scope child
  | none => []

theorem scopedChildVars_of_node {scope : SourceRange} {v w : Value} {key : String}
    (h : v.get key = some w) (hw : w.asArray = none) :
    scopedChildVars scope v key = scopedLocalVars scope w := by
  rw [scopedChildVars, h]
  cases w with
  | array items => cases hw
  | _ => rfl

theorem scopedLocalVars_eq (scope : SourceRange) (node : Value) :
    scopedLocalVars scope node =
      (if (node.getStr "nodeType").getD "" = "VariableDeclarationStatement" then statementVars node
        else []).map (·, innerScope scope node) ++
      childKeys.flatMap (scopedChildVars (innerScope scope node) node) ++
      (if (node.getStr "nodeType").getD "" = "TryCatchClause" then
        namedParameters node "parameters" else []).map (·, innerScope scope node) := by
  have hattach : ∀ (scope : SourceRange) (items : List Value),
      (items.attach.flatMap fun item => scopedLocalVars scope item.1) =
        items.flatMap (scopedLocalVars scope) := by
    intro scope items
    rw [List.flatMap_subtype (g := scopedLocalVars scope) fun _ _ => rfl, List.unattach_attach]
  rw [scopedLocalVars]
  congr 2
  refine congrArg childKeys.flatMap (funext fun key => ?_)
  unfold scopedChildVars
  split
  · next items hitems => rw [hitems, hattach]
  · next child hchild hnode =>
      rw [hnode]
      cases child with
      | array items => exact absurd rfl (hchild items)
      | _ => rfl
  · next hnode => rw [hnode]

/-- The induction is on the node, through the children under each key. -/
theorem map_fst_scopedLocalVars (scope : SourceRange) (node : Value) :
    (scopedLocalVars scope node).map Prod.fst = collectLocalVars node := by
  have hfst : ∀ (vars : List VarDecl) (range : SourceRange),
      (vars.map fun v => (v, range)).map Prod.fst = vars := by
    intro vars range
    rw [List.map_map]
    exact List.map_id vars
  have hchildren : ∀ key, (scopedChildVars (innerScope scope node) node key).map Prod.fst =
      childVars node key := by
    intro key
    cases hchild : node.get key with
    | none =>
        rw [childVars_of_none hchild, scopedChildVars, hchild]
        rfl
    | some child =>
        have hlt := Value.sizeOf_get_lt hchild
        cases harray : child.asArray with
        | none =>
            rw [childVars_of_node hchild harray, scopedChildVars_of_node hchild harray]
            exact map_fst_scopedLocalVars _ child
        | some items =>
            obtain rfl : child = .array items := by
              cases child with
              | array items' => exact congrArg Value.array (Option.some.inj harray)
              | _ => cases harray
            rw [childVars_of_array hchild, scopedChildVars, hchild]
            simp only [List.map_flatMap]
            apply List.flatMap_congr
            intro item hitem
            have hlt' := Value.sizeOf_mem_lt hitem
            exact map_fst_scopedLocalVars _ item
  rw [scopedLocalVars_eq, collectLocalVars_eq, List.map_append, List.map_append, hfst, hfst,
    List.map_flatMap]
  simp only [hchildren]
termination_by sizeOf node

theorem parseFunction_localVariables {node : Value} {fdef : FunctionDef}
    (hparse : parseFunction node = some fdef) (range : SourceRange) :
    fdef.localVariables = (scopedLocals range node).map Prod.fst := by
  obtain ⟨srcStr, -, hparse⟩ := Option.bind_eq_some_iff.mp hparse
  obtain ⟨src, -, hparse⟩ := Option.bind_eq_some_iff.mp hparse
  obtain rfl := Option.some.inj hparse
  have hreturns : ((namedParameters node "returnParameters").map fun v => (v, range)).map Prod.fst =
      namedParameters node "returnParameters" := by
    rw [List.map_map]
    exact List.map_id _
  rw [scopedLocals, List.map_append, hreturns]
  cases node.get "body" with
  | none => rfl
  | some body =>
      rw [Option.map_some, Option.map_some, Option.getD_some, Option.getD_some,
        map_fst_scopedLocalVars]

/-! ## §3  Variables in scope -/

/-- The locals in scope at an offset are those declared at or before it, wherever their
scopes end. All visible ones are among them; there are no others only while no scope of a
declared one has ended; and any two, whatever their scopes, are in scope together as soon
as both are declared. -/
theorem varsInScopeAt_scopes {node : Value} {fdef : FunctionDef}
    (hparse : parseFunction node = some fdef) (offset : Int32) :
    let locals := scopedLocals fdef.src node
    let inScope := locals.filter fun x => x.1.declarationOffset ≤ offset
    fdef.varsInScopeAt offset = fdef.parameters ++ inScope.map Prod.fst ∧
      (locals.filter (visibleAt offset)).Sublist inScope ∧
      (inScope = locals.filter (visibleAt offset) ↔
        ∀ x ∈ locals, x.1.declarationOffset ≤ offset → offset.toInt < x.2.endOffset) ∧
      ∀ x y, [x, y].Sublist locals → ([x, y].Sublist inScope ↔
        x.1.declarationOffset ≤ offset ∧ y.1.declarationOffset ≤ offset) := by
  intro locals inScope
  -- the visible locals are those in scope whose scope has not ended
  have hvisible : locals.filter (visibleAt offset) =
      inScope.filter fun x => decide (offset.toInt < x.2.endOffset) := by
    rw [List.filter_filter]
    apply List.filter_congr
    intro x _
    exact Bool.and_comm _ _
  refine ⟨?_, ?_, ?_, ?_⟩
  · rw [FunctionDef.varsInScopeAt, parseFunction_localVariables hparse fdef.src, List.filter_map]
    rfl
  · rw [hvisible]
    exact List.filter_sublist
  · rw [hvisible, eq_comm, List.filter_eq_self]
    simp [inScope]
  · intro x y hxy
    constructor
    · intro hin
      have hx := hin.subset List.mem_cons_self
      have hy := hin.subset (List.mem_cons_of_mem _ List.mem_cons_self)
      exact ⟨by simpa using (List.mem_filter.mp hx).2, by simpa using (List.mem_filter.mp hy).2⟩
    · rintro ⟨hx, hy⟩
      have hin := hxy.filter fun x => decide (x.1.declarationOffset ≤ offset)
      rw [List.filter_cons_of_pos (by simpa using hx), List.filter_cons_of_pos (by simpa using hy),
        List.filter_nil] at hin
      exact hin

/-! ### Two blocks that use one name -/

def scopeJson (src : String) (statements : List Value) : Value :=
  .object [("nodeType", .string "Block"), ("src", .string src), ("statements", .array statements)]

def localJson (src : String) (declaration : Value) : Value :=
  .object [("nodeType", .string "VariableDeclarationStatement"), ("src", .string src),
    ("declarations", .array [declaration])]

/-- `{ { uint256 x = ..; } { uint256 x = ..; } }` -/
def siblingBlocks : Value :=
  scopeJson "10:90:0"
    [scopeJson "20:30:0" [localJson "25:15:0" (declarationJson "x" "25:9:0")],
      scopeJson "60:30:0" [localJson "65:15:0" (declarationJson "x" "65:9:0")]]

def siblingsJson : Value :=
  .object [("nodeType", .string "FunctionDefinition"), ("name", .string "f"),
    ("kind", .string "function"), ("src", .string "0:100:0"), ("body", siblingBlocks)]

/-- The variable `x` that is declared at `offset`. -/
def siblingVar (offset : Int32) : VarDecl where
  name := "x"
  typeName := "uint256"
  src := ⟨offset, 9, 0⟩
  declarationOffset := offset
  statementRange := some ⟨offset, 15, 0⟩

theorem scopedLocalVars_localJson (scope : SourceRange) (src : String) (declaration : Value) :
    scopedLocalVars scope (localJson src declaration) =
      (statementVars (localJson src declaration)).map (·, scope) := by
  rw [scopedLocalVars_eq]
  simp [localJson, Value.getStr, Value.get, Value.asStr, List.lookup_cons, childKeys, scopedChildVars,
    innerScope, scopeTypes]

theorem scopedLocalVars_scopeJson {scope range : SourceRange} {src : String}
    {statements : List Value} (h : SourceRange.parse src = some range) :
    scopedLocalVars scope (scopeJson src statements) =
      statements.flatMap (scopedLocalVars range) := by
  rw [scopedLocalVars_eq]
  simp [scopeJson, Value.getStr, Value.get, Value.asStr, List.lookup_cons, childKeys, scopedChildVars,
    innerScope, scopeTypes, h]

theorem scopedLocalVars_siblingBlocks (scope : SourceRange) :
    scopedLocalVars scope siblingBlocks =
      [(siblingVar 25, ⟨20, 30, 0⟩), (siblingVar 65, ⟨60, 30, 0⟩)] := by
  have hfirst : statementVars (localJson "25:15:0" (declarationJson "x" "25:9:0")) =
      [siblingVar 25] := by
    decide +kernel
  have hsecond : statementVars (localJson "65:15:0" (declarationJson "x" "65:9:0")) =
      [siblingVar 65] := by
    decide +kernel
  have houter : SourceRange.parse "10:90:0" = some ⟨10, 90, 0⟩ := by decide +kernel
  have hinner : SourceRange.parse "20:30:0" = some ⟨20, 30, 0⟩ := by decide +kernel
  have hinner' : SourceRange.parse "60:30:0" = some ⟨60, 30, 0⟩ := by decide +kernel
  rw [siblingBlocks, scopedLocalVars_scopeJson houter]
  simp [scopedLocalVars_scopeJson hinner, scopedLocalVars_scopeJson hinner',
    scopedLocalVars_localJson, hfirst, hsecond]

def siblingsFunction : FunctionDef where
  name := "f"
  src := ⟨0, 100, 0⟩
  localVariables := [siblingVar 25, siblingVar 65]

theorem parseFunction_siblings : parseFunction siblingsJson = some siblingsFunction := by
  have hsrc : siblingsJson.getStr "src" = some "0:100:0" := by rfl
  have hrange : SourceRange.parse "0:100:0" = some ⟨0, 100, 0⟩ := by decide +kernel
  have hbody : siblingsJson.get "body" = some siblingBlocks := by rfl
  have hlocals : collectLocalVars siblingBlocks = [siblingVar 25, siblingVar 65] := by
    rw [← map_fst_scopedLocalVars ⟨0, 100, 0⟩, scopedLocalVars_siblingBlocks]
    rfl
  simp only [parseFunction, hsrc, hrange, hbody, hlocals, Option.bind_eq_bind, Option.bind_some,
    Option.map_some, Option.getD_some]
  rfl

/-- Behind the end of the first block its `x` is still in scope, with that of the second. -/
theorem siblings_both_in_scope : parseFunction siblingsJson = some siblingsFunction ∧
    scopedLocals siblingsFunction.src siblingsJson =
      [(siblingVar 25, ⟨20, 30, 0⟩), (siblingVar 65, ⟨60, 30, 0⟩)] ∧
    (⟨20, 30, 0⟩ : SourceRange).endOffset ≤ (70 : Int32).toInt ∧
    siblingsFunction.varsInScopeAt 70 = [siblingVar 25, siblingVar 65] := by
  refine ⟨parseFunction_siblings, ?_, by decide, by decide +kernel⟩
  have hbody : siblingsJson.get "body" = some siblingBlocks := by rfl
  have hreturns : namedParameters siblingsJson "returnParameters" = [] := by rfl
  rw [scopedLocals, hbody, hreturns, Option.map_some, Option.getD_some,
    scopedLocalVars_siblingBlocks]
  rfl

theorem varsInScopeAt_scopes_siblings :
    siblingsFunction.varsInScopeAt 40 =
      ((scopedLocals siblingsFunction.src siblingsJson).filter
        fun x => x.1.declarationOffset ≤ 40).map Prod.fst :=
  (varsInScopeAt_scopes parseFunction_siblings 40).1

end EvmRecorder
