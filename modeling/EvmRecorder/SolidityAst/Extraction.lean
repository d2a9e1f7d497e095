import EvmRecorder.Library.Stack
import EvmRecorder.SolidityAst.SolcTree

/-!
# What is extracted from solc's AST

The extraction finds every function once, under its contract, with its local
variables: each visitor looks up its keys by name, and every statement has, of
these, only the keys of its own kind.
-/

namespace EvmRecorder

open Numeral SolidityAst Solc Stack

/-! ## §1  Ranges and declarations read back -/

theorem parse_printSrc (src : SourceRange) : SourceRange.parse (printSrc src) = some src := by
  have hcolon : ∀ x, ':' ∉ printI32 x := fun x => not_mem_printI32 (by decide) (by decide)
  have hparts : (printSrc src).toList.splitOn ':' =
      [printI32 src.offset, printI32 src.length, printI32 src.fileIndex] := by
    rw [printSrc, String.toList_ofList]
    refine List.splitOn_intercalate ':' (fun t ht => ?_) (List.cons_ne_nil _ _)
    simp only [List.mem_cons, List.not_mem_nil, or_false] at ht
    rcases ht with rfl | rfl | rfl <;> exact hcolon _
  simp [SourceRange.parse, hparts]

theorem getStr_of_get {v : Value} {key s : String} (h : v.get key = some (.string s)) :
    v.getStr key = some s := by
  rw [Value.getStr, h]
  rfl

theorem getArray_of_get {v : Value} {key : String} {vs : List Value}
    (h : v.get key = some (.array vs)) : v.getArray key = some vs := by
  rw [Value.getArray, h]
  rfl

theorem getArray_of_none {v : Value} {key : String} (h : v.get key = none) :
    v.getArray key = none := by
  rw [Value.getArray, h]
  rfl

/-- Only objects have fields. -/
theorem asArray_of_get {v w : Value} {key : String} (h : v.get key = some w) :
    v.asArray = none := by
  cases v with
  | array items => cases h
  | _ => rfl

theorem isNull_of_get {v w : Value} {key : String} (h : v.get key = some w) :
    v.isNull = false := by
  cases v with
  | null => cases h
  | _ => rfl

theorem Solc.Declaration.Encodes.parse {d : Declaration} {v : Value} (h : d.Encodes v) :
    parseVarDeclNode v = some (d.varDecl none) := by
  simp only [parseVarDeclNode, getStr_of_get h.name, getStr_of_get h.src, parse_printSrc,
    h.typeName, Option.bind_eq_bind, Option.bind_some]
  rfl

theorem parameters_of_encodes {parameters : List Declaration} {v : Value} {key : String}
    (h : encodesParameters parameters v key) :
    ((parameterNodes v key).map (·.filterMap parseVarDeclNode)).getD [] =
      parameters.map (·.varDecl none) := by
  rcases h with ⟨list, nodes, hlist, hnodes, hall⟩ | ⟨rfl, hnone | hnull⟩
  · rw [parameterNodes, hlist, Option.bind_some, getArray_of_get hnodes, Option.map_some,
      Option.getD_some]
    exact filterMap_of_forall₂ (hall.imp fun d w hd => hd.parse)
  · rw [parameterNodes, hnone]
    rfl
  · rw [parameterNodes, hnull]
    rfl

theorem namedParameters_of_encodes {parameters : List Declaration} {v : Value} {key : String}
    (h : encodesParameters parameters v key) : namedParameters v key = named parameters := by
  have hparsed := parameters_of_encodes h
  have hfilter : namedParameters v key =
      (((parameterNodes v key).map (·.filterMap parseVarDeclNode)).getD []).filter
        fun w => !w.name.isEmpty := by
    unfold namedParameters
    cases parameterNodes v key <;> rfl
  rw [hfilter, hparsed, List.filter_map]
  rfl

theorem statementVars_of_encodes {v : Value} {src : SourceRange}
    {declarations : List (Option Declaration)} {vs : List Value}
    (hsrc : v.get "src" = some (.string (printSrc src)))
    (hdecls : v.get "declarations" = some (.array vs))
    (hall : List.Forall₂ encodesSlot declarations vs) :
    statementVars v = (declarations.filterMap id).map (·.varDecl (some src)) := by
  rw [statementVars, getStr_of_get hsrc, getArray_of_get hdecls, Option.bind_some, parse_printSrc,
    Option.map_some, Option.getD_some]
  clear hdecls
  induction hall with
  | nil => rfl
  | @cons slot w slots ws hslot _ ih =>
      cases slot with
      | none =>
          obtain rfl : w = .null := hslot
          exact ih
      | some d =>
          have hd : d.Encodes w := hslot
          have hparsed : (if w.isNull then none
              else (parseVarDeclNode w).map fun v => { v with statementRange := some src }) =
                some (d.varDecl (some src)) := by
            rw [isNull_of_get hd.name, hd.parse]
            rfl
          simp only [List.filterMap_cons, hparsed, ih, id_eq, List.map_cons]

/-! ## §2  Statements -/

/-- What the variables under one key are. -/
def childVars (node : Value) (key : String) : List VarDecl :=
  match node.get key with
  | some (.array items) => items.flatMap collectLocalVars
  | some child => collectLocalVars child
  | none => []

theorem collectLocalVars_eq (node : Value) :
    collectLocalVars node =
      (if (node.getStr "nodeType").getD "" = "VariableDeclarationStatement" then statementVars node
        else []) ++
      childKeys.flatMap (childVars node) ++
      (if (node.getStr "nodeType").getD "" = "TryCatchClause" then
        namedParameters node "parameters" else []) := by
  have hattach : ∀ items : List Value,
      (items.attach.flatMap fun item => collectLocalVars item.1) =
        items.flatMap collectLocalVars := by
    intro items
    rw [List.flatMap_subtype (g := collectLocalVars) fun _ _ => rfl, List.unattach_attach]
  rw [collectLocalVars]
  congr 2
  refine congrArg childKeys.flatMap (funext fun key => ?_)
  unfold childVars
  split
  · next items hitems => rw [hitems, hattach]
  · next child hchild hnode =>
      rw [hnode]
      cases child with
      | array items => exact absurd rfl (hchild items)
      | _ => rfl
  · next hnode => rw [hnode]

theorem childVars_of_array {v : Value} {key : String} {vs : List Value}
    (h : v.get key = some (.array vs)) : childVars v key = vs.flatMap collectLocalVars := by
  rw [childVars, h]

theorem childVars_of_node {v w : Value} {key : String} (h : v.get key = some w)
    (hw : w.asArray = none) : childVars v key = collectLocalVars w := by
  rw [childVars, h]
  cases w with
  | array items => cases hw
  | _ => rfl

theorem childVars_of_none {v : Value} {key : String} (h : v.get key = none) :
    childVars v key = [] := by
  rw [childVars, h]

theorem collectLocalVars_null : collectLocalVars .null = [] := by
  rw [collectLocalVars_eq]
  have hchildren : childVars .null = fun _ => [] := funext fun key => childVars_of_none rfl
  rw [hchildren]
  rfl

/-- Keys that contribute nothing can be left out. -/
theorem flatMap_of_sublist {α β : Type} {f : α → List β} {xs ys : List α}
    (h : List.Sublist xs ys) (hnodup : ys.Nodup) (hrest : ∀ y ∈ ys, y ∉ xs → f y = []) :
    ys.flatMap f = xs.flatMap f := by
  induction h with
  | slnil => rfl
  | @cons xs ys y hsub ih =>
      obtain ⟨hy, hnodup⟩ := List.nodup_cons.mp hnodup
      have hfirst : f y = [] := hrest y List.mem_cons_self fun hmem => hy (hsub.subset hmem)
      rw [List.flatMap_cons, hfirst, List.nil_append]
      exact ih hnodup fun y' hy' => hrest y' (List.mem_cons_of_mem y hy')
  | @cons_cons xs ys y hsub ih =>
      obtain ⟨hy, hnodup⟩ := List.nodup_cons.mp hnodup
      rw [List.flatMap_cons, List.flatMap_cons, ih hnodup]
      intro y' hy' hnot
      refine hrest y' (List.mem_cons_of_mem y hy') ?_
      rintro (_ | ⟨_, hmem⟩)
      · exact hy hy'
      · exact hnot hmem

/-- A node declares what stands under its own keys, besides what its type adds. -/
theorem Solc.IsNode.collected {v : Value} {nodeType : String} {keys : List String}
    (h : IsNode v nodeType keys) (hkeys : List.Sublist keys childKeys) :
    collectLocalVars v =
      (if nodeType = "VariableDeclarationStatement" then statementVars v else []) ++
      keys.flatMap (childVars v) ++
      (if nodeType = "TryCatchClause" then namedParameters v "parameters" else []) := by
  have hrest : ∀ key ∈ childKeys, key ∉ keys → childVars v key = [] := fun key hkey hnot =>
    childVars_of_none (h.keys key (List.mem_cons_of_mem _ hkey) hnot)
  rw [collectLocalVars_eq, getStr_of_get h.nodeType, Option.getD_some,
    flatMap_of_sublist hkeys (by decide) hrest]

/-- A node with nothing but a list under one key. -/
theorem Solc.IsNode.collected_array {v : Value} {nodeType key : String} {vs : List Value}
    (h : IsNode v nodeType [key]) (hkey : List.Sublist [key] childKeys)
    (hstatement : nodeType ≠ "VariableDeclarationStatement") (hclause : nodeType ≠ "TryCatchClause")
    (hvs : v.get key = some (.array vs)) : collectLocalVars v = vs.flatMap collectLocalVars := by
  rw [h.collected hkey, if_neg hstatement, if_neg hclause, List.flatMap_singleton,
    childVars_of_array hvs, List.nil_append, List.append_nil]

/-- A node with nothing but one child. -/
theorem Solc.IsNode.collected_node {v w : Value} {nodeType key : String}
    (h : IsNode v nodeType [key]) (hkey : List.Sublist [key] childKeys)
    (hstatement : nodeType ≠ "VariableDeclarationStatement") (hclause : nodeType ≠ "TryCatchClause")
    (hw : v.get key = some w) (harray : w.asArray = none) :
    collectLocalVars v = collectLocalVars w := by
  rw [h.collected hkey, if_neg hstatement, if_neg hclause, List.flatMap_singleton,
    childVars_of_node hw harray, List.nil_append, List.append_nil]

theorem Solc.Statement.Encodes.exists_nodeType {s : Statement} {v : Value} (h : s.Encodes v) :
    ∃ nodeType, v.get "nodeType" = some (.string nodeType) ∧
      nodeType ≠ "FunctionDefinition" ∧ v.get "nodes" = none := by
  have hnode : ∀ {nodeType : String} {keys : List String}, IsNode v nodeType keys →
      nodeType ≠ "FunctionDefinition" → "nodes" ∉ keys →
        ∃ nodeType, v.get "nodeType" = some (.string nodeType) ∧
          nodeType ≠ "FunctionDefinition" ∧ v.get "nodes" = none :=
    fun h htype hkeys => ⟨_, h.nodeType, htype, h.keys _ List.mem_cons_self hkeys⟩
  cases s with
  | other =>
      obtain ⟨nodeType, h, htype⟩ := h
      exact hnode h (fun heq => htype (by simp [heq])) (by simp)
  | _ => exact hnode h.1 (by decide) (by decide)

theorem Solc.Statement.Encodes.not_array {s : Statement} {v : Value} (h : s.Encodes v) :
    v.asArray = none := by
  obtain ⟨nodeType, htype, -⟩ := h.exists_nodeType
  exact asArray_of_get htype

namespace Solc

mutual
/-- The variables of a statement in the order they are collected in: that of the keys, the
body of a loop before its header, and the parameters of a clause behind its block. -/
def Statement.visitOrder : Statement → List VarDecl
  | .block statements => visitOrderAll statements
  | .uncheckedBlock statements => visitOrderAll statements
  | .ifStatement trueBody falseBody => trueBody.visitOrder ++ visitOrderOpt falseBody
  | .forStatement init loop body => body.visitOrder ++ (visitOrderOpt init ++ visitOrderOpt loop)
  | .whileStatement body => body.visitOrder
  | .doWhileStatement body => body.visitOrder
  | .tryStatement clauses => visitOrderAll clauses
  | .tryCatchClause parameters block => block.visitOrder ++ named parameters
  | .variableDeclarationStatement src declarations =>
      (declarations.filterMap id).map (·.varDecl (some src))
  | .other => []

def visitOrderAll : List Statement → List VarDecl
  | [] => []
  | s :: rest => s.visitOrder ++ visitOrderAll rest

def visitOrderOpt : Option Statement → List VarDecl
  | none => []
  | some s => s.visitOrder
end

/-- Named return variables, and what is collected from the body. -/
def FunctionDefinition.visitOrder (self : FunctionDefinition) : List VarDecl :=
  named self.returnParameters ++ visitOrderOpt self.body

mutual
/-- In this order each declared variable is there once. -/
theorem Statement.visitOrder_perm : ∀ s : Statement, s.visitOrder.Perm s.declared
  | .block statements => by
      rw [Statement.visitOrder, Statement.declared]
      exact visitOrderAll_perm statements
  | .uncheckedBlock statements => by
      rw [Statement.visitOrder, Statement.declared]
      exact visitOrderAll_perm statements
  | .ifStatement trueBody falseBody => by
      rw [Statement.visitOrder, Statement.declared]
      exact trueBody.visitOrder_perm.append (visitOrderOpt_perm falseBody)
  | .forStatement init loop body => by
      rw [Statement.visitOrder, Statement.declared]
      exact (body.visitOrder_perm.append
        ((visitOrderOpt_perm init).append (visitOrderOpt_perm loop))).trans List.perm_append_comm
  | .whileStatement body => by
      rw [Statement.visitOrder, Statement.declared]
      exact body.visitOrder_perm
  | .doWhileStatement body => by
      rw [Statement.visitOrder, Statement.declared]
      exact body.visitOrder_perm
  | .tryStatement clauses => by
      rw [Statement.visitOrder, Statement.declared]
      exact visitOrderAll_perm clauses
  | .tryCatchClause parameters block => by
      rw [Statement.visitOrder, Statement.declared]
      exact (block.visitOrder_perm.append_right _).trans List.perm_append_comm
  | .variableDeclarationStatement src declarations => by
      rw [Statement.visitOrder, Statement.declared]
  | .other => by
      rw [Statement.visitOrder, Statement.declared]

theorem visitOrderAll_perm : ∀ statements : List Statement,
    (visitOrderAll statements).Perm (declaredAll statements)
  | [] => .nil
  | s :: rest => by
      rw [visitOrderAll, declaredAll]
      exact s.visitOrder_perm.append (visitOrderAll_perm rest)

theorem visitOrderOpt_perm : ∀ o : Option Statement,
    (visitOrderOpt o).Perm (declaredOpt o)
  | none => .nil
  | some s => by
      rw [visitOrderOpt, declaredOpt]
      exact s.visitOrder_perm
end

end Solc

/-- An optional child is collected as far as it is there. -/
theorem childVars_of_opt {v : Value} {key : String} {o : Option Statement}
    (h : encodesOpt o (v.get key))
    (hcollected : ∀ s ∈ o, ∀ w, s.Encodes w → collectLocalVars w = s.visitOrder) :
    childVars v key = visitOrderOpt o := by
  cases o with
  | none =>
      rcases h with hnone | hnull
      · rw [childVars_of_none hnone, visitOrderOpt]
      · rw [childVars_of_node hnull rfl, collectLocalVars_null, visitOrderOpt]
  | some s =>
      obtain ⟨w, hw, hs⟩ := h
      rw [childVars_of_node hw hs.not_array, visitOrderOpt]
      exact hcollected s rfl w hs

mutual
/-- The variables collected from a statement, in their order. The induction is on the
tree; each case says which keys its node has. -/
theorem Solc.Statement.collected : ∀ (s : Statement) (v : Value), s.Encodes v →
    collectLocalVars v = s.visitOrder
  | .block statements, v, ⟨hnode, vs, hvs, hall⟩ => by
      rw [hnode.collected_array (by decide) (by decide) (by decide) hvs, Statement.visitOrder]
      exact collectedAll statements vs hall
  | .uncheckedBlock statements, v, ⟨hnode, vs, hvs, hall⟩ => by
      rw [hnode.collected_array (by decide) (by decide) (by decide) hvs, Statement.visitOrder]
      exact collectedAll statements vs hall
  | .ifStatement trueBody falseBody, v, ⟨hnode, ⟨w, hw, htrue⟩, hfalse⟩ => by
      have hthen := trueBody.collected w htrue
      have helse := childVars_of_opt hfalse (collectedOpt falseBody)
      rw [hnode.collected (by decide)]
      simp [childVars_of_node hw htrue.not_array, Statement.visitOrder, hthen, helse]
  | .forStatement init loop body, v, ⟨hnode, hinit, hloop, w, hw, hbody⟩ => by
      have hinitVars := childVars_of_opt hinit (collectedOpt init)
      have hloopVars := childVars_of_opt hloop (collectedOpt loop)
      have hbodyVars := body.collected w hbody
      rw [hnode.collected (by decide)]
      simp [childVars_of_node hw hbody.not_array, Statement.visitOrder, hinitVars, hloopVars,
        hbodyVars]
  | .whileStatement body, v, ⟨hnode, w, hw, hbody⟩ => by
      rw [hnode.collected_node (by decide) (by decide) (by decide) hw hbody.not_array,
        Statement.visitOrder]
      exact body.collected w hbody
  | .doWhileStatement body, v, ⟨hnode, w, hw, hbody⟩ => by
      rw [hnode.collected_node (by decide) (by decide) (by decide) hw hbody.not_array,
        Statement.visitOrder]
      exact body.collected w hbody
  | .tryStatement clauses, v, ⟨hnode, vs, hvs, hall⟩ => by
      rw [hnode.collected_array (by decide) (by decide) (by decide) hvs, Statement.visitOrder]
      exact collectedAll clauses vs hall
  | .tryCatchClause parameters block, v, ⟨hnode, hparameters, w, hw, hblock⟩ => by
      have hvars := block.collected w hblock
      rw [hnode.collected (by decide)]
      simp [childVars_of_node hw hblock.not_array, namedParameters_of_encodes hparameters,
        Statement.visitOrder, hvars]
  | .variableDeclarationStatement src declarations, v, ⟨hnode, hsrc, vs, hvs, hall⟩ => by
      rw [hnode.collected (by decide), statementVars_of_encodes hsrc hvs hall]
      simp [Statement.visitOrder]
  | .other, v, ⟨nodeType, hnode, htype⟩ => by
      simp only [List.mem_cons, not_or] at htype
      rw [hnode.collected (by decide), if_neg htype.1, if_neg htype.2.1, Statement.visitOrder]
      rfl

theorem Solc.collectedAll : ∀ (statements : List Statement) (vs : List Value),
    encodesAll statements vs → vs.flatMap collectLocalVars = visitOrderAll statements
  | [], vs, h => by
      obtain rfl : vs = [] := h
      rfl
  | s :: rest, vs, h => by
      obtain ⟨v, vs', rfl, hs, hrest⟩ := h
      rw [List.flatMap_cons, s.collected v hs, collectedAll rest vs' hrest, visitOrderAll]

theorem Solc.collectedOpt : ∀ (o : Option Statement), ∀ s ∈ o, ∀ w, s.Encodes w →
    collectLocalVars w = s.visitOrder
  | none, _, h, _, _ => by cases h
  | some s, s', h, w, hs => by
      obtain rfl := Option.some.inj h
      exact s.collected w hs
end

/-! ## §3  Functions -/

/-- `fdef` is what is extracted for a function inside a contract. -/
structure Extracted (fdef : FunctionDef)
    (function : FunctionDefinition × Option (String × String)) : Prop where
  name : fdef.name = function.1.displayName
  src : fdef.src = function.1.src
  parameters : fdef.parameters = function.1.parameters.map (·.varDecl none)
  contractName : fdef.contractName = function.2.map (·.1)
  contractKind : fdef.contractKind = function.2.map (·.2)
  localVariables : fdef.localVariables.Perm function.1.locals

theorem functionName_of_encodes {function : FunctionDefinition} {v : Value}
    (h : function.Encodes v) : functionName v = function.displayName := by
  have hkind : v.getStr "kind" = function.kind := by
    rw [Value.getStr, h.kind]
    cases function.kind <;> rfl
  rw [functionName, hkind, getStr_of_get h.name, FunctionDefinition.displayName]
  split
  · next hconstructor => rw [hconstructor]; rfl
  · next hfallback => rw [hfallback]; rfl
  · next hreceive => rw [hreceive]; rfl
  · next hconstructor hfallback hreceive =>
      have hnot : function.kind ∉ [some "constructor", some "fallback", some "receive"] := by
        simp only [List.mem_cons, List.not_mem_nil, or_false]
        rintro (h | h | h)
        · exact hconstructor h
        · exact hfallback h
        · exact hreceive h
      rw [if_neg hnot, Option.getD_some]

/-- The function read from a node, with its variables in the order of the visitor. -/
theorem parseFunction_eq {function : FunctionDefinition} {v : Value} (h : function.Encodes v) :
    parseFunction v = some {
      name := function.displayName
      src := function.src
      parameters := function.parameters.map (·.varDecl none)
      localVariables := function.visitOrder } := by
  have hbody : ((v.get "body").map collectLocalVars).getD [] = visitOrderOpt function.body := by
    have hopt := h.body
    cases hcase : function.body with
    | none =>
        rw [hcase] at hopt
        rcases hopt with hnone | hnull
        · rw [hnone]
          rfl
        · rw [hnull, Option.map_some, Option.getD_some, collectLocalVars_null]
          rfl
    | some s =>
        rw [hcase] at hopt
        obtain ⟨w, hw, hs⟩ := hopt
        rw [hw]
        exact s.collected w hs
  simp only [parseFunction, getStr_of_get h.src, parse_printSrc, Option.bind_eq_bind,
    Option.bind_some, functionName_of_encodes h, parameters_of_encodes h.parameters,
    namedParameters_of_encodes h.returnParameters, hbody, FunctionDefinition.visitOrder]

theorem parseFunction_of_encodes {function : FunctionDefinition} {v : Value}
    (h : function.Encodes v) (contract : Option (String × String)) :
    ∃ fdef, parseFunction v = some fdef ∧
      Extracted { fdef with contractName := contract.map (·.1), contractKind := contract.map (·.2) }
        (function, contract) :=
  ⟨_, parseFunction_eq h, rfl, rfl, rfl, rfl, rfl,
    (visitOrderOpt_perm function.body).append_left (named function.returnParameters)⟩

/-! ## §4  Source units and contracts -/

theorem visitChildren_eq (node : Value) (contractName contractKind : Option String) :
    visitChildren node contractName contractKind =
      ((node.getArray "nodes").map fun nodes =>
        nodes.flatMap fun child => visitNode child contractName contractKind).getD [] ++
      ((node.get "body").map fun body => visitNode body contractName contractKind).getD [] ++
      ((node.getArray "statements").map fun stmts =>
        stmts.flatMap fun s => visitNode s contractName contractKind).getD [] := by
  have hattach : ∀ items : List Value,
      (items.attach.flatMap fun item => visitNode item.1 contractName contractKind) =
        items.flatMap fun item => visitNode item contractName contractKind := by
    intro items
    rw [List.flatMap_subtype (g := fun item => visitNode item contractName contractKind)
      fun _ _ => rfl, List.unattach_attach]
  rw [visitChildren]
  congr 1
  · congr 1
    · split
      · next nodes hnodes => rw [hnodes, hattach]; rfl
      · next hnodes => rw [hnodes]; rfl
    · split
      · next body hbody => rw [hbody]; rfl
      · next hbody => rw [hbody]; rfl
  · split
    · next stmts hstmts => rw [hstmts, hattach]; rfl
    · next hstmts => rw [hstmts]; rfl

/-- Any node but a function hands over to its children. -/
theorem visitNode_of_ne {v : Value} {nodeType : String}
    (htype : v.get "nodeType" = some (.string nodeType)) (hne : nodeType ≠ "FunctionDefinition")
    (contractName contractKind : Option String) :
    ∃ name kind, visitNode v contractName contractKind = visitChildren v name kind := by
  rw [visitNode, getStr_of_get htype]
  dsimp only
  split
  · exact ⟨_, _, rfl⟩
  · split
    · exact ⟨_, _, rfl⟩
    · exact ⟨_, _, rfl⟩

theorem visitNode_null (contractName contractKind : Option String) :
    visitNode .null contractName contractKind = [] := by
  rw [visitNode]
  rfl

/-- There is no function below a node whose only child, its body, holds none. -/
theorem visitNode_of_body {v : Value} {nodeType : String}
    (htype : v.get "nodeType" = some (.string nodeType)) (hne : nodeType ≠ "FunctionDefinition")
    (hnodes : v.get "nodes" = none) (hstmts : v.get "statements" = none)
    (hbody : ∀ w, v.get "body" = some w → ∀ name kind, visitNode w name kind = [])
    (name kind : Option String) : visitNode v name kind = [] := by
  obtain ⟨name', kind', hvisit⟩ := visitNode_of_ne htype hne name kind
  rw [hvisit, visitChildren_eq, getArray_of_none hnodes, getArray_of_none hstmts]
  cases hget : v.get "body" with
  | none => rfl
  | some w => simpa using hbody w hget name' kind'

/-- There is no function below a node whose only children are statements without one. -/
theorem visitNode_of_statements {v : Value} {nodeType : String} {vs : List Value}
    (htype : v.get "nodeType" = some (.string nodeType)) (hne : nodeType ≠ "FunctionDefinition")
    (hnodes : v.get "nodes" = none) (hbody : v.get "body" = none)
    (hvs : v.get "statements" = some (.array vs))
    (hvisit : ∀ name kind, (vs.flatMap fun w => visitNode w name kind) = [])
    (name kind : Option String) : visitNode v name kind = [] := by
  obtain ⟨name', kind', hchildren⟩ := visitNode_of_ne htype hne name kind
  rw [hchildren, visitChildren_eq, getArray_of_none hnodes, hbody, getArray_of_get hvs]
  exact hvisit name' kind'

/-- A statement without any child the visitor looks at. -/
theorem Solc.IsNode.visited_leaf {v : Value} {nodeType : String} {keys : List String}
    (h : IsNode v nodeType keys) (htype : nodeType ≠ "FunctionDefinition")
    (hkeys : ∀ key ∈ ["nodes", "body", "statements"], key ∉ keys) :
    ∀ name kind, visitNode v name kind = [] := by
  have hlooked : ["nodes", "body", "statements"] ⊆ "nodes" :: childKeys := by decide
  have hnone : ∀ key ∈ ["nodes", "body", "statements"], v.get key = none := fun key hkey =>
    h.keys key (hlooked hkey) (hkeys key hkey)
  refine visitNode_of_body h.nodeType htype (hnone _ (by decide)) (hnone _ (by decide)) ?_
  intro w hw
  rw [hnone _ (by decide)] at hw
  cases hw

/-- A statement with a body that holds no function. -/
theorem Solc.IsNode.visited_body {v w : Value} {nodeType : String} {keys : List String}
    (h : IsNode v nodeType keys) (htype : nodeType ≠ "FunctionDefinition")
    (hkeys : ∀ key ∈ ["nodes", "statements"], key ∉ keys) (hw : v.get "body" = some w)
    (hvisit : ∀ name kind, visitNode w name kind = []) :
    ∀ name kind, visitNode v name kind = [] := by
  have hlooked : ["nodes", "statements"] ⊆ "nodes" :: childKeys := by decide
  have hnone : ∀ key ∈ ["nodes", "statements"], v.get key = none := fun key hkey =>
    h.keys key (hlooked hkey) (hkeys key hkey)
  refine visitNode_of_body h.nodeType htype (hnone _ (by decide)) (hnone _ (by decide)) ?_
  intro w' hw'
  obtain rfl := Option.some.inj (hw.symm.trans hw')
  exact hvisit

/-- A list of statements, none of which holds a function. -/
theorem Solc.IsNode.visited_statements {v : Value} {nodeType : String} {vs : List Value}
    (h : IsNode v nodeType ["statements"]) (htype : nodeType ≠ "FunctionDefinition")
    (hvs : v.get "statements" = some (.array vs))
    (hvisit : ∀ name kind, (vs.flatMap fun w => visitNode w name kind) = []) :
    ∀ name kind, visitNode v name kind = [] :=
  visitNode_of_statements h.nodeType htype (h.keys _ (by decide) (by decide))
    (h.keys _ (by decide) (by decide)) hvs hvisit

mutual
/-- A statement holds no function. -/
theorem Solc.Statement.visited : ∀ (s : Statement) (v : Value), s.Encodes v →
    ∀ name kind, visitNode v name kind = []
  | .block statements, v, ⟨hnode, vs, hvs, hall⟩ =>
      hnode.visited_statements (by decide) hvs (visitedAll statements vs hall)
  | .uncheckedBlock statements, v, ⟨hnode, vs, hvs, hall⟩ =>
      hnode.visited_statements (by decide) hvs (visitedAll statements vs hall)
  | .ifStatement trueBody falseBody, v, ⟨hnode, _, _⟩ =>
      hnode.visited_leaf (by decide) (by decide)
  | .forStatement init loop body, v, ⟨hnode, _, _, w, hw, hbody⟩ =>
      hnode.visited_body (by decide) (by decide) hw (body.visited w hbody)
  | .whileStatement body, v, ⟨hnode, w, hw, hbody⟩ =>
      hnode.visited_body (by decide) (by decide) hw (body.visited w hbody)
  | .doWhileStatement body, v, ⟨hnode, w, hw, hbody⟩ =>
      hnode.visited_body (by decide) (by decide) hw (body.visited w hbody)
  | .tryStatement clauses, v, ⟨hnode, _⟩ =>
      hnode.visited_leaf (by decide) (by decide)
  | .tryCatchClause parameters block, v, ⟨hnode, _⟩ =>
      hnode.visited_leaf (by decide) (by decide)
  | .variableDeclarationStatement src declarations, v, ⟨hnode, _⟩ =>
      hnode.visited_leaf (by decide) (by decide)
  | .other, v, ⟨nodeType, hnode, htype⟩ => by
      have hfunction : nodeType ≠ "FunctionDefinition" := by
        rintro rfl
        exact htype (by decide)
      exact hnode.visited_leaf hfunction (by decide)

theorem Solc.visitedAll : ∀ (statements : List Statement) (vs : List Value),
    encodesAll statements vs → ∀ name kind, (vs.flatMap fun v => visitNode v name kind) = []
  | [], vs, h, name, kind => by
      obtain rfl : vs = [] := h
      rfl
  | s :: rest, vs, h, name, kind => by
      obtain ⟨v, vs', rfl, hs, hrest⟩ := h
      rw [List.flatMap_cons, s.visited v hs name kind, List.nil_append]
      exact visitedAll rest vs' hrest name kind
end

/-- An optional body holds no function. -/
theorem visited_of_opt {o : Option Statement} {child : Option Value} (h : encodesOpt o child) :
    ∀ w, child = some w → ∀ name kind, visitNode w name kind = [] := by
  rintro w rfl name kind
  cases o with
  | none =>
      rcases h with hnone | hnull
      · cases hnone
      · cases hnull
        exact visitNode_null name kind
  | some s =>
      obtain ⟨w', hw', hs⟩ := h
      cases hw'
      exact s.visited w hs name kind

/-- Where only items stand, the visitor goes through them. -/
theorem visitChildren_of_nodes {v : Value} {vs : List Value}
    (hvs : v.get "nodes" = some (.array vs)) (hbody : v.get "body" = none)
    (hstmts : v.get "statements" = none) (name kind : Option String) :
    visitChildren v name kind = vs.flatMap fun child => visitNode child name kind := by
  rw [visitChildren_eq, getArray_of_get hvs, getArray_of_none hstmts, hbody]
  simp only [Option.map_some, Option.map_none, Option.getD_some, Option.getD_none, List.append_nil]

mutual
/-- The functions pushed for an item are its functions, in their order. -/
theorem Solc.Item.extracted : ∀ (item : Item) (v : Value) (contract : Option (String × String)),
    item.Encodes v → List.Forall₂ Extracted
      (visitNode v (contract.map (·.1)) (contract.map (·.2))) (item.functions contract)
  | .functionDefinition function, v, contract, h => by
      obtain ⟨fdef, hparse, hextracted⟩ := parseFunction_of_encodes h contract
      rw [visitNode, getStr_of_get h.nodeType, hparse]
      exact .cons hextracted .nil
  | .contractDefinition name kind nodes, v, contract,
      ⟨htype, hname, hkind, hbody, hstmts, vs, hvs, hall⟩ => by
      rw [visitNode, getStr_of_get htype, getStr_of_get hname, getStr_of_get hkind, Item.functions]
      change List.Forall₂ Extracted (visitChildren v (some name) (some kind)) _
      rw [visitChildren_of_nodes hvs hbody hstmts]
      exact allExtracted nodes vs (some (name, kind)) hall
  | .modifierDefinition body, v, contract, ⟨htype, hnodes, hstmts, hbody⟩ => by
      rw [visitNode_of_body htype (by decide) hnodes hstmts (visited_of_opt hbody), Item.functions]
      exact .nil
  | .other, v, contract, ⟨nodeType, htype, hne, hnodes, hbody, hstmts⟩ => by
      have hnothing : ∀ w, v.get "body" = some w → ∀ name kind, visitNode w name kind = [] :=
        fun w hw => absurd (hbody.symm.trans hw) (Option.some_ne_none w).symm
      rw [visitNode_of_body htype hne hnodes hstmts hnothing, Item.functions]
      exact .nil

theorem Solc.allExtracted : ∀ (items : List Item) (vs : List Value)
    (contract : Option (String × String)), itemsEncode items vs → List.Forall₂ Extracted
      (vs.flatMap fun v => visitNode v (contract.map (·.1)) (contract.map (·.2)))
      (allFunctions contract items)
  | [], vs, contract, h => by
      obtain rfl : vs = [] := h
      exact .nil
  | item :: rest, vs, contract, h => by
      obtain ⟨v, vs', rfl, hitem, hrest⟩ := h
      rw [List.flatMap_cons, allFunctions]
      exact List.rel_append (item.extracted v contract hitem) (allExtracted rest vs' contract hrest)
end

theorem Solc.SourceUnit.Encodes.extracted {unit : SourceUnit} {v : Value} (h : unit.Encodes v) :
    List.Forall₂ Extracted (visitNode v none none) unit.functions := by
  obtain ⟨vs, hvs, hall⟩ := h.nodes
  rw [visitNode, getStr_of_get h.nodeType]
  change List.Forall₂ Extracted (visitChildren v none none) _
  rw [visitChildren_of_nodes hvs h.leaf.1 h.leaf.2]
  exact allExtracted unit.nodes vs none hall

/-! ## §5  The whole output -/

theorem fromRoot_extracted {units : List SourceUnit} {root : Value} (h : EncodesOutput units root) :
    List.Forall₂ Extracted (fromRoot root).functions (units.flatMap (·.functions)) := by
  cases h with
  | @combined _ _ sources hbare hsources hunits =>
      rw [fromRoot, hsources, hbare]
      clear hsources
      simp only [Option.bind_some, Value.asObject, Option.getD_some, Option.isSome_none,
        Bool.false_eq_true, if_false, List.append_nil]
      induction hunits with
      | nil => exact .nil
      | @cons unit source units sources hunit _ ih =>
          obtain ⟨astNode, hast, hencodes⟩ := hunit
          rw [List.flatMap_cons, List.flatMap_cons, hast, Option.map_some, Option.getD_some]
          exact List.rel_append hencodes.extracted ih
  | bare hsources hunit =>
      rw [fromRoot, hsources, hunit.nodeType]
      simpa using hunit.extracted

/-- Extraction is complete and free of duplicates: for the output `root` that solc prints
for `units`, one definition for each function, in order, tagged with the innermost contract, its
local variables those the function declares, each once. -/
theorem extraction_complete {ε : Type} (fromStr : String → Except ε Value) {json : String}
    {root : Value} {units : List SourceUnit} (hparse : fromStr json = .ok root)
    (hroot : EncodesOutput units root) :
    ∃ ast, fromCombinedJson fromStr json = .ok ast ∧
      List.Forall₂ Extracted ast.functions (units.flatMap (·.functions)) := by
  refine ⟨fromRoot root, ?_, fromRoot_extracted hroot⟩
  rw [fromCombinedJson, hparse]
  rfl

/-- A contract whose function tries a call; its result is a tuple of which one
component is kept, and the last clause has no parameters. -/
def probeText : String :=
  "\x7b\"nodeType\":\"SourceUnit\",\"nodes\":[\x7b\"nodeType\":\"ContractDefinition\"," ++
  "\"name\":\"Probe\",\"contractKind\":\"contract\",\"nodes\":[\x7b" ++
  "\"nodeType\":\"FunctionDefinition\",\"name\":\"read\",\"kind\":\"function\"," ++
  "\"src\":\"20:160:0\",\"parameters\":\x7b\"parameters\":[]\x7d,\"returnParameters\":" ++
  "\x7b\"parameters\":[\x7b\"name\":\"price\",\"src\":\"52:13:0\"," ++
  "\"typeName\":\x7b\"name\":\"uint256\"\x7d\x7d]\x7d,\"body\":\x7b\"nodeType\":\"Block\"," ++
  "\"statements\":[\x7b\"nodeType\":\"TryStatement\",\"clauses\":[" ++
  "\x7b\"nodeType\":\"TryCatchClause\",\"parameters\":\x7b\"parameters\":[\x7b" ++
  "\"name\":\"value\",\"src\":\"96:13:0\",\"typeName\":\x7b\"name\":\"uint256\"\x7d\x7d]\x7d," ++
  "\"block\":\x7b\"nodeType\":\"Block\",\"statements\":[\x7b" ++
  "\"nodeType\":\"VariableDeclarationStatement\",\"src\":\"113:30:0\",\"declarations\":[null," ++
  "\x7b\"name\":\"age\",\"src\":\"116:11:0\",\"typeName\":\x7b\"name\":\"uint256\"\x7d\x7d]" ++
  "\x7d]\x7d\x7d,\x7b\"nodeType\":\"TryCatchClause\",\"parameters\":null," ++
  "\"block\":\x7b\"nodeType\":\"Block\",\"statements\":[]\x7d\x7d]\x7d]\x7d\x7d]\x7d]\x7d"

def declarationJson (name src : String) : Value :=
  .object [("name", .string name), ("src", .string src),
    ("typeName", .object [("name", .string "uint256")])]

def clauseJson (parameters : Value) (statements : List Value) : Value :=
  .object [("nodeType", .string "TryCatchClause"), ("parameters", parameters),
    ("block", .object [("nodeType", .string "Block"), ("statements", .array statements)])]

def probeClauses : List Value :=
  [clauseJson (.object [("parameters", .array [declarationJson "value" "96:13:0"])])
    [.object [("nodeType", .string "VariableDeclarationStatement"), ("src", .string "113:30:0"),
      ("declarations", .array [.null, declarationJson "age" "116:11:0"])]],
   clauseJson .null []]

def probeRead : Value :=
  .object [("nodeType", .string "FunctionDefinition"), ("name", .string "read"),
    ("kind", .string "function"), ("src", .string "20:160:0"),
    ("parameters", .object [("parameters", .array [])]),
    ("returnParameters", .object [("parameters", .array [declarationJson "price" "52:13:0"])]),
    ("body", .object [("nodeType", .string "Block"), ("statements", .array
      [.object [("nodeType", .string "TryStatement"), ("clauses", .array probeClauses)]])])]

def probeRoot : Value :=
  .object [("nodeType", .string "SourceUnit"), ("nodes", .array
    [.object [("nodeType", .string "ContractDefinition"), ("name", .string "Probe"),
      ("contractKind", .string "contract"), ("nodes", .array [probeRead])]])]

def uintDeclaration (name : String) (offset length : Int32) : Declaration where
  name := name
  typeName := "uint256"
  src := { offset, length, fileIndex := 0 }

def probeUnit : SourceUnit where
  nodes := [.contractDefinition "Probe" "contract" [.functionDefinition
    { name := "read"
      kind := some "function"
      src := { offset := 20, length := 160, fileIndex := 0 }
      parameters := []
      returnParameters := [uintDeclaration "price" 52 13]
      body := some (.block [.tryStatement
        [.tryCatchClause [uintDeclaration "value" 96 13]
          (.block [.variableDeclarationStatement { offset := 113, length := 30, fileIndex := 0 }
            [none, some (uintDeclaration "age" 116 11)]]),
         .tryCatchClause [] (.block [])]]) }]]

theorem isNode_of_isNone {v : Value} {nodeType : String} {keys : List String}
    (htype : v.get "nodeType" = some (.string nodeType))
    (hkeys : ∀ key ∈ "nodes" :: childKeys, key ∉ keys → (v.get key).isNone = true) :
    IsNode v nodeType keys :=
  ⟨htype, fun key hkey hnot => Option.isNone_iff_eq_none.mp (hkeys key hkey hnot)⟩

theorem declarationJson_encodes {name src : String} {offset length : Int32}
    (hsrc : printSrc { offset, length, fileIndex := 0 } = src) :
    (uintDeclaration name offset length).Encodes (declarationJson name src) := by
  subst hsrc
  exact ⟨rfl, rfl, rfl⟩

theorem clauseJson_encodes {parameters : List Declaration} {list : Value}
    {statements : List Statement} {vs : List Value}
    (hparameters : encodesParameters parameters (clauseJson list vs) "parameters")
    (hstatements : encodesAll statements vs) :
    (Statement.tryCatchClause parameters (.block statements)).Encodes (clauseJson list vs) := by
  refine ⟨isNode_of_isNone rfl ?_, hparameters, _, rfl, isNode_of_isNone rfl ?_, vs, rfl, hstatements⟩
  · simp [childKeys, clauseJson, Value.get, List.lookup_cons]
  · simp [childKeys, Value.get, List.lookup_cons]

theorem probeClauses_encode :
    encodesAll [.tryCatchClause [uintDeclaration "value" 96 13]
      (.block [.variableDeclarationStatement { offset := 113, length := 30, fileIndex := 0 }
        [none, some (uintDeclaration "age" 116 11)]]),
      .tryCatchClause [] (.block [])] probeClauses := by
  have hage : (uintDeclaration "age" 116 11).Encodes (declarationJson "age" "116:11:0") :=
    declarationJson_encodes (by decide)
  have hvalue : (uintDeclaration "value" 96 13).Encodes (declarationJson "value" "96:13:0") :=
    declarationJson_encodes (by decide)
  refine ⟨_, _, rfl, clauseJson_encodes (.inl ⟨_, _, rfl, rfl, .cons hvalue .nil⟩) ?_, _, _, rfl,
    clauseJson_encodes (.inr ⟨rfl, .inr rfl⟩) rfl, rfl⟩
  refine ⟨_, _, rfl, ⟨isNode_of_isNone rfl (by decide), ?_, _, rfl, ?_⟩, rfl⟩
  · exact congrArg (fun s => some (Value.string s)) (by decide)
  · exact .cons rfl (.cons hage .nil)

theorem probeRoot_encodes : EncodesOutput [probeUnit] probeRoot := by
  have hprice : (uintDeclaration "price" 52 13).Encodes (declarationJson "price" "52:13:0") :=
    declarationJson_encodes (by decide)
  refine .bare rfl ⟨rfl, ⟨_, rfl, _, _, rfl, ?_, rfl⟩, rfl, rfl⟩
  refine ⟨rfl, rfl, rfl, rfl, rfl, _, rfl, _, _, rfl, ?_, rfl⟩
  refine ⟨rfl, rfl, rfl, ?_, .inl ⟨_, _, rfl, rfl, .nil⟩,
    .inl ⟨_, _, rfl, rfl, .cons hprice .nil⟩, _, rfl, ?_⟩
  · exact congrArg (fun s => some (Value.string s)) (by decide)
  · refine ⟨isNode_of_isNone rfl (by decide), _, rfl, _, _, rfl, ?_, rfl⟩
    exact ⟨isNode_of_isNone rfl (by decide), _, rfl, probeClauses_encode⟩

theorem extraction_complete_probe :
    ∃ ast, fromCombinedJson (fun text => if text = probeText then Except.ok probeRoot
        else .error "expected value") probeText = .ok ast ∧
      List.Forall₂ Extracted ast.functions ([probeUnit].flatMap (·.functions)) :=
  extraction_complete _ (if_pos rfl) probeRoot_encodes

/-! ### Blocks nested deeply -/

/-- `{ { .. } }`, with `n` blocks inside the outer one. -/
def nestedBlock : Nat → Statement
  | 0 => .block []
  | n + 1 => .block [nestedBlock n]

def nestedBlockJson : Nat → Value
  | 0 => .object [("nodeType", .string "Block"), ("statements", .array [])]
  | n + 1 => .object [("nodeType", .string "Block"), ("statements", .array [nestedBlockJson n])]

def nestedBlockText : Nat → String
  | 0 => "\x7b\"nodeType\":\"Block\",\"statements\":[]\x7d"
  | n + 1 => "\x7b\"nodeType\":\"Block\",\"statements\":[" ++ nestedBlockText n ++ "]\x7d"

/-- The free function `f` with such a body. -/
def nestedUnit (n : Nat) : SourceUnit where
  nodes := [.functionDefinition
    { name := "f"
      kind := some "freeFunction"
      src := { offset := 0, length := 400, fileIndex := 0 }
      parameters := []
      returnParameters := []
      body := some (nestedBlock n) }]

def nestedRoot (n : Nat) : Value :=
  .object [("nodeType", .string "SourceUnit"), ("nodes", .array
    [.object [("nodeType", .string "FunctionDefinition"), ("name", .string "f"),
      ("kind", .string "freeFunction"), ("src", .string "0:400:0"),
      ("parameters", .object [("parameters", .array [])]),
      ("returnParameters", .object [("parameters", .array [])]),
      ("body", nestedBlockJson n)]])]

def nestedText (n : Nat) : String :=
  "\x7b\"nodeType\":\"SourceUnit\",\"nodes\":[\x7b\"nodeType\":\"FunctionDefinition\"," ++
  "\"name\":\"f\",\"kind\":\"freeFunction\",\"src\":\"0:400:0\"," ++
  "\"parameters\":\x7b\"parameters\":[]\x7d,\"returnParameters\":\x7b\"parameters\":[]\x7d," ++
  "\"body\":" ++ nestedBlockText n ++ "\x7d]\x7d"

theorem nestedBlock_encodes (n : Nat) : (nestedBlock n).Encodes (nestedBlockJson n) := by
  induction n with
  | zero => exact ⟨isNode_of_isNone rfl (by decide), [], rfl, rfl⟩
  | succ n ih =>
      refine ⟨isNode_of_isNone rfl ?_, _, rfl, _, _, rfl, ih, rfl⟩
      simp [childKeys, nestedBlockJson, Value.get, List.lookup_cons]

theorem nestedRoot_encodes (n : Nat) : EncodesOutput [nestedUnit n] (nestedRoot n) := by
  have hsrc : "0:400:0" = printSrc { offset := 0, length := 400, fileIndex := 0 } := by decide
  refine .bare rfl ⟨rfl, ⟨_, rfl, _, _, rfl, ?_, rfl⟩, rfl, rfl⟩
  exact ⟨rfl, rfl, rfl, congrArg (fun s => some (Value.string s)) hsrc,
    .inl ⟨_, _, rfl, rfl, .nil⟩, .inl ⟨_, _, rfl, rfl, .nil⟩, _, rfl, nestedBlock_encodes n⟩

/-- Each block is an object and an array. -/
theorem nesting_nestedBlockJson (n : Nat) : (nestedBlockJson n).nesting = 2 * n + 2 := by
  induction n with
  | zero => decide
  | succ n ih =>
      simp only [nestedBlockJson, Value.nesting, Value.nestingFields, Value.nestingField,
        Value.nestingItems, ih]
      omega

theorem nesting_nestedRoot (n : Nat) : (nestedRoot n).nesting = 2 * n + 5 := by
  simp only [nestedRoot, Value.nesting, Value.nestingFields, Value.nestingField,
    Value.nestingItems, nesting_nestedBlockJson]
  omega

/-- With 62 blocks inside the outer one the text is solc's and is not read. -/
theorem nestedText_refused :
    EncodesOutput [nestedUnit 62] (nestedRoot 62) ∧
    fromCombinedJson (fromStrWithin fun text =>
        if text = nestedText 62 then some (nestedRoot 62) else none) (nestedText 62) =
      .error "recursion limit exceeded" := by
  refine ⟨nestedRoot_encodes 62, ?_⟩
  have hdeep : ¬ (nestedRoot 62).nesting < 128 := by
    rw [nesting_nestedRoot]
    decide
  rw [fromCombinedJson, fromStrWithin, if_pos rfl]
  dsimp only
  rw [if_neg hdeep]
  rfl

end EvmRecorder
