import EvmRecorder.Model.SolidityJson

/-!
# solc's AST

The AST as solc prints it: source units with contracts and free functions, whose
bodies are statements nested to any depth. A JSON value stands for such a tree
when the fields the visitors look at are as solc writes them; all other fields
are free.
-/

namespace EvmRecorder

open Numeral SolidityAst

/-! ## §1  The tree -/

namespace Solc

/-- A `VariableDeclaration`. -/
structure Declaration where
  name : String
  typeName : String
  src : SourceRange

/-- Statements, and the clauses of a `TryStatement`. -/
inductive Statement where
  | block (statements : List Statement)
  | uncheckedBlock (statements : List Statement)
  | ifStatement (trueBody : Statement) (falseBody : Option Statement)
  | forStatement (init loop : Option Statement) (body : Statement)
  | whileStatement (body : Statement)
  | doWhileStatement (body : Statement)
  | tryStatement (clauses : List Statement)
  | tryCatchClause (parameters : List Declaration) (block : Statement)
  | variableDeclarationStatement (src : SourceRange) (declarations : List (Option Declaration))
  /-- A statement without inner statements. -/
  | other

structure FunctionDefinition where
  name : String
  kind : Option String
  src : SourceRange
  parameters : List Declaration
  returnParameters : List Declaration
  body : Option Statement

/-- What stands in a source unit or a contract. -/
inductive Item where
  | functionDefinition (function : FunctionDefinition)
  | contractDefinition (name kind : String) (nodes : List Item)
  | modifierDefinition (body : Option Statement)
  /-- An item without statements. -/
  | other

structure SourceUnit where
  nodes : List Item

/-! ## §2  Functions and their variables -/

def Declaration.varDecl (self : Declaration) (statementRange : Option SourceRange) : VarDecl where
  name := self.name
  typeName := self.typeName
  src := self.src
  declarationOffset := self.src.offset
  statementRange := statementRange

def named (parameters : List Declaration) : List VarDecl :=
  (parameters.filter fun d => !d.name.isEmpty).map (·.varDecl none)

mutual
/-- The variables a statement declares, at any depth. -/
def Statement.declared : Statement → List VarDecl
  | .block statements => declaredAll statements
  | .uncheckedBlock statements => declaredAll statements
  | .ifStatement trueBody falseBody => trueBody.declared ++ declaredOpt falseBody
  | .forStatement init loop body => declaredOpt init ++ declaredOpt loop ++ body.declared
  | .whileStatement body => body.declared
  | .doWhileStatement body => body.declared
  | .tryStatement clauses => declaredAll clauses
  | .tryCatchClause parameters block => named parameters ++ block.declared
  | .variableDeclarationStatement src declarations =>
      (declarations.filterMap id).map (·.varDecl (some src))
  | .other => []

def declaredAll : List Statement → List VarDecl
  | [] => []
  | s :: rest => s.declared ++ declaredAll rest

def declaredOpt : Option Statement → List VarDecl
  | none => []
  | some s => s.declared
end

/-- Named return variables, and what the body declares. -/
def FunctionDefinition.locals (self : FunctionDefinition) : List VarDecl :=
  named self.returnParameters ++ declaredOpt self.body

/-- Constructors, fallback and receive functions go by their kind. -/
def FunctionDefinition.displayName (self : FunctionDefinition) : String :=
  if self.kind ∈ [some "constructor", some "fallback", some "receive"] then self.kind.getD ""
  else self.name

mutual
/-- The functions of an item, each with name and kind of the innermost contract
around it. -/
def Item.functions (contract : Option (String × String)) :
    Item → List (FunctionDefinition × Option (String × String))
  | .functionDefinition function => [(function, contract)]
  | .contractDefinition name kind nodes => allFunctions (some (name, kind)) nodes
  | .modifierDefinition _ => []
  | .other => []

def allFunctions (contract : Option (String × String)) :
    List Item → List (FunctionDefinition × Option (String × String))
  | [] => []
  | item :: rest => item.functions contract ++ allFunctions contract rest
end

def SourceUnit.functions (self : SourceUnit) :
    List (FunctionDefinition × Option (String × String)) :=
  allFunctions none self.nodes

/-! ## §3  The JSON of a tree -/

def printSrc (src : SourceRange) : String :=
  String.ofList ([':'].intercalate
    [printI32 src.offset, printI32 src.length, printI32 src.fileIndex])

/-- The node declares `d`, under solc's keys. Its type stands under several keys;
`declaredTypeName` reads them. -/
structure Declaration.Encodes (d : Declaration) (v : Value) : Prop where
  name : v.get "name" = some (.string d.name)
  src : v.get "src" = some (.string (printSrc d.src))
  typeName : declaredTypeName v = d.typeName

/-- A slot of a declaration list: a node, or `null` in a tuple. -/
def encodesSlot : Option Declaration → Value → Prop
  | some d, v => d.Encodes v
  | none, v => v = .null

/-- The parameter list under `key`; an empty one may be left out. -/
def encodesParameters (parameters : List Declaration) (v : Value) (key : String) : Prop :=
  (∃ list nodes, v.get key = some list ∧ list.get "parameters" = some (.array nodes) ∧
    List.Forall₂ Declaration.Encodes parameters nodes) ∨
  parameters = [] ∧ (v.get key = none ∨ v.get key = some .null)

/-- A node of this type; of the keys the visitors look up it has `keys` only. -/
structure IsNode (v : Value) (nodeType : String) (keys : List String) : Prop where
  nodeType : v.get "nodeType" = some (.string nodeType)
  keys : ∀ key ∈ "nodes" :: childKeys, key ∉ keys → v.get key = none

mutual
def Statement.Encodes : Statement → Value → Prop
  | .block statements, v => IsNode v "Block" ["statements"] ∧
      ∃ vs, v.get "statements" = some (.array vs) ∧ encodesAll statements vs
  | .uncheckedBlock statements, v => IsNode v "UncheckedBlock" ["statements"] ∧
      ∃ vs, v.get "statements" = some (.array vs) ∧ encodesAll statements vs
  | .ifStatement trueBody falseBody, v => IsNode v "IfStatement" ["trueBody", "falseBody"] ∧
      (∃ w, v.get "trueBody" = some w ∧ trueBody.Encodes w) ∧
      encodesOpt falseBody (v.get "falseBody")
  | .forStatement init loop body, v =>
      IsNode v "ForStatement" ["body", "initializationExpression", "loopExpression"] ∧
      encodesOpt init (v.get "initializationExpression") ∧
      encodesOpt loop (v.get "loopExpression") ∧
      ∃ w, v.get "body" = some w ∧ body.Encodes w
  | .whileStatement body, v => IsNode v "WhileStatement" ["body"] ∧
      ∃ w, v.get "body" = some w ∧ body.Encodes w
  | .doWhileStatement body, v => IsNode v "DoWhileStatement" ["body"] ∧
      ∃ w, v.get "body" = some w ∧ body.Encodes w
  | .tryStatement clauses, v => IsNode v "TryStatement" ["clauses"] ∧
      ∃ vs, v.get "clauses" = some (.array vs) ∧ encodesAll clauses vs
  | .tryCatchClause parameters block, v => IsNode v "TryCatchClause" ["block"] ∧
      encodesParameters parameters v "parameters" ∧
      ∃ w, v.get "block" = some w ∧ block.Encodes w
  | .variableDeclarationStatement src declarations, v =>
      IsNode v "VariableDeclarationStatement" [] ∧
      v.get "src" = some (.string (printSrc src)) ∧
      ∃ vs, v.get "declarations" = some (.array vs) ∧ List.Forall₂ encodesSlot declarations vs
  | .other, v => ∃ nodeType, IsNode v nodeType [] ∧
      nodeType ∉ ["VariableDeclarationStatement", "TryCatchClause", "FunctionDefinition"]

def encodesAll : List Statement → List Value → Prop
  | [], vs => vs = []
  | s :: rest, vs => ∃ v vs', vs = v :: vs' ∧ s.Encodes v ∧ encodesAll rest vs'

/-- An optional child is left out or `null`. -/
def encodesOpt : Option Statement → Option Value → Prop
  | none, o => o = none ∨ o = some .null
  | some s, o => ∃ w, o = some w ∧ s.Encodes w
end

structure FunctionDefinition.Encodes (function : FunctionDefinition) (v : Value) : Prop where
  nodeType : v.get "nodeType" = some (.string "FunctionDefinition")
  name : v.get "name" = some (.string function.name)
  kind : v.get "kind" = function.kind.map .string
  src : v.get "src" = some (.string (printSrc function.src))
  parameters : encodesParameters function.parameters v "parameters"
  returnParameters : encodesParameters function.returnParameters v "returnParameters"
  body : encodesOpt function.body (v.get "body")

mutual
def Item.Encodes : Item → Value → Prop
  | .functionDefinition function, v => function.Encodes v
  | .contractDefinition name kind nodes, v =>
      v.get "nodeType" = some (.string "ContractDefinition") ∧
      v.get "name" = some (.string name) ∧ v.get "contractKind" = some (.string kind) ∧
      v.get "body" = none ∧ v.get "statements" = none ∧
      ∃ vs, v.get "nodes" = some (.array vs) ∧ itemsEncode nodes vs
  | .modifierDefinition body, v =>
      v.get "nodeType" = some (.string "ModifierDefinition") ∧ v.get "nodes" = none ∧
      v.get "statements" = none ∧ encodesOpt body (v.get "body")
  | .other, v => ∃ nodeType, v.get "nodeType" = some (.string nodeType) ∧
      nodeType ≠ "FunctionDefinition" ∧ v.get "nodes" = none ∧ v.get "body" = none ∧
      v.get "statements" = none

def itemsEncode : List Item → List Value → Prop
  | [], vs => vs = []
  | item :: rest, vs => ∃ v vs', vs = v :: vs' ∧ item.Encodes v ∧ itemsEncode rest vs'
end

structure SourceUnit.Encodes (unit : SourceUnit) (v : Value) : Prop where
  nodeType : v.get "nodeType" = some (.string "SourceUnit")
  nodes : ∃ vs, v.get "nodes" = some (.array vs) ∧ itemsEncode unit.nodes vs
  leaf : v.get "body" = none ∧ v.get "statements" = none

/-- The output of `solc --combined-json ast`, or the AST of a single source unit. -/
inductive EncodesOutput : List SourceUnit → Value → Prop
  | combined {units : List SourceUnit} {root : Value} {sources : List (String × Value)}
      (hbare : root.get "nodeType" = none) (hsources : root.get "sources" = some (.object sources))
      (hunits : List.Forall₂ (fun (unit : SourceUnit) (source : String × Value) =>
        ∃ astNode, source.2.get "AST" = some astNode ∧ unit.Encodes astNode) units sources) :
      EncodesOutput units root
  | bare {unit : SourceUnit} {root : Value} (hsources : root.get "sources" = none)
      (hunit : unit.Encodes root) : EncodesOutput [unit] root

end Solc

end EvmRecorder
