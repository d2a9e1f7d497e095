import EvmRecorder.Model.SolidityAst

/-!
# Reading the AST from solc's output

`SolidityAst::from_combined_json`: two visitors over parsed JSON. One looks for
function definitions in source units and contracts, the other for the variables
a function body declares. Both look up children by key and skip what they cannot
read.
-/

namespace EvmRecorder

open Numeral

/-! ## §1  JSON values -/

/-- `serde_json::Value`; the fields of an object in the order of its map. -/
inductive Value where
  | null
  | bool (b : Bool)
  | number (text : String)
  | string (s : String)
  | array (items : List Value)
  | object (fields : List (String × Value))

namespace Value

def get (self : Value) (key : String) : Option Value :=
  match self with
  | .object fields => fields.lookup key
  | _ => none

def asStr : Value → Option String
  | .string s => some s
  | _ => none

def asArray : Value → Option (List Value)
  | .array items => some items
  | _ => none

def asObject : Value → Option (List (String × Value))
  | .object fields => some fields
  | _ => none

def isNull : Value → Bool
  | .null => true
  | _ => false

/-- `self.get(key).and_then(|v| v.as_str())`. -/
def getStr (self : Value) (key : String) : Option String := (self.get key).bind asStr

/-- `self.get(key).and_then(|v| v.as_array())`. -/
def getArray (self : Value) (key : String) : Option (List Value) := (self.get key).bind asArray

mutual
/-- How deep arrays and objects are nested. -/
def nesting : Value → Nat
  | .array items => nestingItems items + 1
  | .object fields => nestingFields fields + 1
  | _ => 0

def nestingItems : List Value → Nat
  | [] => 0
  | item :: rest => max item.nesting (nestingItems rest)

def nestingFields : List (String × Value) → Nat
  | [] => 0
  | field :: rest => max (nestingField field) (nestingFields rest)

def nestingField : String × Value → Nat
  | (_, v) => v.nesting
end

theorem sizeOf_lookup_lt {key : String} {child : Value} :
    ∀ {fields : List (String × Value)}, fields.lookup key = some child →
      sizeOf child < sizeOf fields
  | (k, v) :: fields, h => by
      rw [List.lookup_cons] at h
      cases hk : key == k with
      | true =>
          rw [hk] at h
          cases h
          simp only [List.cons.sizeOf_spec, Prod.mk.sizeOf_spec]
          omega
      | false =>
          rw [hk] at h
          have hlt := sizeOf_lookup_lt h
          simp only [List.cons.sizeOf_spec]
          omega

/-- A child is smaller than its node. -/
theorem sizeOf_get_lt {self child : Value} {key : String} (h : self.get key = some child) :
    sizeOf child < sizeOf self := by
  cases self with
  | object fields =>
      have hlt := sizeOf_lookup_lt h
      simp only [Value.object.sizeOf_spec]
      omega
  | _ => cases h

theorem sizeOf_mem_lt {items : List Value} {item : Value} (h : item ∈ items) :
    sizeOf item < sizeOf (Value.array items) := by
  have hlt := List.sizeOf_lt_of_mem h
  simp only [Value.array.sizeOf_spec]
  omega

theorem sizeOf_getArray_lt {self item : Value} {key : String} {items : List Value}
    (h : self.getArray key = some items) (hitem : item ∈ items) : sizeOf item < sizeOf self := by
  obtain ⟨child, hchild, harray⟩ := Option.bind_eq_some_iff.mp h
  cases child with
  | array items' =>
      cases harray
      exact (sizeOf_mem_lt hitem).trans (sizeOf_get_lt hchild)
  | _ => cases harray

end Value

/-! ## §2  Ranges and declarations -/

/-- The fields of `s:l:f`; `splitn(4, ':')` leaves the first three as they are. -/
def SourceRange.parse (src : String) : Option SourceRange := do
  let parts := src.toList.splitOn ':'
  let offset ← parts[0]?.bind parseI32
  let length ← parts[1]?.bind parseI32
  let fileIndex := (parts[2]?.bind parseI32).getD 0
  some { offset, length, fileIndex }

namespace SolidityAst

/-- Elementary type names have a `name`, user-defined ones a `pathNode`; other
types are described by their `typeString`. -/
def declaredTypeName (node : Value) : String :=
  (((node.get "typeName").bind fun tn =>
    (tn.getStr "name").orElse fun _ =>
      ((tn.get "pathNode").bind (·.getStr "name")).orElse fun _ => tn.getStr "name").orElse fun _ =>
    (node.get "typeDescriptions").bind (·.getStr "typeString")).getD "uint256"

def parseVarDeclNode (node : Value) : Option VarDecl := do
  let name ← node.getStr "name"
  let srcStr ← node.getStr "src"
  let src ← SourceRange.parse srcStr
  some { name, typeName := declaredTypeName node, src, declarationOffset := src.offset }

/-- The nodes of the parameter list under `key`. -/
def parameterNodes (node : Value) (key : String) : Option (List Value) :=
  (node.get key).bind (·.getArray "parameters")

/-- The named declarations of a parameter list. -/
def namedParameters (node : Value) (key : String) : List VarDecl :=
  ((parameterNodes node key).map fun nodes =>
    (nodes.filterMap parseVarDeclNode).filter fun v => !v.name.isEmpty).getD []

/-! ## §3  Local variables -/

/-- Keys under which a statement may hold variable declarations. -/
def childKeys : List String :=
  ["statements", "body", "trueBody", "falseBody", "initializationExpression", "loopExpression",
    "clauses", "block"]

/-- The declarations of a `VariableDeclarationStatement`, with its range. -/
def statementVars (node : Value) : List VarDecl :=
  let stmtRange := (node.getStr "src").bind SourceRange.parse
  ((node.getArray "declarations").map fun decls => decls.filterMap fun decl =>
    if decl.isNull then none
    else (parseVarDeclNode decl).map fun v => { v with statementRange := stmtRange }).getD []

/-- `attach` records that an item is in its array, for termination. -/
def collectLocalVars (node : Value) : List VarDecl :=
  let nodeType := (node.getStr "nodeType").getD ""
  (if nodeType = "VariableDeclarationStatement" then statementVars node else []) ++
    (childKeys.flatMap fun key =>
      match _h : node.get key with
      | some (.array items) => items.attach.flatMap fun item => collectLocalVars item.1
      | some child => collectLocalVars child
      | none => []) ++
    (if nodeType = "TryCatchClause" then namedParameters node "parameters" else [])
termination_by sizeOf node
decreasing_by
  · exact (Value.sizeOf_mem_lt item.2).trans (Value.sizeOf_get_lt _h)
  · exact Value.sizeOf_get_lt _h

/-! ## §4  Functions -/

def functionName (node : Value) : String :=
  match node.getStr "kind" with
  | some "constructor" => "constructor"
  | some "fallback" => "fallback"
  | some "receive" => "receive"
  | _ => (node.getStr "name").getD "<unknown>"

def parseFunction (node : Value) : Option FunctionDef := do
  let srcStr ← node.getStr "src"
  let src ← SourceRange.parse srcStr
  some {
    name := functionName node
    src
    parameters :=
      ((parameterNodes node "parameters").map (·.filterMap parseVarDeclNode)).getD []
    localVariables :=
      namedParameters node "returnParameters" ++ ((node.get "body").map collectLocalVars).getD [] }

mutual
/-- The functions pushed for a node. -/
def visitNode (node : Value) (contractName contractKind : Option String) : List FunctionDef :=
  match node.getStr "nodeType" with
  | none => []
  | some nodeType =>
      if nodeType = "SourceUnit" then visitChildren node contractName contractKind
      else if nodeType = "ContractDefinition" then
        let kind := (node.getStr "contractKind").orElse fun _ => contractKind
        let name := (node.getStr "name").orElse fun _ => contractName
        visitChildren node name kind
      else if nodeType = "FunctionDefinition" then
        (parseFunction node).toList.map fun fdef => { fdef with contractName, contractKind }
      else visitChildren node contractName contractKind
termination_by (sizeOf node, 1)

def visitChildren (node : Value) (contractName contractKind : Option String) :
    List FunctionDef :=
  (match _h : node.getArray "nodes" with
    | some nodes => nodes.attach.flatMap fun child => visitNode child.1 contractName contractKind
    | none => []) ++
  (match _h : node.get "body" with
    | some body => visitNode body contractName contractKind
    | none => []) ++
  (match _h : node.getArray "statements" with
    | some stmts => stmts.attach.flatMap fun s => visitNode s.1 contractName contractKind
    | none => [])
termination_by (sizeOf node, 0)
decreasing_by
  · exact Prod.Lex.left _ _ (Value.sizeOf_getArray_lt _h child.2)
  · exact Prod.Lex.left _ _ (Value.sizeOf_get_lt _h)
  · exact Prod.Lex.left _ _ (Value.sizeOf_getArray_lt _h s.2)
end

/-- `from_combined_json` of a parsed text: all sources, then a bare AST node. -/
def fromRoot (root : Value) : SolidityAst where
  functions :=
    (((root.get "sources").bind Value.asObject).getD []).flatMap (fun source =>
      ((source.2.get "AST").map fun astNode => visitNode astNode none none).getD []) ++
    if (root.get "nodeType").isSome then visitNode root none none else []

/-- `serde_json::from_str` with its default recursion limit, for the values `parse` that texts
stand for. -/
def fromStrWithin (parse : String → Option Value) (json : String) : Except String Value :=
  match parse json with
  | none => .error "expected value"
  | some root => if root.nesting < 128 then .ok root else .error "recursion limit exceeded"

/-- `fromStr` is the JSON parser. -/
def fromCombinedJson {ε : Type} (fromStr : String → Except ε Value) (json : String) :
    Except ε SolidityAst := do
  let root ← fromStr json
  pure (fromRoot root)

end SolidityAst

end EvmRecorder
