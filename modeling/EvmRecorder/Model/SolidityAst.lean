import EvmRecorder.Library.Numeral

/-!
# The Solidity AST as the recorder uses it

Function definitions with their parameters and local variables, the source
ranges they cover, and the lookups the recorder makes: the function at an
offset, the variables in scope there, and a function's display name.
-/

namespace EvmRecorder

/-! ## §1  Source ranges -/

structure SourceRange where
  offset : Int32
  length : Int32
  fileIndex : Int32
deriving DecidableEq, Repr

/-- `offset + length` is an `i32` addition, which wraps in a release build. -/
def SourceRange.containsOffset (self : SourceRange) (offset : Int32) : Bool :=
  self.offset ≤ offset && offset < self.offset + self.length

/-! ## §2  Variables -/

inductive VarStorageKind where
  | stack
  | memory
deriving DecidableEq, Repr

/-- Unicode White_Space, the characters `str::trim` removes. -/
def isWhiteSpace (c : Char) : Bool :=
  let n := c.toNat
  (0x09 ≤ n && n ≤ 0x0d) || n = 0x20 || n = 0x85 || n = 0xa0 || n = 0x1680 ||
    (0x2000 ≤ n && n ≤ 0x200a) || n = 0x2028 || n = 0x2029 || n = 0x202f || n = 0x205f ||
    n = 0x3000

def trim (cs : List Char) : List Char :=
  ((cs.dropWhile isWhiteSpace).reverse.dropWhile isWhiteSpace).reverse

/-- `str::contains` with a string pattern. -/
def containsText (t pattern : List Char) : Bool := decide (pattern <:+: t)

def classifyTypeName (typeName : String) : VarStorageKind :=
  let t := trim typeName.toList
  if t.isEmpty then .stack
  else if containsText t " memory".toList then .memory
  else if containsText t " storage".toList || containsText t " calldata".toList then .stack
  else if "struct ".toList.isPrefixOf t || "mapping".toList.isPrefixOf t ||
      t = "bytes".toList || t = "string".toList || "[]".toList.isSuffixOf t ||
      (t.contains '[' && "]".toList.isSuffixOf t) then .memory
  else .stack

structure VarDecl where
  name : String
  typeName : String
  src : SourceRange
  declarationOffset : Int32
  statementRange : Option SourceRange := none
deriving DecidableEq, Repr

def VarDecl.storageKind (self : VarDecl) : VarStorageKind := classifyTypeName self.typeName

def VarDecl.isMemoryResident (self : VarDecl) : Bool := self.storageKind = .memory

/-- The statement range, when known, contains `offset`. -/
def VarDecl.statementContains (self : VarDecl) (offset : Int32) : Bool :=
  self.statementRange.any (·.containsOffset offset)

/-! ## §3  Functions -/

structure FunctionDef where
  name : String
  src : SourceRange
  parameters : List VarDecl := []
  localVariables : List VarDecl := []
  contractName : Option String := none
  contractKind : Option String := none
deriving DecidableEq, Repr

/-- Parameters, then the locals declared at or before `offset`. -/
def FunctionDef.varsInScopeAt (self : FunctionDef) (offset : Int32) : List VarDecl :=
  self.parameters ++ self.localVariables.filter fun lv => lv.declarationOffset ≤ offset

structure SolidityAst where
  functions : List FunctionDef
deriving DecidableEq, Repr

namespace SolidityAst

/-- The function with the smallest range around `offset`, the first such
(`min_by_key`). -/
def functionAt (self : SolidityAst) (offset fileIndex : Int32) : Option FunctionDef :=
  (self.functions.filter fun f =>
    f.src.fileIndex = fileIndex && f.src.containsOffset offset).minOn? fun f => f.src.length.toInt

/-- Library functions are qualified by their parent; other members only when a
member of another contract has the same bare name. The pointer comparison of the
source is implied: `func` itself has parent `parent`. -/
def qualifiedFunctionName (self : SolidityAst) (func : FunctionDef) : String :=
  match func.contractName with
  | some parent =>
      if func.contractKind = some "library" then parent ++ "." ++ func.name
      else if self.functions.any fun other =>
          other.name = func.name && other.contractName ≠ some parent &&
            other.contractName.isSome then
        parent ++ "." ++ func.name
      else func.name
  | none => func.name

end SolidityAst

end EvmRecorder
