import EvmRecorder.Library.Bytes
import EvmRecorder.Library.Numeral
import EvmRecorder.Model.CallTree

/-!
# The inspector

`CodeTracerInspector`: the hooks that revm calls while it executes a
transaction, and the execution data collected by them. What revm hands to a hook
is a record of the values the hook reads; the table of opcode names is revm's.
-/

namespace EvmRecorder.Inspector

/-! ## §1  What the hooks are given -/

/-- The interpreter's state before an instruction. -/
structure Interpreter where
  pc : Nat
  opcode : UInt8
  stack : List U256
  memorySize : Nat
deriving DecidableEq, Repr

inductive CallScheme where
  | call
  | callCode
  | delegateCall
  | staticCall
deriving DecidableEq, Repr

/-- `transferValue` is `None` where no value is transferred. -/
structure CallInputs where
  scheme : CallScheme
  caller : Address
  targetAddress : Address
  transferValue : Option U256
  gasLimit : Nat
deriving DecidableEq, Repr

inductive CreateScheme where
  | create
  | create2
  | custom
deriving DecidableEq, Repr

structure CreateInputs where
  scheme : CreateScheme
  caller : Address
  value : U256
  gasLimit : Nat
deriving DecidableEq, Repr

/-! ## §2  What is collected -/

structure StepData where
  pc : Nat
  opcode : UInt8
  opcodeName : String
  depth : Nat
  stack : List U256
  memorySize : Nat
deriving DecidableEq, Repr

inductive CallKind where
  | call
  | callCode
  | delegateCall
  | staticCall
  | create
  | create2
deriving DecidableEq, Repr

structure CallData where
  kind : CallKind
  caller : Address
  target : Address
  value : U256
  gasLimit : Nat
deriving DecidableEq, Repr

structure LogData where
  address : Address
  topics : List U256
  data : List UInt8
deriving DecidableEq, Repr

/-- `selfdestructs` holds contract, beneficiary and value. -/
structure ExecutionData where
  steps : List StepData := []
  calls : List CallData := []
  logs : List LogData := []
  selfdestructs : List (Address × Address × U256) := []
deriving DecidableEq, Repr

structure CodeTracerInspector where
  data : ExecutionData := {}
  currentDepth : Nat := 0
deriving DecidableEq, Repr

/-! ## §3  The hooks -/

def upperHexDigit (n : Nat) : Char :=
  Char.ofNat (if n < 10 then 0x30 + n else 0x41 + (n - 10))

/-- `opCodeName` is revm's name for an assigned opcode. -/
def opcodeName (opCodeName : UInt8 → Option String) (opcode : UInt8) : String :=
  (opCodeName opcode).getD
    ("UNKNOWN_0x" ++ String.ofList
      [upperHexDigit (opcode.toNat / 16), upperHexDigit (opcode.toNat % 16)])

def CallInputs.data (inputs : CallInputs) : CallData where
  kind := match inputs.scheme with
    | .call => .call
    | .delegateCall => .delegateCall
    | .staticCall => .staticCall
    | .callCode => .callCode
  caller := inputs.caller
  target := inputs.targetAddress
  value := inputs.transferValue.getD 0
  gasLimit := inputs.gasLimit

/-- The created address is not known yet: the target is the zero address. -/
def CreateInputs.data (inputs : CreateInputs) : CallData where
  kind := match inputs.scheme with
    | .create => .create
    | .create2 => .create2
    | .custom => .create
  caller := inputs.caller
  target := 0
  value := inputs.value
  gasLimit := inputs.gasLimit

inductive Hook where
  | step (interp : Interpreter)
  | call (inputs : CallInputs)
  | callEnd
  | create (inputs : CreateInputs)
  | createEnd
  | log (log : LogData)
  | selfdestruct (contract target : Address) (value : U256)
deriving DecidableEq, Repr

namespace CodeTracerInspector

variable (opCodeName : UInt8 → Option String)

def step (self : CodeTracerInspector) (interp : Interpreter) : CodeTracerInspector :=
  { self with
    data := { self.data with
      steps := self.data.steps ++
        [{ pc := interp.pc
           opcode := interp.opcode
           opcodeName := opcodeName opCodeName interp.opcode
           depth := self.currentDepth
           stack := interp.stack
           memorySize := interp.memorySize }] } }

/-- `call` and `create`: one frame deeper. -/
def enter (self : CodeTracerInspector) (call : CallData) : CodeTracerInspector where
  data := { self.data with calls := self.data.calls ++ [call] }
  currentDepth := self.currentDepth + 1

/-- `call_end` and `create_end`: one frame less deep, but never below zero. -/
def leave (self : CodeTracerInspector) : CodeTracerInspector :=
  if 0 < self.currentDepth then { self with currentDepth := self.currentDepth - 1 } else self

def onHook (self : CodeTracerInspector) : Hook → CodeTracerInspector
  | .step interp => self.step opCodeName interp
  | .call inputs => self.enter inputs.data
  | .callEnd => self.leave
  | .create inputs => self.enter inputs.data
  | .createEnd => self.leave
  | .log log => { self with data := { self.data with logs := self.data.logs ++ [log] } }
  | .selfdestruct contract target value =>
      { self with
        data := { self.data with
          selfdestructs := self.data.selfdestructs ++ [(contract, target, value)] } }

/-- The hooks of an execution one after another. -/
def inspect (self : CodeTracerInspector) (hooks : List Hook) : CodeTracerInspector :=
  hooks.foldl (onHook opCodeName) self

end CodeTracerInspector

end EvmRecorder.Inspector
