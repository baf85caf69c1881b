import GoLowering.Lowering.TypeExpressions

/-!
# Uses of names

A bare name is looked for in the scopes, then among the declarations of the unit, its imports
and the environment. A name that is found nowhere falls back to the same name exported. A value
of the package that a name stands for is lowered first.
-/

namespace GoLowering.Lowering

open Surface

/-- A type where an expression stands. -/
def typeOperand (type : TypeId) (span : Span) : Lower Operand := do
  let id ← place (.typeExpression type) span
  return { Operand.value id type span with mode := .type }

/-- A name that is kept as it is. -/
def namedOperand (name : String) (type : TypeId) (span : Span) : Lower Operand := do
  return .value (← place (.identifier name) span) type span

def symbolOperand (name : String) (symbol : Symbol) (span : Span) : Lower Operand := do
  match symbol with
  | .typeName type => typeOperand type span
  | .variable type => namedOperand name type span
  | .constant type value =>
    return { ← namedOperand name type span with constant := value }

/-- The node of a name: with its package, if there is one. -/
def memberNode (package : Option String) (name : String) (span : Span) : Lower HostId :=
  place (match package with
    | some path => .qualified path name
    | none => .identifier name) span

/-- What the environment says about a name, which is a member of a package or bare. -/
def resolvedOperand (resolution : Resolution) (package : Option String) (name : String)
    (span : Span) : Lower Operand := do
  match resolution with
  | .value spelled hostName type =>
    return .value (← memberNode (spelled.or package) hostName span) type span
  | .const value type =>
    return .ofConstant (← memberNode package name span) type (some value) span
  | .nil => return { ← namedOperand "nil" TypeTable.untypedNil span with mode := .nil }
  | .type type => typeOperand type span
  | .package path =>
    return { ← namedOperand name TypeTable.invalid span with mode := .package path }
  | .builtin function =>
    return { ← namedOperand function.name TypeTable.invalid span with mode := .builtin function }

/-- A name declared at the top level of the unit. A value whose declaration has failed has an
invalid type. -/
def globalOperand (walk : Walk) (global : Global) (name : String) (span : Span) :
    Lower Operand := do
  match global with
  | .value root =>
    walk.value root name span
    match (← get).scopes.lookup? name with
    | some symbol => symbolOperand name symbol span
    | none => namedOperand name TypeTable.invalid span
  | .func _ type => namedOperand name (type.getD TypeTable.invalid) span
  | .type .. => typeOperand (← typeOfName walk name span) span

/-- A name that no scope binds. -/
def unboundOperand? (walk : Walk) (name : String) (span : Span) : Lower (Option Operand) := do
  match (← get).globals.lookup name with
  | some global => return some (← globalOperand walk global name span)
  | none =>
    match (← get).imports.lookup name with
    | some path =>
      return some { ← namedOperand name TypeTable.invalid span with mode := .package path }
    | none =>
      match (← read).env.resolve? name with
      | some resolution => return some (← resolvedOperand resolution none name span)
      | none => return none

def nameOperand? (walk : Walk) (name : String) (span : Span) : Lower (Option Operand) := do
  match (← get).scopes.lookup? name with
  | some symbol => return some (← symbolOperand name symbol span)
  | none => unboundOperand? walk name span

def lowerIdentifier (walk : Walk) (name : String) (span : Span) : Lower Operand := do
  if name == Names.blank then
    fail (.notAValue name) span
  else
    match ← nameOperand? walk name span with
    | some operand => return operand
    | none =>
      let exported := Names.capitalize name
      let fallback ← if Names.isExported name || exported == name then pure none
        else nameOperand? walk exported span
      match fallback with
      | some operand => return operand
      | none => fail (.undeclaredName name) span

end GoLowering.Lowering
