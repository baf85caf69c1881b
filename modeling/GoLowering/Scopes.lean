import GoLowering.Constant.Basic
import GoLowering.Types.Basic

/-!
# Scopes

Nested scopes of a unit. Every scope knows its parent, which is older than it is; the current
scope can be set to any scope made before.
-/

namespace GoLowering

inductive ScopeKind where
  | package | function | block
  /-- The header and body of a `for` loop. -/
  | loop
  /-- The header and body of a range or a for-phrase. -/
  | range
  | switchCase | selectCase | typeSwitchCase
  | closure
  /-- The body of an iteration by callback, which loop control does not reach out of. -/
  | callback
  deriving DecidableEq, Repr

namespace ScopeKind

def name : ScopeKind → String
  | package => "package" | function => "function" | block => "block" | loop => "loop"
  | range => "range" | switchCase => "switch" | selectCase => "select"
  | typeSwitchCase => "typeswitch" | closure => "closure" | callback => "callback"

def all : List ScopeKind :=
  [package, function, block, loop, range, switchCase, selectCase, typeSwitchCase, closure,
    callback]

def ofName? (text : String) : Option ScopeKind := all.find? (·.name == text)

end ScopeKind

inductive Symbol where
  | variable (type : TypeId)
  | constant (type : TypeId) (value : Option Constant)
  | typeName (type : TypeId)
  deriving Inhabited

namespace Symbol

/-- The word for what a name stands for. -/
def word : Symbol → String
  | .variable _ => "var" | .constant _ _ => "const" | .typeName _ => "type"

def type : Symbol → TypeId
  | .variable type | .constant type _ | .typeName type => type

def value? : Symbol → Option Constant
  | .constant _ value => value
  | _ => none

end Symbol

structure ScopeId where
  index : Nat
  deriving DecidableEq, Repr, Inhabited

structure Scope where
  parent : Option ScopeId
  kind : ScopeKind
  symbols : List (String × Symbol)

/-- Where a `break` or `continue` goes. -/
inductive BranchTarget where
  | statement
  | callback
  | none
  deriving DecidableEq, Repr

def BranchTarget.name : BranchTarget → String
  | statement => "statement" | callback => "callback" | none => "none"

structure Scopes where
  scopes : Array Scope
  current : ScopeId

namespace Scopes

/-- The scope of the package, which is the first one. -/
def package : ScopeId := ⟨0⟩

def initial : Scopes := ⟨#[⟨none, .package, []⟩], package⟩

instance : Inhabited Scopes := ⟨initial⟩

def get? (s : Scopes) (id : ScopeId) : Option Scope := s.scopes[id.index]?

/-- Opens a scope inside the current one. -/
def push (s : Scopes) (kind : ScopeKind) : Scopes :=
  ⟨s.scopes.push ⟨some s.current, kind, []⟩, ⟨s.scopes.size⟩⟩

/-- Returns to the parent of the current scope; the package has none and stays. -/
def pop (s : Scopes) : Scopes :=
  match (s.get? s.current).bind (·.parent) with
  | some parent => { s with current := parent }
  | none => s

def setCurrent (s : Scopes) (id : ScopeId) : Scopes := { s with current := id }

/-- The symbols bound in the current scope itself. -/
def locals (s : Scopes) : List (String × Symbol) :=
  ((s.get? s.current).map (·.symbols)).getD []

/-- Binds a name in the current scope, or answers what the name is bound to there. The blank
name is never bound. -/
def define (s : Scopes) (name : String) (symbol : Symbol) : Except Symbol Scopes :=
  if name == "_" then .ok s
  else
    match s.locals.lookup name with
    | some taken => .error taken
    | none =>
      .ok { s with
        scopes := s.scopes.modify s.current.index (fun scope =>
          { scope with symbols := scope.symbols ++ [(name, symbol)] }) }

/-- At most `steps` scopes, from one outwards. -/
def chainWithin (s : Scopes) : Nat → ScopeId → List Scope
  | 0, _ => []
  | steps + 1, id =>
    match s.get? id with
    | none => []
    | some scope =>
      scope ::
        match scope.parent with
        | some parent => chainWithin s steps parent
        | none => []

/-- The scopes from the current one out to the package. -/
def chain (s : Scopes) : List Scope := s.chainWithin (s.current.index + 1) s.current

/-- The nearest binding of a name. -/
def lookup? (s : Scopes) (name : String) : Option Symbol :=
  s.chain.findSome? (·.symbols.lookup name)

def isLocal (s : Scopes) (name : String) : Bool :=
  s.locals.any (·.1 == name)

/-- What a kind of scope says about loop control, if it decides that. -/
def target? (isContinue : Bool) : ScopeKind → Option BranchTarget
  | .loop | .range => some .statement
  | .switchCase | .selectCase | .typeSwitchCase =>
    if isContinue then Option.none else some .statement
  | .callback => some .callback
  | .function | .closure | .package => some .none
  | .block => Option.none

/-- Where a `break` or `continue` in the current scope goes. -/
def branchTarget (s : Scopes) (isContinue : Bool) : BranchTarget :=
  (s.chain.findSome? (fun scope => target? isContinue scope.kind)).getD .none

end Scopes

end GoLowering
