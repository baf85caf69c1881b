import GoLowering.Source.Basic

/-!
# Outline of a unit

The declarations of a unit in the order they are written, and the places of the output that
they fill. A place is kept when its declaration is first met, so declarations come out by
first appearance however late they are filled.
-/

namespace GoLowering

inductive DeclKind where
  | type | const | var | func | method
  /-- The function made of the statements that stand outside of any function. -/
  | entry
  deriving DecidableEq, Repr, Inhabited

namespace DeclKind

/-- Types come before values, values before functions, and the entry last. -/
def rank : DeclKind → Nat
  | .type => 0
  | .const | .var => 1
  | .func | .method => 2
  | .entry => 3

def name : DeclKind → String
  | .type => "type" | .const => "const" | .var => "var" | .func => "func"
  | .method => "method" | .entry => "entry"

def ofName? (text : String) : Option DeclKind :=
  [type, const, var, func, method, entry].find? (·.name == text)

end DeclKind

structure Declaration where
  name : String
  kind : DeclKind
  /-- The receiver type of a method as it is written. -/
  receiver : Option String
  span : Span
  synthesized : Bool
  deriving DecidableEq, Repr, Inhabited

namespace Declaration

def plain (name : String) (kind : DeclKind) (span : Span) : Declaration :=
  ⟨name, kind, none, span, false⟩

def method (receiver name : String) (span : Span) : Declaration :=
  ⟨name, .method, some receiver, span, false⟩

/-- Blank names and `init` functions may be declared any number of times. -/
def isRepeatable (d : Declaration) : Bool :=
  d.name == "_" || (d.kind == .func && d.name == "init")

/-- Whether a declaration has this name for this receiver. -/
def isNamed (receiver : Option String) (name : String) (d : Declaration) : Bool :=
  d.receiver == receiver && d.name == name

end Declaration

/-- Places in the order they were kept, each with what has been filled in. -/
abbrev Places (κ α : Type) := List (κ × List α)

namespace Places

variable {κ α : Type} [DecidableEq κ]

/-- Adds the values to the place of a key, which is kept at the end when it is new. -/
def fill (places : Places κ α) (key : κ) (values : List α) : Places κ α :=
  match places with
  | [] => [(key, values)]
  | (k, vs) :: rest =>
    if k = key then (k, vs ++ values) :: rest else (k, vs) :: fill rest key values

def values (places : Places κ α) : List α := places.flatMap (·.2)

end Places

/-- The outline of a unit whose declarations are known by `κ` and come out as `α`. -/
structure Outline (κ α : Type) where
  declared : List Declaration
  /-- The declarations whose name no other one may have. -/
  taken : List Declaration
  types : Places κ α
  constants : Places κ α
  functions : Places κ α
  entryStatements : List κ
  entry : Option α

namespace Outline

variable {κ α : Type} [DecidableEq κ]

def empty : Outline κ α := ⟨[], [], [], [], [], [], none⟩

instance : Inhabited (Outline κ α) := ⟨empty⟩

/-- The declaration that has taken a name for a receiver. -/
def lookup? (o : Outline κ α) (receiver : Option String) (name : String) :
    Option Declaration :=
  o.taken.find? (Declaration.isNamed receiver name)

/-- Adds a declaration, or answers the one it conflicts with. -/
def declare (o : Outline κ α) (d : Declaration) : Except Declaration (Outline κ α) :=
  if d.isRepeatable then .ok { o with declared := o.declared ++ [d] }
  else
    match o.lookup? d.receiver d.name with
    | some taken => .error taken
    | none => .ok { o with declared := o.declared ++ [d], taken := o.taken ++ [d] }

/-- Adds output to the place of a declaration, which is kept when it is new. -/
def fillAll (o : Outline κ α) (kind : DeclKind) (key : κ) (values : List α) :
    Outline κ α :=
  match kind with
  | .type => { o with types := o.types.fill key values }
  | .const | .var => { o with constants := o.constants.fill key values }
  | .func | .method | .entry => { o with functions := o.functions.fill key values }

def reserve (o : Outline κ α) (kind : DeclKind) (key : κ) : Outline κ α :=
  o.fillAll kind key []

def fill (o : Outline κ α) (kind : DeclKind) (key : κ) (value : α) : Outline κ α :=
  o.fillAll kind key [value]

def pushEntryStatement (o : Outline κ α) (key : κ) : Outline κ α :=
  { o with entryStatements := o.entryStatements ++ [key] }

/-- Adds the entry function, whose name is not looked at. -/
def setEntry (o : Outline κ α) (d : Declaration) (value : α) : Outline κ α :=
  { o with declared := o.declared ++ [d], entry := some value }

/-- The declarations in the order of the output. -/
def declarations (o : Outline κ α) : List Declaration :=
  o.declared.mergeSort (fun a b => a.kind.rank ≤ b.kind.rank)

def typeOutput (o : Outline κ α) : List α := o.types.values

def constantOutput (o : Outline κ α) : List α := o.constants.values

/-- Functions by first appearance, the entry at the end. -/
def functionOutput (o : Outline κ α) : List α := o.functions.values ++ o.entry.toList

end Outline

end GoLowering
