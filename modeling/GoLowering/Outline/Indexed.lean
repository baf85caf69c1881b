import GoLowering.Keyed
import GoLowering.Outline

/-!
# Operations of an outline

The operations of an outline as data, so that histories of an outline can be spoken about, and the
declarations once more with an index beside them: where a name has been taken, the index says at
which place among all declarations.
-/

namespace GoLowering

/-- An operation of an outline. -/
inductive OutlineRequest (κ α : Type) where
  | declare (d : Declaration)
  | reserve (kind : DeclKind) (key : κ)
  | fill (kind : DeclKind) (key : κ) (value : α)
  | setEntry (d : Declaration) (value : α)

/-- The groups of the output. -/
inductive OutputGroup where
  | types | values | functions
  deriving DecidableEq, Repr

def DeclKind.group : DeclKind → OutputGroup
  | .type => .types
  | .const | .var => .values
  | .func | .method | .entry => .functions

namespace Outline

variable {κ α : Type}

def places (o : Outline κ α) : OutputGroup → Places κ α
  | .types => o.types
  | .values => o.constants
  | .functions => o.functions

variable [DecidableEq κ]

/-- A declaration that is in conflict with another one leaves the outline as it is. -/
def perform (o : Outline κ α) : OutlineRequest κ α → Outline κ α
  | .declare d =>
    match o.declare d with
    | .ok o' => o'
    | .error _ => o
  | .reserve kind key => o.reserve kind key
  | .fill kind key value => o.fill kind key value
  | .setEntry d value => o.setEntry d value

def performAll (o : Outline κ α) (requests : List (OutlineRequest κ α)) : Outline κ α :=
  requests.foldl perform o

end Outline

/-- All declarations, and the places of those whose name no other one may have. -/
structure IndexedDeclarations where
  declared : List Declaration
  index : Keyed (Option String × String) Nat

namespace IndexedDeclarations

def empty : IndexedDeclarations := ⟨[], []⟩

def lookup? (s : IndexedDeclarations) (receiver : Option String) (name : String) :
    Option Declaration :=
  (s.index.lookup (receiver, name)).map (s.declared.getD · default)

def declare (s : IndexedDeclarations) (d : Declaration) :
    Except Declaration IndexedDeclarations :=
  if d.isRepeatable then .ok { s with declared := s.declared ++ [d] }
  else
    match s.lookup? d.receiver d.name with
    | some taken => .error taken
    | none => .ok ⟨s.declared ++ [d], s.index.set (d.receiver, d.name) s.declared.length⟩

def perform {κ α : Type} (s : IndexedDeclarations) : OutlineRequest κ α → IndexedDeclarations
  | .declare d =>
    match s.declare d with
    | .ok s' => s'
    | .error _ => s
  | .setEntry d _ => { s with declared := s.declared ++ [d] }
  | .reserve .. | .fill .. => s

def performAll {κ α : Type} (s : IndexedDeclarations) (requests : List (OutlineRequest κ α)) :
    IndexedDeclarations :=
  requests.foldl perform s

end IndexedDeclarations

end GoLowering
