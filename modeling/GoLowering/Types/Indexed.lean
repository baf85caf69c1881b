import GoLowering.Keyed
import GoLowering.Types.Spelling

/-!
# Type tables with look-up tables

The operations of a type table as data, so that histories of a table can be spoken about, and a
table that never searches its entries: beside them it keeps the basic types by their kinds, the
structural types by themselves, and the named types by package and name. A definition is filled
in behind the look-up tables, which are not touched by it.
-/

namespace GoLowering

/-- An operation of a type table. -/
inductive TypeRequest where
  | pointer (target : TypeId)
  | slice (element : TypeId)
  | array (element : TypeId) (length : Nat)
  | map (key value : TypeId)
  | chan (element : TypeId) (dir : ChanDir)
  | func (params results : List TypeId) (variadic : Bool)
  | struct (fields : List Field)
  | interface (methods : List InterfaceMethod)
  | tuple (elements : List TypeId)
  | declareNamed (package : Option String) (name : String)
  | define (named definition : TypeId)
  deriving DecidableEq, Repr

namespace TypeRequest

/-- The types that an operation is applied to. -/
def operands : TypeRequest → List TypeId
  | pointer id | slice id | array id _ | chan id _ => [id]
  | map key value => [key, value]
  | func params results _ => params ++ results
  | struct fields => fields.map (·.type)
  | interface methods => methods.map (·.sig)
  | tuple elements => elements
  | declareNamed _ _ => []
  | define named definition => [named, definition]

/-- The structural type that an operation asks for. -/
def shape? : TypeRequest → Option Ty
  | pointer target => some (.pointer target)
  | slice element => some (.slice element)
  | array element length => some (.array element length)
  | map key value => some (.map key value)
  | chan element dir => some (.chan element dir)
  | func params results variadic => some (.func ⟨params, results, variadic⟩)
  | struct fields => some (.struct fields)
  | interface methods => some (.interface (methods.mergeSort (fun a b => a.name ≤ b.name)))
  | tuple elements => some (.tuple elements)
  | declareNamed _ _ | define _ _ => none

end TypeRequest

namespace TypeTable

/-- The type that an operation answers, if it answers one, and the table after it. -/
def perform (types : TypeTable) : TypeRequest → Option TypeId × TypeTable
  | .pointer target => (types.pointer target).map some id
  | .slice element => (types.slice element).map some id
  | .array element length => (types.array element length).map some id
  | .map key value => (types.map key value).map some id
  | .chan element dir => (types.chan element dir).map some id
  | .func params results variadic => (types.func params results variadic).map some id
  | .struct fields => (types.struct fields).map some id
  | .interface methods => (types.interface methods).map some id
  | .tuple elements => (types.tuple elements).map some id
  | .declareNamed package name => (types.declareNamed package name).map some id
  | .define named definition => (none, types.define named definition)

/-- The answers to operations one after the other, and the table after all of them. -/
def performAll (types : TypeTable) : List TypeRequest → List (Option TypeId) × TypeTable
  | [] => ([], types)
  | request :: rest =>
    let (answer, types) := types.perform request
    let (answers, types) := types.performAll rest
    (answer :: answers, types)

/-- Whether operations are only applied to types that are in the table by then. -/
def Admits (types : TypeTable) : List TypeRequest → Prop
  | [] => True
  | request :: rest =>
    (∀ id ∈ request.operands, id.index < types.size) ∧ (types.perform request).2.Admits rest

end TypeTable

structure IndexedTypes where
  types : TypeTable
  basics : Keyed BasicType TypeId
  structural : Keyed Ty TypeId
  named : Keyed (Option String × String) TypeId
  any : TypeId
  error : TypeId
  deriving Inhabited

namespace IndexedTypes

def alloc (s : IndexedTypes) (entry : Ty) : TypeId × IndexedTypes :=
  let (id, types) := s.types.push entry
  (id, { s with types })

def intern (s : IndexedTypes) (entry : Ty) : TypeId × IndexedTypes :=
  match s.structural.lookup entry with
  | some id => (id, s)
  | none =>
    let (id, s) := s.alloc entry
    (id, { s with structural := s.structural.set entry id })

def interface (s : IndexedTypes) (methods : List InterfaceMethod) : TypeId × IndexedTypes :=
  s.intern (.interface (methods.mergeSort (fun a b => a.name ≤ b.name)))

def declareNamed (s : IndexedTypes) (package : Option String) (name : String) :
    TypeId × IndexedTypes :=
  match s.named.lookup (package, name) with
  | some id => (id, s)
  | none =>
    let (id, s) := s.alloc (.named package name none)
    (id, { s with named := s.named.set (package, name) id })

def define (s : IndexedTypes) (named definition : TypeId) : IndexedTypes :=
  { s with types := s.types.define named definition }

def basic (s : IndexedTypes) (kind : BasicType) : TypeId :=
  (s.basics.lookup kind).getD TypeTable.invalid

def addBasic (s : IndexedTypes) (kind : BasicType) : IndexedTypes :=
  let (id, s) := s.alloc (.basic kind)
  { s with basics := s.basics.set kind id }

/-- A table of the invalid type only. -/
def bare : IndexedTypes :=
  ⟨⟨#[.invalid]⟩, [], [], [], TypeTable.invalid, TypeTable.invalid⟩

/-- Adds `interface{}`, and `error` with its definition. -/
def addPredeclared (s : IndexedTypes) : IndexedTypes :=
  let (any, s) := s.interface []
  let (signature, s) := s.intern (.func ⟨[], [s.basic .string], false⟩)
  let (definition, s) := s.interface [⟨"Error", signature⟩]
  let (error, s) := s.declareNamed none "error"
  { s.define error definition with any, error }

def initial : IndexedTypes := (BasicType.all.foldl addBasic bare).addPredeclared

def perform (s : IndexedTypes) : TypeRequest → Option TypeId × IndexedTypes
  | .pointer target => (s.intern (.pointer target)).map some id
  | .slice element => (s.intern (.slice element)).map some id
  | .array element length => (s.intern (.array element length)).map some id
  | .map key value => (s.intern (.map key value)).map some id
  | .chan element dir => (s.intern (.chan element dir)).map some id
  | .func params results variadic => (s.intern (.func ⟨params, results, variadic⟩)).map some id
  | .struct fields => (s.intern (.struct fields)).map some id
  | .interface methods => (s.interface methods).map some id
  | .tuple elements => (s.intern (.tuple elements)).map some id
  | .declareNamed package name => (s.declareNamed package name).map some id
  | .define named definition => (none, s.define named definition)

def performAll (s : IndexedTypes) : List TypeRequest → List (Option TypeId) × IndexedTypes
  | [] => ([], s)
  | request :: rest =>
    let (answer, s) := s.perform request
    let (answers, s) := s.performAll rest
    (answer :: answers, s)

/-- A new table has the predeclared types where `TypeTable` has them. -/
theorem types_initial : initial.types = TypeTable.initial :=
  congrArg TypeTable.mk (by decide +kernel : initial.types.entries = TypeTable.initial.entries)

end IndexedTypes

end GoLowering
