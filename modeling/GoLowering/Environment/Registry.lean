import GoLowering.Environment.Standard

/-!
# Registered numeric types

Types whose operators are method calls. Untyped constants that flow into one are built by
its initializer functions, from an `int`, a big integer or a big rational.
-/

namespace GoLowering

structure RegisteredType where
  type : TypeId
  /-- The import path of the package that declares the type and its initializers. -/
  package : String
  name : String
  /-- What is appended to the method name of a binary operator. -/
  binarySuffix : String
  initInt : Option String
  initBig : Option String
  initRat : Option String
  deriving DecidableEq, Repr, Inhabited

/-- The registered types, and the defaults of untyped unbounded integers and rationals. -/
structure Registry where
  entries : List RegisteredType
  bigInt : Option TypeId
  bigRat : Option TypeId
  deriving Inhabited

namespace Registry

def empty : Registry := ⟨[], none, none⟩

/-- A type is registered at most once; the last registration counts. -/
def register (registry : Registry) (entry : RegisteredType) : Registry :=
  { registry with
    entries := registry.entries.filter (·.type != entry.type) ++ [entry] }

def setDefaults (registry : Registry) (bigInt bigRat : TypeId) : Registry :=
  { registry with bigInt := some bigInt, bigRat := some bigRat }

def get? (registry : Registry) (type : TypeId) : Option RegisteredType :=
  registry.entries.find? (·.type == type)

/-- The registered type that an untyped unbounded constant takes by default. -/
def defaultFor? (registry : Registry) (kind : BasicType) : Option RegisteredType :=
  match kind with
  | .untypedBigInt => registry.bigInt.bind registry.get?
  | .untypedBigRat => registry.bigRat.bind registry.get?
  | _ => none

/-- A type that constants take by default is registered. -/
theorem get?_of_defaultFor? {registry : Registry} {kind : BasicType} {entry : RegisteredType}
    (h : registry.defaultFor? kind = some entry) : registry.get? entry.type = some entry := by
  have hget {type : TypeId} (h : registry.get? type = some entry) : entry.type = type := by
    simpa using List.find?_some h
  cases kind with
  | untypedBigInt | untypedBigRat =>
    obtain ⟨type, -, htype⟩ := Option.bind_eq_some_iff.mp h
    rw [hget htype, htype]
  | _ => cases h

def size (registry : Registry) : Nat := registry.entries.length

/-- The extended numeric types among the types of a table. -/
def standard (types : TypeTable) : Registry :=
  let extended (name : String) : Option TypeId :=
    types.lookupNamed? (some numericsPath) name
  let add (registry : Registry) (name suffix : String) (rational : Bool) : Registry :=
    match extended name with
    | none => registry
    | some type =>
      registry.register
        { type, name, package := numericsPath, binarySuffix := suffix,
          initInt := some (name ++ "_Init__0"),
          initBig := some (name ++ "_Init__1"),
          initRat := if rational then some (name ++ "_Init__2") else none }
  let registry := add empty "Bigint" "" false
  let registry := add registry "Bigrat" "" true
  let registry := add registry "Int128" "__1" false
  let registry := add registry "Uint128" "__1" false
  { registry with bigInt := extended "Bigint", bigRat := extended "Bigrat" }

end Registry

end GoLowering
