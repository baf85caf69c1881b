/-!
# Types

Host types live in a table and are referred to by position. Structural types are interned,
so two structural types are equal exactly when their positions are; a named type is a
position of its own whose definition is filled in later.

The first entries of every table are fixed: the invalid type, the basic types in the order
of `BasicType.all`, `interface{}`, and the predeclared `error` with its definition.
-/

namespace GoLowering

inductive BasicType where
  | bool
  | int | int8 | int16 | int32 | int64
  | uint | uint8 | uint16 | uint32 | uint64 | uintptr
  | float32 | float64
  | complex64 | complex128
  | string
  | unsafePointer
  | untypedBool | untypedInt | untypedRune | untypedFloat | untypedComplex
  | untypedString | untypedNil
  | untypedBigInt | untypedBigRat
  deriving DecidableEq, Repr, Inhabited

namespace BasicType

def name : BasicType → String
  | bool => "bool"
  | int => "int" | int8 => "int8" | int16 => "int16" | int32 => "int32" | int64 => "int64"
  | uint => "uint" | uint8 => "uint8" | uint16 => "uint16" | uint32 => "uint32"
  | uint64 => "uint64" | uintptr => "uintptr"
  | float32 => "float32" | float64 => "float64"
  | complex64 => "complex64" | complex128 => "complex128"
  | string => "string"
  | unsafePointer => "unsafe.Pointer"
  | untypedBool => "untyped bool"
  | untypedInt => "untyped int"
  | untypedRune => "untyped rune"
  | untypedFloat => "untyped float"
  | untypedComplex => "untyped complex"
  | untypedString => "untyped string"
  | untypedNil => "untyped nil"
  | untypedBigInt => "untyped bigint"
  | untypedBigRat => "untyped bigrat"

def all : List BasicType :=
  [bool, int, int8, int16, int32, int64, uint, uint8, uint16, uint32, uint64, uintptr,
    float32, float64, complex64, complex128, string, unsafePointer,
    untypedBool, untypedInt, untypedRune, untypedFloat, untypedComplex, untypedString,
    untypedNil, untypedBigInt, untypedBigRat]

def ofName? (text : String) : Option BasicType :=
  all.find? (·.name == text)

def isUntyped : BasicType → Bool
  | untypedBool | untypedInt | untypedRune | untypedFloat | untypedComplex
  | untypedString | untypedNil | untypedBigInt | untypedBigRat => true
  | _ => false

/-- The untyped constants of unbounded size. -/
def isUntypedBig : BasicType → Bool
  | untypedBigInt | untypedBigRat => true
  | _ => false

/-- Unbounded integers are left out: they have no host representation of their own. -/
def isInteger : BasicType → Bool
  | int | int8 | int16 | int32 | int64
  | uint | uint8 | uint16 | uint32 | uint64 | uintptr
  | untypedInt | untypedRune => true
  | _ => false

def isUnsigned : BasicType → Bool
  | uint | uint8 | uint16 | uint32 | uint64 | uintptr => true
  | _ => false

def isFloat : BasicType → Bool
  | float32 | float64 | untypedFloat => true
  | _ => false

def isComplex : BasicType → Bool
  | complex64 | complex128 | untypedComplex => true
  | _ => false

def isNumeric (kind : BasicType) : Bool :=
  kind.isInteger || kind.isFloat || kind.isComplex

/-- Width of a typed integer; `int`, `uint` and `uintptr` have 64 bits. -/
def integerBits? : BasicType → Option Nat
  | int8 | uint8 => some 8
  | int16 | uint16 => some 16
  | int32 | uint32 => some 32
  | int | int64 | uint | uint64 | uintptr => some 64
  | _ => none

end BasicType

inductive ChanDir where
  | both | send | recv
  deriving DecidableEq, Repr, Inhabited

namespace ChanDir

def name : ChanDir → String
  | both => "both" | send => "send" | recv => "recv"

def ofName? (text : String) : Option ChanDir :=
  [both, send, recv].find? (·.name == text)

end ChanDir

/-- Lengths and indexes of arrays are words of 64 bits, which are below this number. -/
def lengthLimit : Nat := Nat.pow 2 64

/-- A position in a type table. -/
structure TypeId where
  index : Nat
  deriving DecidableEq, Repr, Inhabited

structure Signature where
  params : List TypeId
  results : List TypeId
  /-- Whether the last parameter, a slice, is received as `...T`. -/
  variadic : Bool
  deriving DecidableEq, Repr, Inhabited

structure Field where
  name : String
  type : TypeId
  embedded : Bool
  tag : Option String
  deriving DecidableEq, Repr, Inhabited

structure InterfaceMethod where
  name : String
  sig : TypeId
  deriving DecidableEq, Repr, Inhabited

/-- One entry of a type table. The package of a named type is an import path; it is absent
for the unit being lowered and for predeclared names. -/
inductive Ty where
  | basic (kind : BasicType)
  | named (package : Option String) (name : String) (definition : Option TypeId)
  | pointer (target : TypeId)
  | slice (element : TypeId)
  | array (element : TypeId) (length : Nat)
  | map (key value : TypeId)
  | chan (element : TypeId) (dir : ChanDir)
  | func (sig : Signature)
  | struct (fields : List Field)
  | interface (methods : List InterfaceMethod)
  | tuple (elements : List TypeId)
  | invalid
  deriving DecidableEq, Repr, Inhabited

/-- The word for the shape of a type. -/
def Ty.word : Ty → String
  | basic _ => "basic" | named .. => "named" | pointer _ => "pointer" | slice _ => "slice"
  | array .. => "array" | map .. => "map" | chan .. => "chan" | func _ => "func"
  | struct _ => "struct" | interface _ => "interface" | tuple _ => "tuple"
  | invalid => "invalid"

def Ty.isNamed : Ty → Bool
  | .named .. => true
  | _ => false

/-- Whether an entry is the named type with this package and name. -/
def Ty.isNamedAs (package : Option String) (name : String) : Ty → Bool
  | .named p n _ => p == package && n == name
  | _ => false

structure TypeTable where
  entries : Array Ty
  deriving Inhabited

namespace TypeTable

def get (types : TypeTable) (id : TypeId) : Ty :=
  types.entries.getD id.index .invalid

def size (types : TypeTable) : Nat := types.entries.size

theorem get_mem {types : TypeTable} {id : TypeId} (h : id.index < types.size) :
    types.get id ∈ types.entries := by
  have hlt : id.index < types.entries.size := h
  simp [get, Array.getD, hlt]

def push (types : TypeTable) (entry : Ty) : TypeId × TypeTable :=
  (⟨types.entries.size⟩, ⟨types.entries.push entry⟩)

/-- The position of a structural type, added at the end when it is new. -/
def intern (types : TypeTable) (entry : Ty) : TypeId × TypeTable :=
  match types.entries.findIdx? (· == entry) with
  | some i => (⟨i⟩, types)
  | none => types.push entry

def lookupNamed? (types : TypeTable) (package : Option String) (name : String) :
    Option TypeId :=
  (types.entries.findIdx? (Ty.isNamedAs package name)).map (⟨·⟩)

/-- The named type `package.name`, added without a definition when it is new. -/
def declareNamed (types : TypeTable) (package : Option String) (name : String) :
    TypeId × TypeTable :=
  match types.lookupNamed? package name with
  | some id => (id, types)
  | none => types.push (.named package name none)

/-- Gives a named type its definition, which may itself be named and still undefined. -/
def define (types : TypeTable) (id definition : TypeId) : TypeTable :=
  match types.get id with
  | .named package name _ =>
    ⟨types.entries.setIfInBounds id.index (.named package name (some definition))⟩
  | _ => types

/-! ## Fixed positions -/

def invalid : TypeId := ⟨0⟩

/-- Basic types follow the invalid type in the order of `BasicType.all`. -/
def basic (kind : BasicType) : TypeId := ⟨kind.ctorIdx + 1⟩

def bool : TypeId := basic .bool
def int : TypeId := basic .int
def int32 : TypeId := basic .int32
def float64 : TypeId := basic .float64
def string : TypeId := basic .string
def untypedNil : TypeId := basic .untypedNil

/-- The position of `interface{}`. -/
def any : TypeId := ⟨28⟩

/-- The position of the predeclared `error`. -/
def error : TypeId := ⟨31⟩

def initial : TypeTable :=
  ⟨(Ty.invalid :: (BasicType.all.map Ty.basic ++
    [Ty.interface [],
      Ty.func ⟨[], [string], false⟩,
      Ty.interface [⟨"Error", ⟨29⟩⟩],
      Ty.named none "error" (some ⟨30⟩)])).toArray⟩

theorem size_initial : initial.size = 32 := by rfl

theorem get_basic (kind : BasicType) : initial.get (basic kind) = .basic kind := by
  cases kind <;> rfl

theorem get_any : initial.get any = .interface [] := by rfl

/-! ## Structural constructors -/

def pointer (types : TypeTable) (target : TypeId) : TypeId × TypeTable :=
  types.intern (.pointer target)

def slice (types : TypeTable) (element : TypeId) : TypeId × TypeTable :=
  types.intern (.slice element)

def array (types : TypeTable) (element : TypeId) (length : Nat) : TypeId × TypeTable :=
  types.intern (.array element length)

def map (types : TypeTable) (key value : TypeId) : TypeId × TypeTable :=
  types.intern (.map key value)

def chan (types : TypeTable) (element : TypeId) (dir : ChanDir) : TypeId × TypeTable :=
  types.intern (.chan element dir)

def func (types : TypeTable) (params results : List TypeId) (variadic : Bool) :
    TypeId × TypeTable :=
  types.intern (.func ⟨params, results, variadic⟩)

def struct (types : TypeTable) (fields : List Field) : TypeId × TypeTable :=
  types.intern (.struct fields)

/-- Methods are kept in name order, so the order they are written in does not matter. -/
def interface (types : TypeTable) (methods : List InterfaceMethod) : TypeId × TypeTable :=
  types.intern (.interface (methods.mergeSort (fun a b => a.name ≤ b.name)))

def tuple (types : TypeTable) (elements : List TypeId) : TypeId × TypeTable :=
  types.intern (.tuple elements)

/-! ## Questions -/

/-- Follows definitions for at most `steps` entries. -/
def resolve (types : TypeTable) : Nat → TypeId → TypeId
  | 0, _ => invalid
  | steps + 1, id =>
    match types.get id with
    | .named _ _ (some next) => types.resolve steps next
    | .named _ _ none => invalid
    | _ => id

/-- The structural type at the end of a chain of definitions. A chain of 64 names or more
counts as unresolved, and so does a cycle. -/
def underlying (types : TypeTable) (id : TypeId) : TypeId :=
  types.resolve 64 id

/-- The entry at the end of a chain of definitions. -/
def shape (types : TypeTable) (id : TypeId) : Ty :=
  types.get (types.underlying id)

def signature? (types : TypeTable) (id : TypeId) : Option Signature :=
  match types.shape id with
  | .func sig => some sig
  | _ => none

def basic? (types : TypeTable) (id : TypeId) : Option BasicType :=
  match types.shape id with
  | .basic kind => some kind
  | _ => none

def isInvalid (types : TypeTable) (id : TypeId) : Bool :=
  types.get id == .invalid

def isUntyped (types : TypeTable) (id : TypeId) : Bool :=
  match types.get id with
  | .basic kind => kind.isUntyped
  | _ => false

def isNamed (types : TypeTable) (id : TypeId) : Bool :=
  (types.get id).isNamed

def isInterface (types : TypeTable) (id : TypeId) : Bool :=
  match types.shape id with
  | .interface _ => true
  | _ => false

def isEmptyInterface (types : TypeTable) (id : TypeId) : Bool :=
  match types.shape id with
  | .interface methods => methods.isEmpty
  | _ => false

/-- Whether values of a type are written as composite literals. -/
def isComposite (types : TypeTable) (id : TypeId) : Bool :=
  match types.shape id with
  | .struct _ | .slice _ | .array _ _ | .map _ _ => true
  | _ => false

/-- Whether the zero value of a type is `nil`. -/
def isNilable (types : TypeTable) (id : TypeId) : Bool :=
  match types.shape id with
  | .pointer _ | .slice _ | .map _ _ | .chan _ _ | .func _ | .interface _ => true
  | .basic kind => kind == .unsafePointer || kind == .untypedNil
  | _ => false

/-- The values a call of this type yields: a tuple has several, all else is one value. -/
def resultsOf (types : TypeTable) (id : TypeId) : List TypeId :=
  match types.get id with
  | .tuple elements => elements
  | _ => [id]

/-- The type an untyped constant takes when nothing else decides it. Unbounded numbers have
none of their own. -/
def defaultType (types : TypeTable) (id : TypeId) : TypeId :=
  match types.get id with
  | .basic .untypedBool => bool
  | .basic .untypedInt => int
  | .basic .untypedRune => int32
  | .basic .untypedFloat => float64
  | .basic .untypedComplex => basic .complex128
  | .basic .untypedString => string
  | _ => id

/-- The types of the key and, where there is one, of the value of each step of a range. -/
def rangeTypes? (types : TypeTable) (id : TypeId) : Option (TypeId × Option TypeId) :=
  let base := types.underlying id
  match types.get base with
  | .slice element => some (int, some element)
  | .array element _ => some (int, some element)
  | .pointer target =>
    match types.shape target with
    | .array element _ => some (int, some element)
    | _ => none
  | .map key value => some (key, some value)
  | .chan element _ => some (element, none)
  | .basic kind =>
    if kind == .string || kind == .untypedString then some (int, some int32)
    else if kind.isInteger then some (types.defaultType base, none)
    else none
  | _ => none

/-!
## Assignability

Whether a value of one type may be assigned to another without conversion. The methods of
named types are not in the table, so questions about them are answered by a parameter.
-/

/-- Untyped constants go to any interface and to basic types of their class. -/
def untypedAssignable (types : TypeTable) (kind : BasicType) (target : TypeId) :
    Bool :=
  if types.isInterface target then
    kind != .untypedNil || types.isNilable target
  else
    match types.shape target with
    | .basic wanted =>
      match kind with
      | .untypedBool => wanted == .bool
      | .untypedString => wanted == .string
      | .untypedNil => wanted == .unsafePointer
      | .untypedInt | .untypedRune | .untypedFloat | .untypedComplex => wanted.isNumeric
      | _ => false
    | _ => kind == .untypedNil && types.isNilable target

/-- Assignability of a value that is not an untyped constant, between valid distinct
types. -/
def typedAssignable (types : TypeTable) (hasMethod : TypeId → String → Bool)
    (source target : TypeId) : Bool :=
  let oneUnnamed := !types.isNamed source || !types.isNamed target
  match types.shape target with
  | .interface methods => methods.all (fun m => hasMethod source m.name)
  | shape =>
    (oneUnnamed && types.underlying source == types.underlying target) ||
      match types.shape source, shape with
      | .chan a .both, .chan b _ => a == b && oneUnnamed
      | _, _ => false

/-- Whether a value of type `source` may be assigned to `target`. An invalid type agrees
with every other, so that one mistake is reported once. -/
def assignable (types : TypeTable) (hasMethod : TypeId → String → Bool)
    (source target : TypeId) : Bool :=
  if source == target || types.isInvalid source || types.isInvalid target then
    true
  else
    match types.get source with
    | .basic kind =>
      if kind.isUntyped then types.untypedAssignable kind target
      else types.typedAssignable hasMethod source target
    | _ => types.typedAssignable hasMethod source target

theorem assignable_refl (types : TypeTable) (hasMethod : TypeId → String → Bool)
    (id : TypeId) : types.assignable hasMethod id id = true := by
  simp [assignable]

end TypeTable

end GoLowering
