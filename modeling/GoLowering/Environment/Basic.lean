import GoLowering.Constant.Basic
import GoLowering.Keyed
import GoLowering.Types.Basic
import GoLowering.Types.Spelling

/-!
# Environment

What a unit refers to without declaring it: the predeclared names, the members of packages,
and the methods of named types. Types are positions in a table that is kept beside it.
-/

namespace GoLowering

inductive Builtin where
  | append | cap | close | complex | copy | delete | imag | len | make | new
  | panic | real | recover
  deriving DecidableEq, Repr

namespace Builtin

def name : Builtin → String
  | append => "append" | cap => "cap" | close => "close" | complex => "complex"
  | copy => "copy" | delete => "delete" | imag => "imag" | len => "len" | make => "make"
  | new => "new" | panic => "panic" | real => "real" | recover => "recover"

def all : List Builtin :=
  [append, cap, close, complex, copy, delete, imag, len, make, new, panic, real, recover]

def ofName? (text : String) : Option Builtin :=
  all.find? (·.name == text)

/-- The least number of arguments of a call. -/
def arity : Builtin → Nat
  | recover => 0
  | append | cap | close | imag | len | make | new | panic | real => 1
  | complex | copy | delete => 2

end Builtin

/-- What a name stands for. The package of a value is the one it is spelled with, so that
`println` can stand for `fmt.Println`. -/
inductive Resolution where
  | value (package : Option String) (name : String) (type : TypeId)
  | const (value : Constant) (type : TypeId)
  | nil
  | type (id : TypeId)
  | package (path : String)
  | builtin (function : Builtin)
  deriving Inhabited

/-- A method as it is spelled in host source, with its signature less the receiver. -/
structure Method where
  name : String
  sig : TypeId
  pointerReceiver : Bool
  deriving DecidableEq, Repr, Inhabited

abbrev Members := Keyed String Resolution

structure Environment where
  predeclared : Members
  packages : Keyed String Members
  methods : List (TypeId × Method)
  deriving Inhabited

namespace Environment

def empty : Environment := ⟨[], [], []⟩

def hasPackage (env : Environment) (path : String) : Bool :=
  env.packages.any (·.1 == path)

def define (env : Environment) (name : String) (resolution : Resolution) : Environment :=
  { env with predeclared := env.predeclared.set name resolution }

def definePackage (env : Environment) (path : String) : Environment :=
  if env.hasPackage path then env
  else { env with packages := env.packages ++ [(path, [])] }

def defineMember (env : Environment) (path name : String) (resolution : Resolution) :
    Environment :=
  let env := env.definePackage path
  { env with
    packages := env.packages.map (fun entry =>
      if entry.1 == path then (path, Keyed.set entry.2 name resolution) else entry) }

/-- A function or variable that is spelled with the package declaring it. -/
def defineFunction (env : Environment) (path name : String) (type : TypeId) : Environment :=
  env.defineMember path name (.value (some path) name type)

def defineMethod (env : Environment) (receiver : TypeId) (method : Method) : Environment :=
  { env with methods := env.methods ++ [(receiver, method)] }

/-- The meaning of a bare name. A package can be named by the last segment of its path when
no other package has the same one. -/
def resolve? (env : Environment) (name : String) : Option Resolution :=
  match env.predeclared.lookup name with
  | some resolution => some resolution
  | none =>
    match env.packages.filter (fun entry => packageName entry.1 == name) with
    | [(path, _)] => some (.package path)
    | _ => none

def resolveMember? (env : Environment) (path name : String) : Option Resolution :=
  (env.packages.lookup path).bind (·.lookup name)

/-- The type whose methods a receiver has: one pointer is looked through. -/
def methodBase (types : TypeTable) (receiver : TypeId) : TypeId :=
  match types.get receiver with
  | .pointer target => target
  | _ => receiver

/-- A method of a type or of a pointer to it, declared ones before those of an interface. -/
def method? (env : Environment) (types : TypeTable) (receiver : TypeId) (name : String) :
    Option Method :=
  let base := methodBase types receiver
  match env.methods.find? (fun entry => entry.1 == base && entry.2.name == name) with
  | some (_, method) => some method
  | none =>
    match types.shape base with
    | .interface methods =>
      (methods.find? (·.name == name)).map (fun m => ⟨m.name, m.sig, false⟩)
    | _ => none

def assignable (env : Environment) (types : TypeTable) (source target : TypeId) : Bool :=
  types.assignable (fun id name => (env.method? types id name).isSome) source target

end Environment

end GoLowering
