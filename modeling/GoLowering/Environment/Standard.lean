import GoLowering.Environment.Basic

/-!
# Standard environment

The predeclared names of the host language, the extra spellings of the surface language, and
the packages that generated code calls.
-/

namespace GoLowering

/-- The package of the extended numeric types. -/
def numericsPath : String := "github.com/qiniu/x/gop/ng"

def bigPath : String := "math/big"

/-- The package that records where an error passed through. -/
def framesPath : String := "github.com/qiniu/x/errors"

/-- A type table and the environment whose types are positions in it. -/
structure World where
  types : TypeTable
  env : Environment
  deriving Inhabited

namespace World

def empty : World := ⟨.initial, .empty⟩

abbrev Build := StateM World

namespace Build

def types {α : Type} (f : TypeTable → α × TypeTable) : Build α :=
  modifyGet (fun w => let (a, types) := f w.types; (a, { w with types }))

def env (f : Environment → Environment) : Build Unit :=
  modify (fun w => { w with env := f w.env })

def func (params results : List TypeId) (variadic : Bool) : Build TypeId :=
  types (·.func params results variadic)

/-- Adds functions of one package, in order. -/
def functions (path : String) (entries : List (String × TypeId)) : Build Unit :=
  entries.forM (fun (name, type) => env (·.defineFunction path name type))

def method (receiver : TypeId) (name : String) (sig : TypeId) (pointerReceiver : Bool) :
    Build Unit :=
  env (·.defineMethod receiver ⟨name, sig, pointerReceiver⟩)

/-- Declares a named type with a definition, as a member of its package. -/
def namedType (path name : String) (definition : TypeId) : Build TypeId := do
  let type ← types (·.declareNamed (some path) name)
  modify (fun w => { w with types := w.types.define type definition })
  env (·.defineMember path name (.type type))
  return type

open TypeTable in
def predeclared : Build Unit := do
  let basics : List (String × BasicType) :=
    [("bool", .bool), ("int", .int), ("int8", .int8), ("int16", .int16), ("int32", .int32),
      ("rune", .int32), ("int64", .int64), ("uint", .uint), ("uint8", .uint8),
      ("byte", .uint8), ("uint16", .uint16), ("uint32", .uint32), ("uint64", .uint64),
      ("uintptr", .uintptr), ("float32", .float32), ("float64", .float64),
      ("complex64", .complex64), ("complex128", .complex128), ("string", .string)]
  for (name, kind) in basics do
    env (·.define name (.type (basic kind)))
  env (·.define "error" (.type error))
  env (·.define "any" (.type any))
  env (·.define "true" (.const (.bool true) (basic .untypedBool)))
  env (·.define "false" (.const (.bool false) (basic .untypedBool)))
  env (·.define "nil" .nil)
  for function in Builtin.all do
    env (·.define function.name (.builtin function))
  let anys ← types (·.slice any)
  let println ← func [anys] [int, error] true
  let printf ← func [string, anys] [int, error] true
  env (·.define "println" (.value (some "fmt") "Println" println))
  env (·.define "echo" (.value (some "fmt") "Println" println))
  env (·.define "print" (.value (some "fmt") "Print" println))
  env (·.define "printf" (.value (some "fmt") "Printf" printf))

open TypeTable in
def formatting : Build Unit := do
  let anys ← types (·.slice any)
  let print ← func [anys] [int, error] true
  let printf ← func [string, anys] [int, error] true
  let sprint ← func [anys] [string] true
  let sprintf ← func [string, anys] [string] true
  let errorf ← func [string, anys] [error] true
  functions "fmt"
    [("Println", print), ("Print", print), ("Printf", printf), ("Sprint", sprint),
      ("Sprintln", sprint), ("Sprintf", sprintf), ("Errorf", errorf)]

open TypeTable in
def conversions : Build Unit := do
  let int64 := basic .int64
  let atoi ← func [string] [int, error] false
  let itoa ← func [int] [string] false
  let parseInt ← func [string, int, int] [int64, error] false
  let parseFloat ← func [string, int] [float64, error] false
  let formatInt ← func [int64, int] [string] false
  functions "strconv"
    [("Atoi", atoi), ("Itoa", itoa), ("ParseInt", parseInt), ("ParseFloat", parseFloat),
      ("FormatInt", formatInt)]

open TypeTable in
def strings : Build Unit := do
  let list ← types (·.slice string)
  let unary ← func [string] [string] false
  let split ← func [string, string] [list] false
  let join ← func [list, string] [string] false
  let contains ← func [string, string] [bool] false
  functions "strings"
    [("ToUpper", unary), ("ToLower", unary), ("TrimSpace", unary), ("Split", split),
      ("Join", join), ("Contains", contains)]

open TypeTable in
def system : Build Unit := do
  let list ← types (·.slice string)
  let exit ← func [int] [] false
  let getenv ← func [string] [string] false
  let remove ← func [string] [error] false
  functions "os" [("Exit", exit), ("Getenv", getenv), ("Remove", remove), ("Args", list)]

/-- The pointers to the big integer and to the big rational. -/
structure BigPointers where
  int : TypeId
  rat : TypeId

open TypeTable in
def bigNumbers : Build BigPointers := do
  let hidden ← types (·.struct [])
  let bigInt ← namedType bigPath "Int" hidden
  let bigRat ← namedType bigPath "Rat" hidden
  let intPointer ← types (·.pointer bigInt)
  let ratPointer ← types (·.pointer bigRat)
  let int64 := basic .int64
  let newInt ← func [int64] [intPointer] false
  let newRat ← func [int64, int64] [ratPointer] false
  let setString ← func [string, int] [intPointer, bool] false
  let toText ← func [] [string] false
  functions bigPath [("NewInt", newInt), ("NewRat", newRat)]
  method bigInt "SetString" setString true
  method bigInt "String" toText true
  method bigRat "String" toText true
  return ⟨intPointer, ratPointer⟩

open TypeTable in
def numerics (big : BigPointers) : Build Unit := do
  let wrapper (name short field : String) (inner : TypeId) : Build TypeId := do
    let body ← types (·.struct [⟨field, inner, true, none⟩])
    let type ← namedType numericsPath name body
    env (·.define short (.type type))
    return type
  let wide (name short : String) : Build TypeId := do
    let word := basic .uint64
    let body ← types (·.struct [⟨"hi", word, false, none⟩, ⟨"lo", word, false, none⟩])
    let type ← namedType numericsPath name body
    env (·.define short (.type type))
    return type
  let bigint ← wrapper "Bigint" "bigint" "Int" big.int
  let bigrat ← wrapper "Bigrat" "bigrat" "Rat" big.rat
  let int128 ← wide "Int128" "int128"
  let uint128 ← wide "Uint128" "uint128"
  let initializers : List (String × TypeId × TypeId) :=
    [("Bigint_Init__0", int, bigint), ("Bigint_Init__1", big.int, bigint),
      ("Bigrat_Init__0", int, bigrat), ("Bigrat_Init__1", big.int, bigrat),
      ("Bigrat_Init__2", big.rat, bigrat),
      ("Int128_Init__0", int, int128), ("Int128_Init__1", big.int, int128),
      ("Uint128_Init__0", int, uint128), ("Uint128_Init__1", big.int, uint128)]
  for (name, param, type) in initializers do
    let sig ← func [param] [type] false
    env (·.defineFunction numericsPath name sig)
  let toText ← func [] [string] false
  let isZero ← func [] [bool] false
  for type in [bigint, bigrat, int128, uint128] do
    method type "String" toText false
    method type "IsZero" isZero false

open TypeTable in
def frames : Build Unit := do
  let newFrame ← func [error, string, string, int, string] [error] false
  functions framesPath [("NewFrame", newFrame)]

def standard : Build Unit := do
  predeclared
  formatting
  conversions
  strings
  system
  let big ← bigNumbers
  numerics big
  frames

end Build

/-- The environment that programs are lowered in unless they bring their own. -/
def standard : World := (Build.standard.run empty).2

end World

end GoLowering
