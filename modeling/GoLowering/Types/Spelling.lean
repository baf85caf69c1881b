import GoLowering.Types.Basic

/-!
# Spelling of types

The text of a type in host source, and the import paths that the text relies on. Structural
types only mention entries that came before them, so the number of entries bounds every
descent.
-/

namespace GoLowering

/-- The name a package goes by in source: the last segment of its import path. -/
def packageName (path : String) : String :=
  String.ofList (path.toList.reverse.takeWhile (· != '/')).reverse

/-- The text of `package.name`, the package shown by its last segment. -/
def qualifiedName (package : Option String) (name : String) : String :=
  match package with
  | some path => packageName path ++ "." ++ name
  | none => name

namespace TypeTable

/-- The text of a parameter list and its results, given the text of a type. -/
def signatureText (types : TypeTable) (text : TypeId → String) (sig : Signature) : String :=
  let lastText (id : TypeId) : String :=
    match types.get id with
    | .slice element => if sig.variadic then "..." ++ text element else text id
    | _ => text id
  let params := sig.params.dropLast.map text ++ sig.params.getLast?.toList.map lastText
  let results :=
    match sig.results with
    | [] => ""
    | [single] => " " ++ text single
    | several => " (" ++ String.intercalate ", " (several.map text) ++ ")"
  "(" ++ String.intercalate ", " params ++ ")" ++ results

def fieldText (text : TypeId → String) (field : Field) : String :=
  (if field.embedded then "" else field.name ++ " ") ++ text field.type ++
    match field.tag with
    | some tag => " `" ++ tag ++ "`"
    | none => ""

/-- The text of one entry, given the text of the types it mentions. -/
def entryText (types : TypeTable) (text : TypeId → String) : Ty → String
  | .basic kind => kind.name
  | .named package name _ => qualifiedName package name
  | .pointer target => "*" ++ text target
  | .slice element => "[]" ++ text element
  | .array element length => "[" ++ toString length ++ "]" ++ text element
  | .map key value => "map[" ++ text key ++ "]" ++ text value
  | .chan element dir =>
    (match dir with
      | .both => "chan "
      | .send => "chan<- "
      | .recv => "<-chan ") ++ text element
  | .func sig => "func" ++ types.signatureText text sig
  | .struct [] => "struct\x7b\x7d"
  | .struct fields =>
    "struct\x7b " ++ String.intercalate "; " (fields.map (fieldText text)) ++ " \x7d"
  | .interface [] => "interface\x7b\x7d"
  | .interface methods =>
    let methodText (m : InterfaceMethod) : String :=
      m.name ++ ((types.signature? m.sig).map (types.signatureText text)).getD ""
    "interface\x7b " ++ String.intercalate "; " (methods.map methodText) ++ " \x7d"
  | .tuple elements => "(" ++ String.intercalate ", " (elements.map text) ++ ")"
  | .invalid => "invalid type"

/-- The text of a type, nested at most `depth` levels. -/
def textWithin (types : TypeTable) : Nat → TypeId → String
  | 0, _ => ""
  | depth + 1, id => types.entryText (types.textWithin depth) (types.get id)

def depthBound (types : TypeTable) : Nat := 2 * types.size + 2

/-- The text of a type in host source. -/
def format (types : TypeTable) (id : TypeId) : String :=
  types.textWithin types.depthBound id

/-- The text of a signature without the leading `func`. -/
def formatSignature (types : TypeTable) (sig : Signature) : String :=
  types.signatureText types.format sig

/-- The types that one entry mentions, definitions of named types apart. -/
def mentioned : Ty → List TypeId
  | .pointer target | .slice target => [target]
  | .array element _ | .chan element _ => [element]
  | .map key value => [key, value]
  | .func sig => sig.params ++ sig.results
  | .struct fields => fields.map (·.type)
  | .interface methods => methods.map (·.sig)
  | .tuple elements => elements
  | .basic _ | .named .. | .invalid => []

/-- The import path that one entry itself relies on. -/
def ownPackage? : Ty → Option String
  | .named package _ _ => package
  | .basic .unsafePointer => some "unsafe"
  | _ => none

def packagesWithin (types : TypeTable) : Nat → TypeId → List String
  | 0, _ => []
  | depth + 1, id =>
    let entry := types.get id
    (ownPackage? entry).toList ++ (mentioned entry).flatMap (types.packagesWithin depth)

/-- The import paths that the text of a type relies on, in the order they are met. -/
def packages (types : TypeTable) (id : TypeId) : List String :=
  types.packagesWithin (types.size + 1) id

end TypeTable

end GoLowering
