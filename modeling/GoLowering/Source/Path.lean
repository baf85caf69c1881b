import GoLowering.Source.Text

/-!
# Lexical paths

Paths as lists of components, without a look at any file system. A normal path has no `.`
component, and `..` components only at its front; a `..` right below the root is kept.
-/

namespace GoLowering.Source

/-- A component of a path: one step up, or one step into a name. -/
inductive Step where
  | up
  | into (name : String)
  deriving DecidableEq, Repr

structure Path where
  absolute : Bool
  steps : List Step
  deriving DecidableEq, Repr, Inhabited

namespace Step

def text : Step → String
  | up => ".."
  | into name => name

end Step

namespace Path

/-- The segments of a text between slashes; empty ones and `.` do not count. -/
def segments (text : String) : List String :=
  ((fields '/' text.toList).map String.ofList).filter (fun s => s != "" && s != ".")

def stepOf (segment : String) : Step :=
  if segment == ".." then .up else .into segment

def ofString (text : String) : Path where
  absolute := text.toList.head? == some '/'
  steps := (segments text).map stepOf

/-- Appends a step to a path kept in reverse; a step up cancels a name before it. -/
def pushReversed (reversed : List Step) : Step → List Step
  | .into name => .into name :: reversed
  | .up =>
    match reversed with
    | .into _ :: rest => rest
    | _ => .up :: reversed

/-- Cancels every name that is followed by a step up. -/
def normalize (p : Path) : Path :=
  { p with steps := (p.steps.foldl pushReversed []).reverse }

def text (p : Path) : String :=
  (if p.absolute then "/" else "") ++ String.intercalate "/" (p.steps.map Step.text)

/-- The normal path of a text. -/
def parse (text : String) : Path := (ofString text).normalize

/-- How long two paths run together. -/
def commonLength : List Step → List Step → Nat
  | a :: as, b :: bs => if a = b then commonLength as bs + 1 else 0
  | _, _ => 0

/-- The way from `base` to `p`: up out of the rest of `base`, then down. There is none
between an absolute and a relative path. -/
def relativeTo? (p base : Path) : Option Path :=
  let p := p.normalize
  let base := base.normalize
  if p.absolute != base.absolute then none
  else
    let common := commonLength p.steps base.steps
    some ⟨false, List.replicate (base.steps.length - common) .up ++ p.steps.drop common⟩

/-- The text of a relative way, which is never empty. -/
def wayText (p : Path) : String :=
  if p.steps.isEmpty && !p.absolute then "." else p.text

end Path

end GoLowering.Source
