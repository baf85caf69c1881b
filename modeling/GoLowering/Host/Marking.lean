import GoLowering.Host.Imports
import GoLowering.Settings.Basic

/-!
# Marking host files

Markers tie the declarations and statements of a file to their places in the source. Nodes
are visited in the order they are printed, and a marker equal to the one before it is left
out. Headers have no markers of their own, but the bodies of function literals in them do.
-/

namespace GoLowering

/-- The name of a source file in markers and in error frames: relative to the base path when
there is one, with slashes only. -/
def displayPath (sources : Sources) (settings : Settings) (id : FileId) : String :=
  match sources.file? id with
  | none => ""
  | some f =>
    let shown :=
      match settings.relativeBasePath with
      | some base =>
        match (Source.Path.parse f.name).relativeTo? (.parse base) with
        | some way => way.wayText
        | none => f.name
      | none => f.name
    String.ofList (shown.toList.map (fun c => if c == '\\' then '/' else c))

namespace Marking

/-- The children of a node that is printed on one line. -/
def inlineChildren : HostKind → List HostId
  | .block _ | .ifElse .. | .loop .. | .range .. | .switch .. | .typeSwitch ..
  | .select _ | .labeled .. | .function _ | .functionLiteral .. => []
  | kind => kind.children

mutual

/-- The statements in the function literals of an expression or a simple statement. -/
def inlineStops (tree : HostTree) : Nat → HostId → List HostId
  | 0, _ => []
  | depth + 1, id =>
    match tree.kind id with
    | .functionLiteral _ body => (tree.statements body).flatMap (statementStops tree depth)
    | kind => (inlineChildren kind).flatMap (inlineStops tree depth)

/-- A statement and the statements inside of it, in the order they are printed. -/
def statementStops (tree : HostTree) : Nat → HostId → List HostId
  | 0, _ => []
  | depth + 1, id =>
    let inline := inlineStops tree depth
    let inner := statementStops tree depth
    let block (body : HostId) := (tree.statements body).flatMap inner
    id ::
      match tree.kind id with
      | .block statements => statements.flatMap inner
      | .ifElse init condition thenBranch elseBranch =>
        ifStops tree depth init condition thenBranch elseBranch
      | .loop init condition post body =>
        (init.toList ++ condition.toList ++ post.toList).flatMap inline ++ block body
      | .range _ _ _ source body => inline source ++ block body
      | .switch init tag cases =>
        (init.toList ++ tag.toList).flatMap inline ++
          cases.flatMap (fun c => (c.values.getD []).flatMap inline ++ c.body.flatMap inner)
      | .typeSwitch init _ subject cases =>
        init.toList.flatMap inline ++ inline subject ++
          cases.flatMap (fun c => c.body.flatMap inner)
      | .select cases =>
        cases.flatMap (fun c => c.comm.toList.flatMap inline ++ c.body.flatMap inner)
      | .labeled _ (some body) => inner body
      | _ => inline id

/-- An `if` and its `else` branches, none of which is a statement of its own. -/
def ifStops (tree : HostTree) : Nat → Option HostId → HostId → HostId → Option HostId →
    List HostId
  | 0, _, _, _, _ => []
  | depth + 1, init, condition, thenBranch, elseBranch =>
    let inline := inlineStops tree depth
    let block (body : HostId) := (tree.statements body).flatMap (statementStops tree depth)
    init.toList.flatMap inline ++ inline condition ++ block thenBranch ++
      match elseBranch with
      | none => []
      | some branch =>
        match tree.kind branch with
        | .ifElse init condition thenBranch elseBranch =>
          ifStops tree depth init condition thenBranch elseBranch
        | _ => block branch

end

/-- A node that may have a marker. Only the synthesized entry has one without a column. -/
structure Stop where
  node : HostId
  column : Option Nat

def depthBound (tree : HostTree) : Nat := 3 * tree.size + 3

def declarationStops (tree : HostTree) (entry : Option HostId) (id : HostId) : List Stop :=
  let depth := depthBound tree
  let stops := List.map (fun node => Stop.mk node (some 1))
  match tree.kind id with
  | .function decl =>
    ⟨id, if entry == some id then none else some 1⟩ ::
      stops ((tree.statements decl.body).flatMap (statementStops tree depth))
  | _ => ⟨id, some 1⟩ :: stops (inlineStops tree depth id)

def stops (file : HostFile) (entry : Option HostId) : List Stop :=
  file.declarations.flatMap (declarationStops file.tree entry)

/-- The marker of a node that comes from a known file. -/
def marker? (sources : Sources) (settings : Settings) (tree : HostTree) (stop : Stop) :
    Option LineMarker := do
  let origin ← tree.origin? stop.node
  let f ← sources.file? origin.file
  return ⟨displayPath sources settings origin.file, (f.lineColumn origin.start).1, stop.column⟩

/-- The markers of a list of stops, less each that repeats the last one. -/
def collect (sources : Sources) (settings : Settings) (tree : HostTree) :
    Option LineMarker → List Stop → List (HostId × LineMarker)
  | _, [] => []
  | last, stop :: rest =>
    match marker? sources settings tree stop with
    | none => collect sources settings tree last rest
    | some marker =>
      if last = some marker then collect sources settings tree last rest
      else (stop.node, marker) :: collect sources settings tree (some marker) rest

end Marking

/-- Puts markers before the declarations and statements of a file. -/
def HostFile.annotate (file : HostFile) (sources : Sources) (settings : Settings)
    (entry : Option HostId) : HostFile :=
  let found := Marking.collect sources settings file.tree none (Marking.stops file entry)
  { file with
    markers := found.foldl (fun markers (id, marker) => markers.set id marker) file.markers }

end GoLowering
