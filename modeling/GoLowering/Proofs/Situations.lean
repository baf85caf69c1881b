import GoLowering.Lowering.State

/-!
# Situations

Contexts and states to look at a lowering in: a unit of some nodes that stand in no file, and a
place inside of a function where some names are variables.
-/

namespace GoLowering

namespace Surface

/-- A unit of some nodes, none of which has a place in a file. -/
def SourceUnit.bare (nodes : List NodeKind) (roots : List NodeId) : SourceUnit where
  nodes := (nodes.map (fun kind => ⟨kind, .synthetic⟩)).toArray
  roots := roots
  file := .synthetic
  package := "main"

end Surface

namespace Lowering

/-- A context without files, packages and registered types. -/
def Context.bare (nodes : List Surface.NodeKind) : Context where
  unit := .bare nodes []
  sources := .empty
  env := .empty
  settings := default
  registry := .empty

/-- A context with a unit of some top-level statements, where the names of a few types are
known. -/
def Context.sample (nodes : List Surface.NodeKind) (roots : List Surface.NodeId) : Context where
  unit := .bare nodes roots
  sources := .empty
  env :=
    { Environment.empty with
      predeclared := [("bool", .type TypeTable.bool), ("int", .type (TypeTable.basic .int)),
        ("string", .type TypeTable.string), ("error", .type TypeTable.error), ("nil", .nil)] }
  settings := default
  registry := .empty

/-- A state inside of a function with some results, with variables around. -/
def State.inside (types : TypeTable) (results : List TypeId)
    (names : List (String × TypeId)) : State :=
  { State.initial (.bare [] []) types with
    function := some results
    scopes :=
      ⟨#[⟨none, .package, []⟩,
        ⟨some Scopes.package, .function, names.map (fun (name, type) =>
          (name, .variable type))⟩], ⟨1⟩⟩ }

end Lowering

end GoLowering
