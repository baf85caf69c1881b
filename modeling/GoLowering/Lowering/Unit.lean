import GoLowering.Host.Marking
import GoLowering.Lowering.Declarations
import GoLowering.Lowering.Expressions
import GoLowering.Lowering.Statements

/-!
# Lowering of units

The whole lowering of a unit. The parts of a lowering go on to other nodes through a `Walk`;
here the walk is tied to them, to a depth that no unit without cycles exceeds.
-/

namespace GoLowering

namespace Lowering

open Surface

/-- A walk goes no further down. -/
def exhaust {α : Type} : Lower α := do
  note .exhausted
  throw .endless

/-- A walk that goes at most `depth` nodes down. -/
def walkWithin : Nat → Walk
  | 0 =>
    { expr := fun _ _ => exhaust
      statement := fun _ => exhaust
      type := fun _ => exhaust
      target := fun _ => exhaust
      value := fun _ _ _ => exhaust }
  | depth + 1 =>
    { expr := fun id expect => lowerExpr (walkWithin depth) id expect
      statement := fun id => lowerStmt (walkWithin depth) id
      type := fun id => lowerType (walkWithin depth) id
      target := fun id => lowerType (walkWithin depth) id
      value := fun root name span => ensureValue (walkWithin depth) root name span }

/-- A bound of the depth of a unit: between two declarations that need each other a walk goes
down through each node at most once, and each declaration is started at most once. -/
def depthBound (unit : SourceUnit) : Nat :=
  (4 * unit.nodes.size + 4) * (2 * unit.roots.length + 2)

end Lowering

/-- A lowered unit. -/
structure LoweredUnit where
  file : HostFile
  /-- The declarations in the order of the output. -/
  declarations : List Declaration
  warnings : List Diagnostic
  deriving Inhabited

namespace LoweredUnit

/-- The output that a finished lowering has come to, with markers unless they are suppressed. -/
def ofState (context : Lowering.Context) (s : Lowering.State) : LoweredUnit :=
  let file : HostFile :=
    { package := context.unit.package
      tree := s.tree
      types := s.types
      typeDecls := s.outline.typeOutput
      valueDecls := s.outline.constantOutput
      functionDecls := s.outline.functionOutput
      markers := [] }
  { file := if context.settings.suppressPositionMarkers then file
      else file.annotate context.sources context.settings s.outline.entry
    declarations := s.outline.declarations
    warnings := s.warnings }

end LoweredUnit

/-- Lowers a unit against a world whose registered types are given. A unit with errors has no
output; its diagnostics are all errors and then the warnings. -/
def lowerUnitWith (unit : Surface.SourceUnit) (sources : Sources) (world : World)
    (settings : Settings) (registry : Registry) : Except (List Diagnostic) LoweredUnit :=
  let context : Lowering.Context := ⟨unit, sources, world.env, settings, registry⟩
  let walk := Lowering.walkWithin (Lowering.depthBound unit)
  let (_, s) := Lowering.lowerDeclarations walk unit.roots context
    (Lowering.State.initial unit world.types)
  if s.diagnostics.isEmpty then .ok (.ofState context s)
  else .error (s.diagnostics ++ s.warnings)

/-- Lowers a unit against a world, with the extended numeric types registered. -/
def lowerUnit (unit : Surface.SourceUnit) (sources : Sources) (world : World)
    (settings : Settings) : Except (List Diagnostic) LoweredUnit :=
  lowerUnitWith unit sources world settings (.standard world.types)

end GoLowering
