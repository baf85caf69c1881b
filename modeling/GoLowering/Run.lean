import GoLowering.Diagnostic.Report
import GoLowering.Host.Printer
import GoLowering.Lowering.Unit

/-!
# Runs

A unit lowered and printed, with summaries of its declarations for tools, and the files that
a run leaves behind for inspection on request, and the ways in which a run can fail around the
lowering of its unit.
-/

namespace GoLowering

/-! ## Failures -/

/-- Settings that cannot be read, understood or written. The message is the reason. -/
inductive SettingsError where
  | unreadable (path message : String)
  | malformed (message : String)
  | unwritable (message : String)
  deriving DecidableEq, Repr

def SettingsError.text : SettingsError → String
  | unreadable path message => "cannot read config '" ++ path ++ "': " ++ message
  | malformed message => "invalid config: " ++ message
  | unwritable message => "cannot serialize config: " ++ message

inductive RunError where
  | settings (error : SettingsError)
  | unwritable (path message : String)
  | lowering (records : List DiagnosticRecord)
  | dump (message : String)
  deriving DecidableEq, Repr

def RunError.text : RunError → String
  | settings error => error.text
  | unwritable path message => "cannot write '" ++ path ++ "': " ++ message
  | lowering records =>
    "lowering failed with " ++ toString (records.countP (·.severity == .error)) ++ " error(s)"
  | dump message => message

/-- The diagnostics behind a failure. -/
def RunError.records : RunError → List DiagnosticRecord
  | lowering records => records
  | _ => []

/-! ## Summaries -/

/-- A declaration as tools are told about it. -/
structure DeclarationSummary where
  name : String
  kind : DeclKind
  receiver : Option String
  /-- The line it is written on, or 0 where there is none. -/
  line : Nat
  synthesized : Bool
  deriving DecidableEq, Repr, Inhabited

namespace DeclarationSummary

def ofDeclaration (sources : Sources) (d : Declaration) : DeclarationSummary where
  name := d.name
  kind := d.kind
  receiver := d.receiver
  line :=
    if !d.span.isSynthetic && sources.contains d.span.file then
      (sources.lineColumn d.span.file d.span.start).1
    else 0
  synthesized := d.synthesized

def toJson (s : DeclarationSummary) : Json :=
  .object
    ([("name", .string s.name), ("kind", .string s.kind.name)] ++
      (match s.receiver with
        | some receiver => [("receiver", .string receiver)]
        | none => []) ++
      [("line", .number s.line), ("synthesized", .bool s.synthesized)])

def listText (summaries : List DeclarationSummary) : String :=
  (Json.array (summaries.map toJson)).pretty

end DeclarationSummary

namespace LoweredUnit

def summaries (unit : LoweredUnit) (sources : Sources) : List DeclarationSummary :=
  unit.declarations.map (.ofDeclaration sources)

end LoweredUnit

/-- A view of a finished run that can be left in a file. -/
inductive Dump where
  | host
  | declarations
  | lineMap
  deriving DecidableEq, Repr, Inhabited

namespace Dump

def name : Dump → String
  | host => "host"
  | declarations => "decls"
  | lineMap => "linemap"

def ofName? (text : String) : Option Dump :=
  [host, declarations, lineMap].find? (·.name == text)

def fileName : Dump → String
  | host => "dump-host.go"
  | declarations => "dump-decls.json"
  | lineMap => "dump-linemap.txt"

/-- What is left in the file. -/
def text (sources : Sources) (unit : LoweredUnit) : Dump → String
  | host => unit.file.print
  | declarations => DeclarationSummary.listText (unit.summaries sources)
  | lineMap => unit.file.markers.table

end Dump

/-- What a successful run leaves. -/
structure RunOutput where
  /-- The text of the lowered unit. -/
  source : String
  declarations : List DeclarationSummary
  warnings : List DiagnosticRecord
  /-- The files that were asked for. -/
  dumps : Keyed String String
  deriving Inhabited

/-- Lowers and prints a unit. A kind of dump that is asked for twice is written twice. -/
def run (unit : Surface.SourceUnit) (sources : Sources) (world : World) (settings : Settings)
    (dumps : List Dump) : Except RunError RunOutput :=
  match lowerUnit unit sources world settings with
  | .error diagnostics =>
    .error (.lowering (diagnostics.map (DiagnosticRecord.ofDiagnostic sources)))
  | .ok lowered =>
    .ok
      { source := lowered.file.print
        declarations := lowered.summaries sources
        warnings := lowered.warnings.map (DiagnosticRecord.ofDiagnostic sources)
        dumps := dumps.foldl (fun files dump =>
          files.set dump.fileName (dump.text sources lowered)) [] }

end GoLowering
