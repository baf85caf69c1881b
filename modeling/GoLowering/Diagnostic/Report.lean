import GoLowering.Diagnostic.Basic
import GoLowering.Text.Json

/-!
# Reports

A diagnostic as several lines of text: a header, the place, the line of source with carets
below it, then labels and notes. Parts may be painted for a terminal; padding is part of
what is painted.
-/

namespace GoLowering.Report

inductive Color where
  | red | yellow | blue | cyan
  deriving DecidableEq, Repr

def Color.parameter : Color → String
  | red => "31" | yellow => "33" | blue => "34" | cyan => "36"

def reset : List Char := ['\x1b', '[', '0', 'm']

/-- The control sequence that turns on bold face, in a color if there is one. -/
def boldOn (color : Option Color) : List Char :=
  let parameters := match color with
    | some c => "1;" ++ c.parameter
    | none => "1"
  ['\x1b', '['] ++ parameters.toList ++ ['m']

/-- Turns the face on again after every reset inside of a text. -/
def resume (on : List Char) : List Char → List Char
  | '\x1b' :: '[' :: '0' :: 'm' :: rest => reset ++ on ++ resume on rest
  | c :: rest => c :: resume on rest
  | [] => []

/-- How bold text is written: in plain reports as it is. -/
structure Style where
  painted : Bool

namespace Style

def bold (style : Style) (color : Option Color) (width : Nat) (text : String) : String :=
  let pad (cs : List Char) : List Char :=
    cs ++ List.replicate (width - cs.length) ' '
  if style.painted then
    let on := boldOn color
    String.ofList (on ++ pad (resume on text.toList) ++ reset)
  else
    String.ofList (pad text.toList)

end Style

/-- The lines of a text. A line break at the end opens no further line; a carriage return
is dropped where it stands before a newline. -/
def lines (cs : List Char) : List (List Char) :=
  let parts := Source.fields '\n' cs
  let chomp (line : List Char) : List Char :=
    if line.getLast? == some '\r' then line.dropLast else line
  let last := parts.getLast?.getD []
  parts.dropLast.map chomp ++ (if last.isEmpty then [] else [last])

def color : Severity → Color
  | .info => .blue
  | .warning => .yellow
  | .error => .red
  | .hint => .cyan

def header (style : Style) (d : Diagnostic) : String :=
  let painted := style.bold (some (color d.severity)) 0
  painted d.severity.title ++ "[" ++ painted d.code ++ "]: " ++ style.bold none 0 d.message ++
    "\n"

/-- The number of a line, a bar, and the text behind it. -/
def numbered (style : Style) (number : String) (text : String) : String :=
  style.bold (some .blue) 3 number ++ style.bold (some .blue) 3 "|" ++ text ++ "\n"

/-- A bar below a line of source, and the text behind it. -/
def unnumbered (style : Style) (text : String) : String :=
  "   " ++ style.bold (some .blue) 3 "|" ++ text ++ "\n"

/-- Source lines are counted from one; line zero shows the first one too. -/
def lineAt? (source : List (List Char)) (line : Nat) : Option (List Char) :=
  source[line - 1]?

def labelText (style : Style) (sources : Sources) (source : List (List Char))
    (label : Label) : String :=
  match sources.file? label.span.file with
  | none => ""
  | some f =>
    let (line, column) := f.lineColumn label.span.start
    "  " ++ style.bold (some .yellow) 0 "label:" ++ " " ++ label.message ++ "\n" ++
      match lineAt? source line with
      | none => ""
      | some text =>
        numbered style (toString line) (String.ofList text) ++
          unnumbered style
            (Sources.repeated (column - 1) ' ' ++ style.bold (some .yellow) 0 "^")

/-- The place, the source line and the labels, for a diagnostic in a known file. -/
def body (style : Style) (sources : Sources) (d : Diagnostic) (f : SourceFile) : String :=
  let (line, column) := f.lineColumn d.span.start
  let (endLine, endColumn) := f.lineColumn d.span.stop
  let strong := style.bold none 0
  let place :=
    "  " ++ style.bold (some .blue) 0 "-->" ++ " " ++ strong f.name ++ ":" ++
      strong (toString line) ++ ":" ++ strong (toString column) ++ "\n"
  let source := lines f.chars
  let excerpt :=
    match lineAt? source line with
    | none => ""
    | some text =>
      let width :=
        if line == endLine then max (endColumn - column) 1
        else max (Source.byteLength text - column) 1
      numbered style (toString line) (String.ofList text) ++
        unnumbered style
          (Sources.repeated (column - 1) ' ' ++
            style.bold (some .red) 0 (Sources.repeated width '^'))
  place ++ unnumbered style "" ++ excerpt ++
    String.join (d.labels.map (labelText style sources source))

def noteText (style : Style) (note : String) : String :=
  "  " ++ style.bold (some .cyan) 0 "note:" ++ " " ++ note ++ "\n"

/-- The whole report of a diagnostic, with an empty line at its end. -/
def text (style : Style) (sources : Sources) (d : Diagnostic) : String :=
  header style d ++
    ((sources.file? d.span.file).map (body style sources d)).getD "" ++
    String.join (d.notes.map (noteText style)) ++ "\n"

end GoLowering.Report

/-!
## Diagnostic records

Diagnostics with their place worked out, for tools: as one line of text and as JSON.
-/

namespace GoLowering

structure DiagnosticRecord where
  severity : Severity
  category : Category
  code : String
  file : String
  line : Nat
  column : Nat
  message : String
  /-- The text that the diagnostic points at. -/
  sourceText : String
  deriving DecidableEq, Repr, Inhabited

namespace DiagnosticRecord

/-- Works out the place of a diagnostic. An unknown file has no name and no lines. -/
def ofDiagnostic (sources : Sources) (d : Diagnostic) : DiagnosticRecord :=
  let (line, column) := sources.lineColumn d.span.file d.span.start
  { severity := d.severity
    category := d.category
    code := d.code
    file := ((sources.file? d.span.file).map (·.name)).getD ""
    line
    column
    message := d.message
    sourceText := sources.slice d.span }

def text (r : DiagnosticRecord) : String :=
  r.file ++ ":" ++ toString r.line ++ ":" ++ toString r.column ++ ": " ++
    r.severity.name ++ "[" ++ r.code ++ "]: " ++ r.message

def toJson (r : DiagnosticRecord) : Json :=
  .object
    [("severity", .string r.severity.name), ("category", .string r.category.name),
      ("code", .string r.code), ("file", .string r.file), ("line", .number r.line),
      ("column", .number r.column), ("message", .string r.message),
      ("source_text", .string r.sourceText)]

def listText (records : List DiagnosticRecord) : String :=
  (Json.array (records.map toJson)).pretty

end DiagnosticRecord

end GoLowering
