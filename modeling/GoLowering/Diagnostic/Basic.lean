import GoLowering.Source.Basic

/-!
# Diagnostics

What can be wrong with a unit, and the diagnostic each problem is reported as. A problem
fixes the code, the class, the severity, the wording, and the labels and notes that go with
it; where it was found is added when it is reported.
-/

namespace GoLowering

inductive Severity where
  | info | warning | error | hint
  deriving DecidableEq, Repr, Inhabited

namespace Severity

def name : Severity → String
  | info => "info" | warning => "warning" | error => "error" | hint => "hint"

def title : Severity → String
  | info => "Info" | warning => "Warning" | error => "Error" | hint => "Hint"

end Severity

/-- The classes of failure. -/
inductive Category where
  | unresolvedReference
  | typeMismatch
  | ambiguousInference
  | unsupportedConstruct
  | redeclarationConflict
  /-- Accepted input with a caveat. -/
  | limitation
  deriving DecidableEq, Repr, Inhabited

def Category.name : Category → String
  | unresolvedReference => "UnresolvedReference"
  | typeMismatch => "TypeMismatch"
  | ambiguousInference => "AmbiguousInference"
  | unsupportedConstruct => "UnsupportedConstruct"
  | redeclarationConflict => "RedeclarationConflict"
  | limitation => "Limitation"

/-- What can be wrong with a unit. Types are given by their text. -/
inductive Problem where
  | undeclaredName (name : String)
  | unknownMember (owner name : String)
  | typeMismatch (expected got : String)
  | literalClassConflict (shape element : String)
  | argumentCountMismatch (expected got : Nat)
  | assignmentCountMismatch (left right : Nat)
  | lambdaArityMismatch (expected got : Nat)
  | resultCountMismatch (expected got : Nat)
  | notCallable (text : String)
  | missingErrorResult (text : String)
  | returnWrapOutsideErrorFunction
  | notAType (name : String)
  | notAValue (name : String)
  | constantOverflow (text : String)
  | invalidOperation (operator type : String)
  | noNewVariables
  | lambdaWithoutContext
  | emptyLiteralWithoutContext
  | untypedNil
  | notEnumerable (type : String)
  | unsupportedConstruct (what : String)
  | yieldOverPushIterator
  | rangeAssignOverIterator
  | redeclared (name : String) (previous : Span)
  | duplicateEntry (name : String) (previous : Span)
  | statementsWithExplicitEntry (name : String) (entry : Span)
  | initializationCycle (name : String)
  | loopControlInCallback (keyword : String)
  deriving DecidableEq, Repr, Inhabited

structure Label where
  span : Span
  message : String
  deriving DecidableEq, Repr, Inhabited

structure Diagnostic where
  severity : Severity
  category : Category
  code : String
  message : String
  span : Span
  labels : List Label
  notes : List String
  deriving DecidableEq, Repr, Inhabited

namespace Problem

def message : Problem → String
  | undeclaredName name => "undefined: " ++ name
  | unknownMember owner name =>
    owner ++ "." ++ name ++ " undefined (no field, method or accessor named " ++ name ++ ")"
  | typeMismatch expected got => "cannot use value of type " ++ got ++ " as " ++ expected
  | literalClassConflict shape element =>
    "literal element of type " ++ element ++ " does not fit " ++ shape
  | argumentCountMismatch expected got =>
    "wrong argument count: expected " ++ toString expected ++ ", got " ++ toString got
  | assignmentCountMismatch left right =>
    "assignment mismatch: " ++ toString left ++ " variables but " ++ toString right ++
      " values"
  | lambdaArityMismatch expected got =>
    "lambda has " ++ toString got ++ " parameters, its expected type takes " ++
      toString expected
  | resultCountMismatch expected got =>
    "expected " ++ toString expected ++ " results, got " ++ toString got
  | notCallable text => text ++ " is not callable"
  | missingErrorResult text => text ++ " does not return an error as its last result"
  | returnWrapOutsideErrorFunction =>
    "'?' used in a function whose last result is not error"
  | notAType name => name ++ " is not a type"
  | notAValue name => name ++ " is not a value"
  | constantOverflow text => "constant " ++ text ++ " overflows"
  | invalidOperation operator type =>
    "invalid operation: operator " ++ operator ++ " not defined on " ++ type
  | noNewVariables => "no new variables on left side of :="
  | lambdaWithoutContext => "cannot infer lambda type without an expected function type"
  | emptyLiteralWithoutContext =>
    "cannot infer the type of an empty literal without context"
  | untypedNil => "use of untyped nil"
  | notEnumerable type => "cannot range over value of type " ++ type
  | unsupportedConstruct what => "unsupported construct: " ++ what
  | yieldOverPushIterator => "exists/select comprehension over a callback-style iterator"
  | rangeAssignOverIterator => "range with '=' over a user-defined iterator"
  | redeclared name _ => name ++ " redeclared in this block"
  | duplicateEntry name _ => "func " ++ name ++ " declared more than once"
  | statementsWithExplicitEntry name _ =>
    "top-level statements conflict with the declared func " ++ name
  | initializationCycle name => "initialization cycle for " ++ name
  | loopControlInCallback keyword =>
    keyword ++ " inside a callback-style iteration body does not affect the loop"

def code : Problem → String
  | undeclaredName .. => "K0001"
  | unknownMember .. => "K0002"
  | typeMismatch .. => "K0100"
  | literalClassConflict .. => "K0101"
  | argumentCountMismatch .. => "K0102"
  | assignmentCountMismatch .. => "K0103"
  | lambdaArityMismatch .. => "K0104"
  | resultCountMismatch .. => "K0105"
  | notCallable .. => "K0106"
  | missingErrorResult .. => "K0107"
  | returnWrapOutsideErrorFunction => "K0108"
  | notAType .. => "K0109"
  | notAValue .. => "K0110"
  | constantOverflow .. => "K0111"
  | invalidOperation .. => "K0112"
  | noNewVariables => "K0113"
  | lambdaWithoutContext => "K0200"
  | emptyLiteralWithoutContext => "K0201"
  | untypedNil => "K0202"
  | notEnumerable .. => "K0300"
  | unsupportedConstruct .. => "K0301"
  | yieldOverPushIterator => "K0302"
  | rangeAssignOverIterator => "K0303"
  | redeclared .. => "K0400"
  | duplicateEntry .. => "K0401"
  | statementsWithExplicitEntry .. => "K0402"
  | initializationCycle .. => "K0403"
  | loopControlInCallback .. => "K0900"

def category : Problem → Category
  | undeclaredName .. | unknownMember .. => .unresolvedReference
  | lambdaWithoutContext | emptyLiteralWithoutContext | untypedNil => .ambiguousInference
  | notEnumerable .. | unsupportedConstruct .. | yieldOverPushIterator
  | rangeAssignOverIterator => .unsupportedConstruct
  | redeclared .. | duplicateEntry .. | statementsWithExplicitEntry ..
  | initializationCycle .. => .redeclarationConflict
  | loopControlInCallback .. => .limitation
  | _ => .typeMismatch

def severity : Problem → Severity
  | loopControlInCallback .. => .warning
  | _ => .error

def labels : Problem → List Label
  | redeclared _ previous | duplicateEntry _ previous =>
    [⟨previous, "previous declaration here"⟩]
  | statementsWithExplicitEntry _ entry => [⟨entry, "entry function declared here"⟩]
  | _ => []

def notes : Problem → List String
  | notEnumerable .. =>
    ["a user type is enumerable through Gop_Enum(func(...)) or Gop_Enum() returning a " ++
      "cursor with Next()"]
  | loopControlInCallback .. =>
    ["the loop body runs as a callback; return from it to skip an element"]
  | _ => []

/-- The diagnostic of a problem found at a span. -/
def report (p : Problem) (span : Span) : Diagnostic where
  severity := p.severity
  category := p.category
  code := p.code
  message := p.message
  span := span
  labels := p.labels
  notes := p.notes

end Problem

namespace Diagnostic

def isError (d : Diagnostic) : Bool := d.severity == .error

def withNote (d : Diagnostic) (note : String) : Diagnostic :=
  { d with notes := d.notes ++ [note] }

end Diagnostic

end GoLowering
