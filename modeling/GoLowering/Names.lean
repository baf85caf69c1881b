import GoLowering.Text.Uppercase

/-!
# Names in generated code

The reserved names that generated code introduces, and the rules of export by case.
-/

namespace GoLowering.Names

def result : String := "_gop_ret"
def err : String := "_gop_err"
def ok : String := "_gop_ok"
def iterator : String := "_gop_it"
def temporaryStem : String := "_autoGo_"
def enumMethod : String := "Gop_Enum"
def nextMethod : String := "Next"
def blank : String := "_"

/-- The names of the results of a closure: `_gop_ret`, `_gop_ret2`, `_gop_ret3`, … -/
def resultAt (index : Nat) : String :=
  if index == 0 then result else result ++ toString (index + 1)

/-- The temporaries of a function: `_autoGo_1`, `_autoGo_2`, … -/
def temporary (number : Nat) : String :=
  temporaryStem ++ toString number

def capitalize (name : String) : String :=
  match name.toList with
  | [] => ""
  | c :: rest => String.ofList (Uppercase.upper c ++ rest)

def isExported (name : String) : Bool :=
  match name.toList with
  | [] => false
  | c :: _ => Uppercase.isUpper c

end GoLowering.Names
