/-!
# Operators

The binary and unary operators shared by the surface and the host language, their
spelling, their binding strength, and the names of the methods that stand for them on
registered numeric types.
-/

namespace GoLowering

inductive BinaryOp where
  | add | sub | mul | div | mod
  | bitAnd | bitOr | bitXor | bitClear | shiftLeft | shiftRight
  | and | or
  | equal | notEqual | less | lessEqual | greater | greaterEqual
  deriving DecidableEq, Repr

inductive UnaryOp where
  | not | negate | plus | bitNot | addressOf | receive
  deriving DecidableEq, Repr

namespace BinaryOp

def symbol : BinaryOp → String
  | add => "+" | sub => "-" | mul => "*" | div => "/" | mod => "%"
  | bitAnd => "&" | bitOr => "|" | bitXor => "^" | bitClear => "&^"
  | shiftLeft => "<<" | shiftRight => ">>"
  | and => "&&" | or => "||"
  | equal => "==" | notEqual => "!="
  | less => "<" | lessEqual => "<=" | greater => ">" | greaterEqual => ">="

def all : List BinaryOp :=
  [add, sub, mul, div, mod, bitAnd, bitOr, bitXor, bitClear, shiftLeft, shiftRight,
    and, or, equal, notEqual, less, lessEqual, greater, greaterEqual]

def ofSymbol? (text : String) : Option BinaryOp :=
  all.find? (·.symbol == text)

def isComparison : BinaryOp → Bool
  | equal | notEqual | less | lessEqual | greater | greaterEqual => true
  | _ => false

def isLogical : BinaryOp → Bool
  | and | or => true
  | _ => false

def isShift : BinaryOp → Bool
  | shiftLeft | shiftRight => true
  | _ => false

/-- Binding strength from 1 to 5; 5 binds tightest. -/
def precedence : BinaryOp → Nat
  | mul | div | mod | shiftLeft | shiftRight | bitAnd | bitClear => 5
  | add | sub | bitOr | bitXor => 4
  | equal | notEqual | less | lessEqual | greater | greaterEqual => 3
  | and => 2
  | or => 1

/-- The method that stands for the operator on a registered numeric type. -/
def method? : BinaryOp → Option String
  | add => some "Gop_Add"
  | sub => some "Gop_Sub"
  | mul => some "Gop_Mul"
  | div => some "Gop_Quo"
  | mod => some "Gop_Rem"
  | bitAnd => some "Gop_And"
  | bitOr => some "Gop_Or"
  | bitXor => some "Gop_Xor"
  | bitClear => some "Gop_AndNot"
  | shiftLeft => some "Gop_Lsh"
  | shiftRight => some "Gop_Rsh"
  | less => some "Gop_LT"
  | lessEqual => some "Gop_LE"
  | greater => some "Gop_GT"
  | greaterEqual => some "Gop_GE"
  | equal => some "Gop_EQ"
  | notEqual => some "Gop_NE"
  | and | or => none

/-- The method that stands for `x op= y`; comparisons have none. -/
def assignMethod? (op : BinaryOp) : Option String :=
  if op.isComparison then none else op.method?.map (· ++ "Assign")

theorem one_le_precedence (op : BinaryOp) : 1 ≤ op.precedence := by
  cases op <;> decide

theorem precedence_le_five (op : BinaryOp) : op.precedence ≤ 5 := by
  cases op <;> decide

@[simp] theorem ofSymbol?_symbol (op : BinaryOp) : ofSymbol? op.symbol = some op := by
  cases op <;> decide

end BinaryOp

namespace UnaryOp

def symbol : UnaryOp → String
  | not => "!" | negate => "-" | plus => "+" | bitNot => "^"
  | addressOf => "&" | receive => "<-"

def all : List UnaryOp := [not, negate, plus, bitNot, addressOf, receive]

def ofSymbol? (text : String) : Option UnaryOp :=
  all.find? (·.symbol == text)

/-- The binary operator with the same spelling: `a -b` can mean `a - b`. -/
def asBinary? : UnaryOp → Option BinaryOp
  | negate => some .sub
  | plus => some .add
  | bitNot => some .bitXor
  | addressOf => some .bitAnd
  | not | receive => none

/-- The method that stands for the operator on a registered numeric type. -/
def method? : UnaryOp → Option String
  | negate => some "Gop_Neg"
  | plus => some "Gop_Dup"
  | bitNot => some "Gop_Not"
  | _ => none

@[simp] theorem ofSymbol?_symbol (op : UnaryOp) : ofSymbol? op.symbol = some op := by
  cases op <;> decide

end UnaryOp

end GoLowering
