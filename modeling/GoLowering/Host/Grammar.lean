import GoLowering.Host.Syntax
import GoLowering.Types.Spelling

/-!
# Grammar of host expressions

The tokens of an expression and how the host language reads them: binary operators on five levels,
each of which associates to the left, unary operators above them, and selectors, indexes and calls
above those. Parentheses group what is between them and leave no trace in what is read.

A member of a package reads like a selection from the name that the package goes by: what a name
stands for is no question of grammar.
-/

namespace GoLowering

/-- An expression with its operands in place. -/
inductive HostExpr where
  | name (text : String)
  | literal (text : String)
  | selector (object : HostExpr) (name : String)
  | index (object index : HostExpr)
  | call (callee : HostExpr) (args : List HostExpr)
  | dereference (operand : HostExpr)
  | unary (op : UnaryOp) (operand : HostExpr)
  | binary (op : BinaryOp) (left right : HostExpr)
  deriving Repr, Inhabited

/-- The expression that a node stands for, parentheses apart. Only finite trees of names, members
of packages, literals, selectors, indexes, calls and operators stand for one. -/
inductive HostTree.Shows (tree : HostTree) : HostId → HostExpr → Prop
  | name {id : HostId} {text : String} (h : tree.kind id = .identifier text) :
    Shows tree id (.name text)
  | member {id : HostId} {package text : String} (h : tree.kind id = .qualified package text) :
    Shows tree id (.selector (.name (packageName package)) text)
  | literal {id : HostId} {text : String} (h : tree.kind id = .literal text) :
    Shows tree id (.literal text)
  | selector {id object : HostId} {text : String} {o : HostExpr}
    (h : tree.kind id = .selector object text) (ho : Shows tree object o) :
    Shows tree id (.selector o text)
  | index {id object index : HostId} {o i : HostExpr} (h : tree.kind id = .index object index)
    (ho : Shows tree object o) (hi : Shows tree index i) : Shows tree id (.index o i)
  | call {id callee : HostId} {args : List HostId} {f : HostExpr} {es : List HostExpr}
    (h : tree.kind id = .call callee args false) (hf : Shows tree callee f)
    (hlength : args.length = es.length) (hes : ∀ p ∈ args.zip es, Shows tree p.1 p.2) :
    Shows tree id (.call f es)
  | dereference {id operand : HostId} {e : HostExpr} (h : tree.kind id = .dereference operand)
    (he : Shows tree operand e) : Shows tree id (.dereference e)
  | unary {id operand : HostId} {op : UnaryOp} {e : HostExpr}
    (h : tree.kind id = .unary op operand) (he : Shows tree operand e) :
    Shows tree id (.unary op e)
  | binary {id left right : HostId} {op : BinaryOp} {a b : HostExpr}
    (h : tree.kind id = .binary op left right) (ha : Shows tree left a)
    (hb : Shows tree right b) : Shows tree id (.binary op a b)
  | paren {id inner : HostId} {e : HostExpr} (h : tree.kind id = .paren inner)
    (he : Shows tree inner e) : Shows tree id e

/-! ## Tokens -/

inductive Token where
  | name (text : String)
  | literal (text : String)
  /-- Binary and unary operators have the same tokens. -/
  | operator (symbol : String)
  | dot | comma
  | openParen | closeParen
  | openBracket | closeBracket
  deriving DecidableEq, Repr

namespace Token

def text : Token → String
  | name text | literal text | operator text => text
  | dot => "." | comma => ","
  | openParen => "(" | closeParen => ")"
  | openBracket => "[" | closeBracket => "]"

def isOperator : Token → Bool
  | operator _ => true
  | _ => false

def isWord : Token → Bool
  | name _ | literal _ => true
  | _ => false

def binary (op : BinaryOp) : Token := .operator op.symbol

def unary (op : UnaryOp) : Token := .operator op.symbol

/-- The token of a dereference is the one of a multiplication. -/
def star : Token := .operator "*"

end Token

/-! ## Reading -/

/-- What tokens read as at a level: 1 to 5 are the levels of the binary operators, 6 is the one of
unary operators, and 7 the one of operands with selectors, indexes and calls after them. -/
inductive Token.Reads : Nat → List Token → HostExpr → Prop
  | name (text : String) : Reads 7 [.name text] (.name text)
  | literal (text : String) : Reads 7 [.literal text] (.literal text)
  | paren {ts : List Token} {e : HostExpr} (h : Reads 1 ts e) :
    Reads 7 (.openParen :: ts ++ [.closeParen]) e
  | selector {ts : List Token} {o : HostExpr} (text : String) (h : Reads 7 ts o) :
    Reads 7 (ts ++ [.dot, .name text]) (.selector o text)
  | index {ts us : List Token} {o i : HostExpr} (ho : Reads 7 ts o) (hi : Reads 1 us i) :
    Reads 7 (ts ++ .openBracket :: us ++ [.closeBracket]) (.index o i)
  | call {ts : List Token} {f : HostExpr} {args : List (List Token × HostExpr)} (hf : Reads 7 ts f)
    (hargs : ∀ p ∈ args, Reads 1 p.1 p.2) :
    Reads 7 (ts ++ .openParen :: List.intercalate [.comma] (args.map (·.1)) ++ [.closeParen])
      (.call f (args.map (·.2)))
  | dereference {ts : List Token} {e : HostExpr} (h : Reads 6 ts e) :
    Reads 6 (.star :: ts) (.dereference e)
  | unary {ts : List Token} {e : HostExpr} (op : UnaryOp) (h : Reads 6 ts e) :
    Reads 6 (.unary op :: ts) (.unary op e)
  | binary {ts us : List Token} {a b : HostExpr} (op : BinaryOp) (ha : Reads op.precedence ts a)
    (hb : Reads (op.precedence + 1) us b) :
    Reads op.precedence (ts ++ .binary op :: us) (.binary op a b)
  | tighter {level : Nat} {ts : List Token} {e : HostExpr} (hlevel : 1 ≤ level ∧ level ≤ 6)
    (h : Reads (level + 1) ts e) : Reads level ts e

end GoLowering
