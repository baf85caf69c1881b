import GoLowering.Host.Syntax
import GoLowering.Types.Spelling

/-!
# Imports

A file imports exactly the packages that its declarations mention, by a qualified name or by
a type.
-/

namespace GoLowering

namespace HostSignature

/-- The types of a signature, parameters first. -/
def types (sig : HostSignature) : List TypeId :=
  (sig.params ++ sig.results).map (·.type)

end HostSignature

namespace HostKind

/-- The nodes that a node refers to. -/
def children : HostKind → List HostId
  | identifier _ | qualified _ _ | literal _ | branch _ _ | typeExpression _
  | typeDecl _ _ _ _ => []
  | composite _ elements => elements.flatMap (fun e => e.key.toList ++ [e.value])
  | functionLiteral _ body => [body]
  | call callee args _ => callee :: args
  | selector object _ => [object]
  | index object i => [object, i]
  | slice object low high max => object :: (low.toList ++ high.toList ++ max.toList)
  | typeAssert object _ => [object]
  | dereference inner | paren inner | expression inner | go inner | defer inner => [inner]
  | unary _ operand => [operand]
  | binary _ left right => [left, right]
  | assign lhs _ rhs => lhs ++ rhs
  | incDec target _ => [target]
  | send channel value => [channel, value]
  | varDecl spec | constDecl spec => spec.values
  | block statements | ret statements => statements
  | ifElse init condition thenBranch elseBranch =>
    init.toList ++ [condition, thenBranch] ++ elseBranch.toList
  | loop init condition post body =>
    init.toList ++ condition.toList ++ post.toList ++ [body]
  | range key value _ source body => key.toList ++ value.toList ++ [source, body]
  | switch init tag cases =>
    init.toList ++ tag.toList ++ cases.flatMap (fun c => c.values.getD [] ++ c.body)
  | typeSwitch init _ subject cases =>
    init.toList ++ [subject] ++ cases.flatMap (·.body)
  | select cases => cases.flatMap (fun c => c.comm.toList ++ c.body)
  | labeled _ body => body.toList
  | function decl => [decl.body]

/-- The types that a node itself mentions. -/
def ownTypes : HostKind → List TypeId
  | composite type _ | typeAssert _ type => type.toList
  | functionLiteral signature _ => signature.types
  | typeExpression type => [type]
  | varDecl spec | constDecl spec => spec.type.toList
  | typeDecl _ definition _ _ => [definition]
  | typeSwitch _ _ _ cases => cases.flatMap (fun c => (c.types.getD []).filterMap id)
  | function decl => (decl.receiver.toList.map (·.type)) ++ decl.signature.types
  | _ => []

/-- The package of a qualified name. -/
def ownPackage? : HostKind → Option String
  | qualified package _ => some package
  | _ => none

end HostKind

namespace HostFile

/-- The packages that a node mentions, in the order they are met, looking at most `depth`
levels down. -/
def packagesWithin (file : HostFile) : Nat → HostId → List String
  | 0, _ => []
  | depth + 1, id =>
    let kind := file.tree.kind id
    kind.ownPackage?.toList ++ kind.ownTypes.flatMap file.types.packages ++
      kind.children.flatMap (file.packagesWithin depth)

/-- Adds a text to a list in ascending order, unless it is there. -/
def insertSorted (text : String) : List String → List String
  | [] => [text]
  | t :: rest =>
    if text == t then t :: rest
    else if text < t then text :: t :: rest
    else t :: insertSorted text rest

/-- The import paths of a file in ascending order. -/
def imports (file : HostFile) : List String :=
  (file.declarations.flatMap (file.packagesWithin (file.tree.size + 1))).foldl
    (fun paths path => insertSorted path paths) []

end HostFile

end GoLowering
