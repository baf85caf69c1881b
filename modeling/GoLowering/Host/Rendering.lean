import GoLowering.Host.Imports
import GoLowering.Settling

/-!
# What is printed of a node

The packages, the types and the nodes that the text of a node shows, in the order of the text, and
which files have a text at all. A text is finite only when no node is printed inside of itself and
no type is written out inside of itself, and only some kinds of nodes are printed on one line.
-/

namespace GoLowering

namespace TypeTable

/-- The type that a signature shows for its last parameter: of a variadic one, what the slice
consists of. -/
def lastWritten (types : TypeTable) (variadic : Bool) (id : TypeId) : TypeId :=
  match types.get id with
  | .slice element => if variadic then element else id
  | _ => id

def writtenParams (types : TypeTable) (variadic : Bool) (params : List TypeId) : List TypeId :=
  params.dropLast ++ params.getLast?.toList.map (types.lastWritten variadic)

def writtenSignature (types : TypeTable) (sig : Signature) : List TypeId :=
  types.writtenParams sig.variadic sig.params ++ sig.results

/-- The methods of an interface. -/
def methodsOf : Ty → List InterfaceMethod
  | .interface methods => methods
  | _ => []

/-- The types that the text of an entry shows. -/
def written (types : TypeTable) : Ty → List TypeId
  | .func sig => types.writtenSignature sig
  | .interface methods =>
    methods.flatMap (fun m => (types.signature? m.sig).toList.flatMap types.writtenSignature)
  | entry => mentioned entry

/-- The types that the declaration of a type shows. Fields and methods stand on their own. -/
def declared (types : TypeTable) (definition : TypeId) : List TypeId :=
  match types.get definition with
  | .struct (_ :: _) | .interface (_ :: _) => types.written (types.get definition)
  | _ => [definition]

/-- A type can be written out. -/
def Renders (types : TypeTable) : TypeId → Prop :=
  Settles (fun id => types.written (types.get id)) (fun id => id.index < types.size)

def isFunction : Ty → Bool
  | .func _ => true
  | _ => false

/-- The interface types of a table give every method a function type. -/
def MethodsAreFunctions (types : TypeTable) : Prop :=
  ∀ entry ∈ types.entries, ∀ method ∈ methodsOf entry, isFunction (types.get method.sig)

end TypeTable

/-- The types that the text of a signature shows. -/
def HostSignature.written (types : TypeTable) (sig : HostSignature) : List TypeId :=
  types.writtenParams sig.variadic (sig.params.map (·.type)) ++ sig.results.map (·.type)

namespace HostKind

/-- A part of the text of a node. -/
inductive Part where
  | package (path : String)
  | type (id : TypeId)
  /-- An expression, or a statement on one line. -/
  | inline (id : HostId)
  /-- A statement on lines of its own. -/
  | statement (id : HostId)
  /-- The statements of a body. -/
  | body (id : HostId)
  deriving DecidableEq, Repr

/-- The parts of the text of a node in order. What follows an `else` is left out. -/
def parts (types : TypeTable) : HostKind → List Part
  | identifier _ | literal _ | branch _ _ => []
  | qualified package _ => [.package package]
  | composite type elements =>
    type.toList.map .type ++ elements.flatMap (fun e => e.key.toList.map .inline ++ [.inline e.value])
  | functionLiteral signature body => (signature.written types).map .type ++ [.body body]
  | call callee args _ => .inline callee :: args.map .inline
  | selector object _ => [.inline object]
  | index object i => [.inline object, .inline i]
  | slice object low high max =>
    .inline object :: (low.toList ++ high.toList ++ max.toList).map .inline
  | typeAssert object type => .inline object :: type.toList.map .type
  | dereference inner | paren inner | expression inner | go inner | defer inner => [.inline inner]
  | unary _ operand => [.inline operand]
  | binary _ left right => [.inline left, .inline right]
  | typeExpression type => [.type type]
  | assign lhs _ rhs => lhs.map .inline ++ rhs.map .inline
  | incDec target _ => [.inline target]
  | send channel value => [.inline channel, .inline value]
  | varDecl spec | constDecl spec => spec.type.toList.map .type ++ spec.values.map .inline
  | typeDecl _ definition _ _ => (types.declared definition).map .type
  | block statements => statements.map .statement
  | ret values => values.map .inline
  | ifElse init condition thenBranch _ =>
    init.toList.map .inline ++ [.inline condition, .body thenBranch]
  | loop init condition post body =>
    (init.toList ++ condition.toList ++ post.toList).map .inline ++ [.body body]
  | range key value _ source body =>
    (key.toList ++ value.toList).map .inline ++ [.inline source, .body body]
  | switch init tag cases =>
    (init.toList ++ tag.toList).map .inline ++
      cases.flatMap (fun c => (c.values.getD []).map .inline ++ c.body.map .statement)
  | typeSwitch init _ subject cases =>
    init.toList.map .inline ++ [.inline subject] ++
      cases.flatMap (fun c =>
        ((c.types.getD []).filterMap id).map .type ++ c.body.map .statement)
  | select cases =>
    cases.flatMap (fun c => c.comm.toList.map .inline ++ c.body.map .statement)
  | labeled _ body => body.toList.map .statement
  | function decl =>
    decl.receiver.toList.map (fun r => .type r.type) ++ (decl.signature.written types).map .type ++
      [.body decl.body]

/-- What follows the `else` of an `if`. -/
def elseBranch? : HostKind → Option HostId
  | ifElse _ _ _ elseBranch => elseBranch
  | _ => none

def isIf : HostKind → Bool
  | ifElse .. => true
  | _ => false

/-- Whether a node fits on one line. The text of any other node has lines of its own. -/
def isInline : HostKind → Bool
  | typeDecl .. | block _ | ifElse .. | loop .. | range .. | switch .. | typeSwitch ..
  | select _ | labeled .. | function _ => false
  | _ => true

end HostKind

namespace HostTree

/-- The nodes that a part shows. -/
def shown (tree : HostTree) : HostKind.Part → List HostId
  | .package _ | .type _ => []
  | .inline id | .statement id => [id]
  | .body id => tree.statements id

/-- The nodes that the text of a node shows. The branch after an `else` is a single node when it is
an `if`, and that node is then its only statement. -/
def printed (tree : HostTree) (types : TypeTable) (id : HostId) : List HostId :=
  ((tree.kind id).parts types).flatMap tree.shown ++
    (tree.kind id).elseBranch?.toList.flatMap tree.statements

/-- A part has a text as far as its own node or type goes. -/
def Suits (tree : HostTree) (types : TypeTable) : HostKind.Part → Prop
  | .package _ | .statement _ => True
  | .type id => types.Renders id
  | .inline id => (tree.kind id).isInline
  | .body id => id.index < tree.size

/-- A node has a text as far as its own parts go. -/
structure IsPrintable (tree : HostTree) (types : TypeTable) (id : HostId) : Prop where
  isNode : id.index < tree.size
  suits : ∀ part ∈ (tree.kind id).parts types, tree.Suits types part
  branch : ∀ branch ∈ (tree.kind id).elseBranch?, branch.index < tree.size

/-- A node has a text. -/
def Renders (tree : HostTree) (types : TypeTable) : HostId → Prop :=
  Settles (tree.printed types) (tree.IsPrintable types)

end HostTree

/-- All declarations of a file have a text. -/
def HostFile.Renders (file : HostFile) : Prop :=
  ∀ id ∈ file.declarations, file.tree.Renders file.types id

/-! ## Deciding what has a text -/

namespace TypeTable

def ids (types : TypeTable) : List TypeId := (List.range types.size).map (⟨·⟩)

theorem length_ids (types : TypeTable) : types.ids.length = types.size := by
  simp [ids]

theorem mem_ids {types : TypeTable} {id : TypeId} (h : id.index < types.size) :
    id ∈ types.ids := by
  simpa [ids] using ⟨id.index, h, rfl⟩

instance (types : TypeTable) (id : TypeId) : Decidable (types.Renders id) :=
  decidable_of_iff _ (settles_iff_within (fun _ => mem_ids)).symm

instance (types : TypeTable) : Decidable types.MethodsAreFunctions :=
  inferInstanceAs (Decidable (∀ entry ∈ types.entries, ∀ method ∈ methodsOf entry,
    isFunction (types.get method.sig)))

end TypeTable

namespace HostTree

def ids (tree : HostTree) : List HostId := (List.range tree.size).map (⟨·⟩)

theorem length_ids (tree : HostTree) : tree.ids.length = tree.size := by
  simp [ids]

theorem mem_ids {tree : HostTree} {id : HostId} (h : id.index < tree.size) : id ∈ tree.ids := by
  simpa [ids] using ⟨id.index, h, rfl⟩

instance (tree : HostTree) (types : TypeTable) : DecidablePred (tree.Suits types) := by
  intro part
  cases part <;> unfold Suits <;> infer_instance

instance (tree : HostTree) (types : TypeTable) : DecidablePred (tree.IsPrintable types) :=
  fun id =>
    decidable_of_iff
      (id.index < tree.size ∧ (∀ part ∈ (tree.kind id).parts types, tree.Suits types part) ∧
        ∀ branch ∈ (tree.kind id).elseBranch?, branch.index < tree.size)
      ⟨fun h => ⟨h.1, h.2.1, h.2.2⟩, fun h => ⟨h.isNode, h.suits, h.branch⟩⟩

theorem renders_iff_within {tree : HostTree} {types : TypeTable} {id : HostId} :
    tree.Renders types id ↔
      SettlesWithin (tree.printed types) (tree.IsPrintable types) tree.size id := by
  rw [← length_ids]
  exact settles_iff_within (fun _ h => mem_ids h.isNode)

instance (tree : HostTree) (types : TypeTable) (id : HostId) :
    Decidable (tree.Renders types id) :=
  decidable_of_iff _ renders_iff_within.symm

end HostTree

instance (file : HostFile) : Decidable file.Renders :=
  inferInstanceAs (Decidable (∀ id ∈ file.declarations, file.tree.Renders file.types id))

end GoLowering
