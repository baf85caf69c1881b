import GoLowering.Host.Printer
import GoLowering.Proofs.ExpressionGrammar
import GoLowering.Proofs.ScannedTokens
import GoLowering.Proofs.Outcomes

/-!
# Printed expressions read back

The text of an expression consists of tokens that read as the expression again, and as nothing
else. Where parentheses are put decides how they read: an operand of a binary operator has the level
that its side asks for (`binaryOperand_printed`), and what a selector, an index, a call or a unary
operator applies to has the highest level (`postfixOperand_printed`). Whether a scanner finds these
tokens in the text is up to the texts of the nodes (`reads_printed_iff`).
-/

namespace GoLowering

namespace Token

/-! ## Tokens laid out -/

theorem touches_of_isMark_left {t u : Token} (h : t.isMark) : t.touches u := by
  cases t <;> first | rfl | cases h

theorem touches_of_isMark_right {t u : Token} (h : u.isMark) : t.touches u := by
  cases t <;> cases u <;> first | rfl | cases h

/-- A point can stand right after what ends an expression. -/
theorem touches_dot {t : Token} (h : t.ends) : t.touches .dot := by
  cases t <;> first | rfl | cases h

/-- An operator can stand right before what an operand begins with. -/
theorem touches_operator {symbol : String} {ts : List Token} {e : HostExpr} {u : Token}
    (h : Reads 7 ts e) (hu : u ∈ ts.head?) : (Token.operator symbol).touches u := by
  obtain ⟨t, us, rfl, ht⟩ := h.begins
  obtain rfl : t = u := by simpa using hu
  cases t <;> first | rfl | cases ht

theorem Reads.head_ne_dot {level : Nat} {ts : List Token} {e : HostExpr} (h : Reads level ts e) :
    ∀ t ∈ ts.head?, t ≠ .dot := by
  obtain ⟨t, us, rfl, ht⟩ := h.begins
  rintro _ ⟨⟩ rfl
  cases ht

namespace Laid

variable {t : Token} {ts us : List Token} {a b : String}

theorem single (t : Token) : Laid [t] t.text := by
  have h : Laid [t] (t.text ++ "") := .touching (by simp) .nil
  simpa using h

theorem append (hts : Laid ts a) (hus : Laid us b)
    (h : ∀ t ∈ ts.getLast?, ∀ u ∈ us.head?, t.touches u) : Laid (ts ++ us) (a ++ b) := by
  induction hts with
  | nil => simpa using hus
  | @touching t ts text htouches _ ih =>
    rw [List.cons_append, String.append_assoc]
    cases ts with
    | nil =>
      refine .touching (fun u hu => h t (by simp) u (by simpa using hu)) (ih (by simp))
    | cons u ts => exact .touching (by simpa using htouches) (ih (by simpa using h))
  | @apart t u ts text hu _ ih =>
    rw [List.cons_append, String.append_assoc]
    exact .apart hu (ih (by simpa using h))

/-- A blank keeps any two tokens apart. -/
theorem append_blank (hts : Laid ts a) (hus : Laid us b) (hne : ts ≠ []) (hne' : us ≠ [])
    (hdot : ∀ u ∈ us.head?, u ≠ .dot) : Laid (ts ++ us) (a ++ " " ++ b) := by
  induction hts with
  | nil => exact absurd rfl hne
  | @touching t ts text htouches htext ih =>
    rw [List.cons_append]
    cases ts with
    | nil =>
      cases htext
      obtain ⟨u, us, rfl⟩ := List.exists_cons_of_ne_nil hne'
      simpa using Laid.apart (t := t) (hdot u rfl) hus
    | cons u ts =>
      rw [show t.text ++ text ++ " " ++ b = t.text ++ (text ++ " " ++ b) by
        simp only [String.append_assoc]]
      exact .touching (by simpa using htouches) (ih (by simp))
  | @apart t u ts text hu _ ih =>
    rw [List.cons_append, show t.text ++ " " ++ text ++ " " ++ b =
      t.text ++ " " ++ (text ++ " " ++ b) by simp only [String.append_assoc]]
    exact .apart hu (ih (by simp))

/-- A mark can stand right after any token. -/
theorem mark {u : Token} (hts : Laid ts a) (hu : u.isMark) : Laid (ts ++ [u]) (a ++ u.text) := by
  refine hts.append (.single u) (fun t _ v hv => ?_)
  obtain rfl : u = v := by simpa using hv
  exact touches_of_isMark_right hu

/-- Any token can stand right after a mark. -/
theorem append_of_mark {u : Token} (hts : Laid (ts ++ [u]) a) (hus : Laid us b) (hu : u.isMark) :
    Laid (ts ++ [u] ++ us) (a ++ b) := by
  refine hts.append hus (fun t ht v _ => ?_)
  obtain rfl : u = t := by simpa using ht
  exact touches_of_isMark_left hu

/-- A name that is selected from an expression. -/
theorem selector {e : HostExpr} {text : String} (hts : Laid ts a) (hreads : Reads 7 ts e) :
    Laid (ts ++ [.dot, .name text]) (a ++ "." ++ text) := by
  have hname : Laid [Token.dot, .name text] ("." ++ text) :=
    .touching (by simp [touches]) (.single (.name text))
  rw [String.append_assoc]
  refine hts.append hname (fun t ht u hu => ?_)
  obtain ⟨t', ht', hends⟩ := hreads.ends
  obtain rfl : t' = t := Option.some.inj (ht'.symm.trans ht)
  obtain rfl : Token.dot = u := Option.some.inj hu
  exact touches_dot hends

end Laid

/-- An expression of a level can stand where a lower level is asked for. -/
theorem Reads.loosen {high low : Nat} {ts : List Token} {e : HostExpr} (h : Reads high ts e)
    (hlow : 1 ≤ low) (hle : low ≤ high) (hhigh : high ≤ 7) : Reads low ts e := by
  obtain ⟨k, rfl⟩ := Nat.exists_eq_add_of_le hle
  induction k with
  | zero => exact h
  | succ k ih => exact ih (.tighter ⟨by omega, by omega⟩ h) (by omega) (by omega)

theorem mem_arguments {t : Token} {args : List (List Token × HostExpr)}
    (h : t ∈ List.intercalate [comma] (args.map (·.1))) : t = comma ∨ ∃ p ∈ args, t ∈ p.1 := by
  induction args with
  | nil => cases h
  | cons p args ih =>
    cases args with
    | nil => exact .inr ⟨p, List.mem_singleton_self p, by simpa [List.intercalate] using h⟩
    | cons q args =>
      rw [List.map_cons, List.map_cons, intercalate_cons_cons, ← List.map_cons] at h
      rcases List.mem_append.mp h with h | h
      · rcases List.mem_append.mp h with h | h
        · exact .inr ⟨p, List.mem_cons_self, h⟩
        · exact .inl (List.mem_singleton.mp h)
      · rcases ih h with h | ⟨r, hr, h⟩
        · exact .inl h
        · exact .inr ⟨r, List.mem_cons_of_mem p hr, h⟩

/-- The symbols of an expression are tokens in every alphabet. -/
theorem Reads.finds {level : Nat} {ts : List Token} {e : HostExpr} (a : Alphabet)
    (h : Reads level ts e) : ∀ t ∈ ts, t.isWord = false → a.Finds t := by
  induction h with
  | name text => simp [isWord]
  | literal text => simp [isWord]
  | paren _ ih =>
    simp only [List.mem_append, List.mem_cons, List.not_mem_nil, or_false]
    rintro t ((rfl | ht) | rfl) hword
    · rfl
    · exact ih t ht hword
    · rfl
  | selector text _ ih =>
    simp only [List.mem_append, List.mem_cons, List.not_mem_nil, or_false]
    rintro t (ht | rfl | rfl) hword
    · exact ih t ht hword
    · rfl
    · cases hword
  | index _ _ iho ihi =>
    simp only [List.mem_append, List.mem_cons, List.not_mem_nil, or_false]
    rintro t ((ht | rfl | ht) | rfl) hword
    · exact iho t ht hword
    · rfl
    · exact ihi t ht hword
    · rfl
  | call _ _ ihf ihargs =>
    simp only [List.mem_append, List.mem_cons, List.not_mem_nil, or_false]
    rintro t ((ht | rfl | ht) | rfl) hword
    · exact ihf t ht hword
    · rfl
    · rcases mem_arguments ht with rfl | ⟨p, hp, ht⟩
      · rfl
      · exact ihargs p hp t ht hword
    · rfl
  | dereference _ ih =>
    rintro t ht hword
    rcases List.mem_cons.mp ht with rfl | ht
    · rfl
    · exact ih t ht hword
  | unary op _ ih =>
    rintro t ht hword
    rcases List.mem_cons.mp ht with rfl | ht
    · exact Alphabet.finds_unary op
    · exact ih t ht hword
  | binary op _ _ iha ihb =>
    rintro t ht hword
    rcases List.mem_append.mp ht with ht | ht
    · exact iha t ht hword
    · rcases List.mem_cons.mp ht with rfl | ht
      · exact Alphabet.finds_binary op
      · exact ihb t ht hword
  | tighter _ _ ih => exact ih

end Token

/-- Whether what a node adds to the text of an expression is taken for what it is: its names are
identifiers, its text is one literal, and what a name is selected from is no number that goes on with
the point. -/
def HostTree.IsLegible (a : Alphabet) (tree : HostTree) (id : HostId) : Prop :=
  match tree.kind id with
  | .identifier name => a.IsIdentifier name
  | .qualified package name => a.IsIdentifier (packageName package) ∧ a.IsIdentifier name
  | .literal text => a.IsLiteral text
  | .selector object name =>
    a.IsIdentifier name ∧ ∀ text, tree.kind object = .literal text → ¬ a.TakesPoint text
  | _ => True

/-- All parts of an expression are taken for what they are. -/
def HostTree.Legible (a : Alphabet) (tree : HostTree) (id : HostId) : Prop :=
  ∀ part, tree.Reaches id part → tree.IsLegible a part

theorem HostTree.legible_iff {a : Alphabet} {tree : HostTree} {id : HostId} :
    tree.Legible a id ↔
      tree.IsLegible a id ∧ ∀ child ∈ (tree.kind id).children, tree.Legible a child := by
  constructor
  · intro h
    exact ⟨h id .refl, fun child hchild part hpart => h part (.head hchild hpart)⟩
  · rintro ⟨hself, hchildren⟩ part hpart
    rcases HostTree.reaches_iff.mp hpart with rfl | ⟨child, hchild, hpart⟩
    · exact hself
    · exact hchildren child hchild part hpart

namespace Printer

open Token (Laid Reads)

/-- The level of what a node is printed as. -/
def nodeLevel : HostKind → Nat
  | .binary op _ _ => op.precedence
  | .unary .. | .dereference _ => 6
  | _ => 7

theorem one_le_nodeLevel (kind : HostKind) : 1 ≤ nodeLevel kind := by
  unfold nodeLevel
  split
  · exact BinaryOp.one_le_precedence _
  · decide
  · decide
  · decide

theorem nodeLevel_le_seven (kind : HostKind) : nodeLevel kind ≤ 7 := by
  unfold nodeLevel
  split
  · exact Nat.le_trans (BinaryOp.precedence_le_five _) (by decide)
  · decide
  · decide
  · decide

/-- A node is printed as tokens that read as an expression of its level, whenever it is printed at
least so deep. They are clean if the node and its parts are legible, and end with a literal if they
are one. -/
structure Printed (a : Alphabet) (file : HostFile) (id : HostId) (e : HostExpr) (ts : List Token)
    (bound : Nat) : Prop where
  isNoType : ∀ type, file.tree.kind id ≠ .typeExpression type
  reads : Reads (nodeLevel (file.tree.kind id)) ts e
  laid : ∀ depth, bound ≤ depth → ∀ header indent, Laid ts (text file depth header indent id)
  clean : a.Clean ts ↔ file.tree.Legible a id
  last : isOperation (file.tree.kind id) = false →
    ∀ text, ts.getLast? = some (.literal text) ↔ file.tree.kind id = .literal text

variable {a : Alphabet} {file : HostFile}

/-- As a whole, what is printed can stand wherever an expression is asked for. -/
theorem Printed.reads_expression {id : HostId} {e : HostExpr} {ts : List Token} {bound : Nat}
    (h : Printed a file id e ts bound) : Reads 1 ts e :=
  h.reads.loosen (Nat.le_refl 1) (one_le_nodeLevel _) (nodeLevel_le_seven _)

theorem laid_parenthesized {ts : List Token} {text : String} (h : Laid ts text) :
    Laid (.openParen :: ts ++ [.closeParen]) (parenthesized text) :=
  have hopen : Laid ([] ++ [.openParen]) "(" := .single .openParen
  (hopen.append_of_mark h rfl).mark rfl

theorem clean_parenthesized {ts : List Token} :
    a.Clean (.openParen :: ts ++ [.closeParen]) ↔ a.Clean ts :=
  (Alphabet.clean_append_mark rfl).trans (Alphabet.clean_symbol_cons rfl rfl)

/-! ## Operands -/

/-- An operand is printed as tokens that read at a level. -/
structure PrintedAt (a : Alphabet) (file : HostFile) (id : HostId) (level : Nat) (e : HostExpr)
    (us : List Token) (bound : Nat) (print : Nat → Bool → Nat → String) : Prop where
  reads : Reads level us e
  laid : ∀ depth, bound ≤ depth → ∀ header indent, Laid us (print depth header indent)
  clean : a.Clean us ↔ file.tree.Legible a id

variable {id : HostId} {e : HostExpr} {ts : List Token} {bound : Nat}

/-- Parentheses raise what is printed to the highest level. -/
theorem Printed.parenthesized (h : Printed a file id e ts bound) :
    PrintedAt a file id 7 e (.openParen :: ts ++ [.closeParen]) bound
      (fun depth header indent => Printer.parenthesized (text file depth header indent id)) where
  reads := .paren h.reads_expression
  laid depth hdepth header indent := laid_parenthesized (h.laid depth hdepth header indent)
  clean := clean_parenthesized.trans h.clean

theorem nodeLevel_of_not_isOperation {kind : HostKind} (h : isOperation kind = false) :
    nodeLevel kind = 7 := by
  unfold isOperation at h
  unfold nodeLevel
  split at h <;> simp_all

/-- What a selector, an index, a call or a unary operator applies to is printed at the highest
level, and ends with a literal if it is one. -/
theorem postfixOperand_printed (h : Printed a file id e ts bound) :
    ∃ us, PrintedAt a file id 7 e us bound (fun depth header indent =>
      postfixOperand file ⟨text file depth, lines file depth⟩ header indent id) ∧
      ∀ text, us.getLast? = some (.literal text) ↔ file.tree.kind id = .literal text := by
  have hprint (depth : Nat) (header : Bool) (indent : Nat) :
      postfixOperand file ⟨text file depth, lines file depth⟩ header indent id =
        if isOperation (file.tree.kind id) then
          Printer.parenthesized (text file depth header indent id)
        else text file depth header indent id := by
    have htype := h.isNoType
    unfold postfixOperand isOperation
    split <;> simp_all
  simp only [hprint]
  by_cases hoperation : isOperation (file.tree.kind id)
  · simp only [hoperation, if_true]
    refine ⟨_, h.parenthesized, fun text => iff_of_false ?_ (fun hliteral => ?_)⟩
    · rw [List.getLast?_concat]
      nofun
    · rw [hliteral] at hoperation
      cases hoperation
  · simp only [hoperation]
    have hoperation : isOperation (file.tree.kind id) = false := by simpa using hoperation
    have hreads := h.reads
    rw [nodeLevel_of_not_isOperation hoperation] at hreads
    exact ⟨ts, ⟨hreads, h.laid, h.clean⟩, h.last hoperation⟩

/-- An operand of a binary operator is printed at the level that its side asks for. -/
theorem binaryOperand_printed (h : Printed a file id e ts bound) (op : BinaryOp) (right : Bool) :
    ∃ us, PrintedAt a file id (op.precedence + right.toNat) e us bound (fun depth header indent =>
      binaryOperand file ⟨text file depth, lines file depth⟩ header indent op right id) := by
  have hop := op.precedence_le_five
  have hone := op.one_le_precedence
  have hright : right.toNat ≤ 1 := Bool.toNat_le right
  unfold binaryOperand
  split
  · rename_i child left rest hkind
    split
    · exact ⟨_, h.parenthesized.reads.loosen (by omega) (by omega) (Nat.le_refl 7),
        h.parenthesized.laid, h.parenthesized.clean⟩
    · rename_i hstrong
      have hlevel : nodeLevel (file.tree.kind id) = child.precedence := by rw [hkind]; rfl
      have hle : op.precedence + right.toNat ≤ child.precedence := by
        cases right <;> simp at hstrong ⊢ <;> omega
      have hreads := h.reads
      rw [hlevel] at hreads
      exact ⟨ts, hreads.loosen (by omega) hle (Nat.le_trans child.precedence_le_five (by decide)),
        h.laid, h.clean⟩
  · rename_i hbinary
    have hsix : 6 ≤ nodeLevel (file.tree.kind id) := by
      unfold nodeLevel
      split <;> simp_all
    exact ⟨ts, h.reads.loosen (by omega) (by omega) (nodeLevel_le_seven _), h.laid, h.clean⟩

/-- Arguments are printed with commas between them. -/
theorem listText_printed {args : List HostId} {es : List HostExpr} (hlength : args.length = es.length)
    (h : ∀ p ∈ args.zip es, ∃ ts bound, Printed a file p.1 p.2 ts bound) :
    ∃ parts : List (List Token × HostExpr), ∃ bound, parts.map (·.2) = es ∧
      (∀ p ∈ parts, Reads 1 p.1 p.2) ∧
      (a.Clean (List.intercalate [.comma] (parts.map (·.1))) ↔
        ∀ arg ∈ args, file.tree.Legible a arg) ∧
      ∀ depth, bound ≤ depth → ∀ header indent,
        Laid (List.intercalate [.comma] (parts.map (·.1)))
          (listText ⟨text file depth, lines file depth⟩ header indent args) := by
  induction args generalizing es with
  | nil =>
    obtain rfl := List.eq_nil_of_length_eq_zero hlength.symm
    exact ⟨[], 0, rfl, by simp, iff_of_true Alphabet.clean_nil (by simp), fun _ _ _ _ => .nil⟩
  | cons id args ih =>
    cases es with
    | nil => cases hlength
    | cons e es =>
      obtain ⟨ts, bound, hid⟩ := h (id, e) (by simp)
      obtain ⟨parts, bound', rfl, hreads, hclean, hlaid⟩ := ih (Nat.succ.inj hlength)
        (fun p hp => h p (by simp [hp]))
      refine ⟨(ts, e) :: parts, max bound bound', rfl, ?_, ?_, fun depth hdepth header indent => ?_⟩
      · intro p hp
        rcases List.mem_cons.mp hp with rfl | hp
        · exact hid.reads_expression
        · exact hreads p hp
      · cases args with
        | nil =>
          obtain rfl : parts = [] := by simpa using hlength.symm
          simpa [List.intercalate] using hid.clean
        | cons id' args =>
          obtain ⟨part, parts, rfl⟩ := List.exists_cons_of_ne_nil (l := parts) (by
            rintro rfl
            simp at hlength)
          rw [List.map_cons, List.map_cons, Token.intercalate_cons_cons, List.append_assoc,
            Alphabet.clean_append_of_ne_dot (by simp), List.singleton_append,
            Alphabet.clean_symbol_cons (Alphabet.finds_mark rfl) rfl, ← List.map_cons, hclean, hid.clean]
          exact List.forall_mem_cons.symm
      · have hfirst := hid.laid depth (Nat.le_trans (Nat.le_max_left _ _) hdepth) header indent
        have hrest := hlaid depth (Nat.le_trans (Nat.le_max_right _ _) hdepth) header indent
        cases args with
        | nil =>
          obtain rfl : parts = [] := by simpa using hlength.symm
          simpa [listText, commaSeparated, List.intercalate] using hfirst
        | cons id' args =>
          obtain ⟨part, parts, rfl⟩ := List.exists_cons_of_ne_nil (l := parts) (by
            rintro rfl
            simp at hlength)
          obtain ⟨t, us, hus, ht⟩ := (hreads part List.mem_cons_self).begins
          have hhead : (List.intercalate [.comma] ((part :: parts).map (·.1))).head? = some t := by
            cases parts <;> simp [List.intercalate, hus]
          have hcomma : Laid (ts ++ [.comma]) (text file depth header indent id ++ ",") :=
            hfirst.mark rfl
          have := hcomma.append_blank hrest (by simp) (by
            intro hnil
            rw [hnil] at hhead
            cases hhead) (by
            rw [hhead]
            rintro _ ⟨⟩ rfl
            cases ht)
          rw [List.map_cons, List.map_cons, Token.intercalate_cons_cons]
          simp only [listText, commaSeparated, List.map_cons, String.intercalate_cons_cons] at this ⊢
          rwa [show (", " : String) = "," ++ " " from rfl, ← String.append_assoc]

/-! ## Expressions -/

theorem text_succ (file : HostFile) (depth : Nat) (header : Bool) (indent : Nat) (id : HostId) :
    text file (depth + 1) header indent id =
      inlineText file ⟨text file depth, lines file depth⟩ header indent (file.tree.kind id) := rfl

/-- A node whose text is put together one level up. -/
theorem printed_of_kind {kind : HostKind} (bound : Nat) (hkind : file.tree.kind id = kind)
    (htype : ∀ type, kind ≠ .typeExpression type) (hreads : Reads (nodeLevel kind) ts e)
    (hlaid : ∀ depth, bound ≤ depth → ∀ header indent,
      Laid ts (inlineText file ⟨text file depth, lines file depth⟩ header indent kind))
    (hclean : a.Clean ts ↔ file.tree.IsLegible a id ∧ ∀ child ∈ kind.children, file.tree.Legible a child)
    (hlast : isOperation kind = false →
      ∀ text, ts.getLast? = some (.literal text) ↔ kind = .literal text) :
    Printed a file id e ts (bound + 1) where
  isNoType := hkind ▸ htype
  reads := hkind ▸ hreads
  laid depth hdepth header indent := by
    obtain ⟨depth, rfl⟩ := Nat.exists_eq_add_of_le' (Nat.le_trans (Nat.le_add_left 1 bound) hdepth)
    rw [text_succ, hkind]
    exact hlaid depth (Nat.le_of_succ_le_succ hdepth) header indent
  clean := by
    rw [HostTree.legible_iff, hkind]
    exact hclean
  last := hkind ▸ hlast

/-- What ends with a mark ends with no literal. -/
theorem last_of_mark {kind : HostKind} {t : Token} (ts : List Token) (ht : t.isMark)
    (hkind : ∀ text, kind ≠ .literal text) (text : String) :
    (ts ++ [t]).getLast? = some (.literal text) ↔ kind = .literal text := by
  rw [List.getLast?_concat]
  refine iff_of_false ?_ (hkind text)
  rintro ⟨⟩
  cases ht

theorem exists_printed (a : Alphabet) (h : file.tree.Shows id e) :
    ∃ ts bound, Printed a file id e ts bound := by
  induction h with
  | @name id text h =>
    refine ⟨[.name text], _, printed_of_kind 0 h (by simp) (.name text)
      (fun depth _ _ _ => .single (.name text)) ?_ (by simp)⟩
    rw [Alphabet.clean_singleton]
    simp [HostTree.IsLegible, h, HostKind.children]
    rfl
  | @member id package text h =>
    refine ⟨[.name (packageName package), .dot, .name text], _,
      printed_of_kind 0 h (by simp) (.selector text (.name _))
      (fun depth _ _ _ => (Laid.single (.name (packageName package))).selector (.name _)) ?_
      (by simp)⟩
    rw [Alphabet.clean_name_cons, Alphabet.clean_symbol_cons Alphabet.finds_dot rfl, Alphabet.clean_name_cons,
      and_iff_left Alphabet.clean_nil]
    simp [HostTree.IsLegible, h, HostKind.children]
  | @literal id text h =>
    refine ⟨[.literal text], _, printed_of_kind 0 h (by simp) (.literal text)
      (fun depth _ _ _ => .single (.literal text)) ?_ (by simp)⟩
    rw [Alphabet.clean_singleton]
    simp [HostTree.IsLegible, h, HostKind.children]
    rfl
  | @selector id object text o h _ ih =>
    obtain ⟨ts, bound, ho⟩ := ih
    obtain ⟨us, hus, hlast⟩ := postfixOperand_printed ho
    refine ⟨us ++ [Token.dot, Token.name text], _,
      printed_of_kind bound h (by simp) (.selector text hus.reads)
      (fun depth hdepth header indent => (hus.laid depth hdepth header indent).selector hus.reads)
      ?_ (by simp)⟩
    have hclear : (∀ t ∈ us.getLast?, ∀ u ∈ List.head? [Token.dot, .name text], a.Clear t u) ↔
        ∀ text, file.tree.kind object = .literal text → ¬ a.TakesPoint text := by
      constructor
      · exact fun hclear text htext => hclear _ ((hlast text).mpr htext) _ rfl text rfl rfl
      · rintro hpoint t ht _ ⟨⟩ text rfl -
        exact hpoint text ((hlast text).mp ht)
    rw [Alphabet.clean_append, hus.clean, hclear,
      Alphabet.clean_symbol_cons Alphabet.finds_dot rfl, Alphabet.clean_name_cons, and_iff_left Alphabet.clean_nil, and_comm]
    simp [HostTree.IsLegible, h, HostKind.children]
  | @index id object index o i h _ _ iho ihi =>
    obtain ⟨ts, bound, ho⟩ := iho
    obtain ⟨us, hus, -⟩ := postfixOperand_printed ho
    obtain ⟨vs, bound', hi⟩ := ihi
    refine ⟨us ++ Token.openBracket :: vs ++ [Token.closeBracket], _,
      printed_of_kind (max bound bound') h (by simp) (.index hus.reads hi.reads_expression)
      (fun depth hdepth header indent => ?_) ?_ (fun _ => last_of_mark _ rfl (by simp))⟩
    · have := (((hus.laid depth (Nat.le_trans (Nat.le_max_left _ _) hdepth) header indent).mark
        (u := .openBracket) rfl).append_of_mark
          (hi.laid depth (Nat.le_trans (Nat.le_max_right _ _) hdepth) header indent) rfl).mark
            (u := .closeBracket) rfl
      simpa [inlineText, Token.text] using this
    · rw [Alphabet.clean_append_mark rfl, Alphabet.clean_append_of_ne_dot (by simp),
        Alphabet.clean_symbol_cons (Alphabet.finds_mark rfl) rfl, hus.clean, hi.clean]
      simp [HostTree.IsLegible, h, HostKind.children]
  | @call id callee args f es h _ hlength _ ihf ihes =>
    obtain ⟨ts, bound, hf⟩ := ihf
    obtain ⟨us, hus, -⟩ := postfixOperand_printed hf
    obtain ⟨parts, bound', rfl, hparts, hclean, hargs⟩ := listText_printed hlength ihes
    refine ⟨_, _, printed_of_kind (max bound bound') h (by simp) (.call hus.reads hparts)
      (fun depth hdepth header indent => ?_) ?_ (fun _ => last_of_mark _ rfl (by simp))⟩
    · have := (((hus.laid depth (Nat.le_trans (Nat.le_max_left _ _) hdepth) header indent).mark
        (u := .openParen) rfl).append_of_mark
          (hargs depth (Nat.le_trans (Nat.le_max_right _ _) hdepth) header indent) rfl).mark
            (u := .closeParen) rfl
      simpa [inlineText, Token.text] using this
    · rw [Alphabet.clean_append_mark rfl, Alphabet.clean_append_of_ne_dot (by simp),
        Alphabet.clean_symbol_cons (Alphabet.finds_mark rfl) rfl, hus.clean, hclean]
      simp [HostTree.IsLegible, h, HostKind.children]
  | @dereference id operand e h _ ih =>
    obtain ⟨ts, bound, he⟩ := ih
    obtain ⟨us, hus, -⟩ := postfixOperand_printed he
    refine ⟨.star :: us, _, printed_of_kind bound h (by simp)
      (.dereference (.tighter (by decide) hus.reads))
      (fun depth hdepth header indent => ?_) ?_ (by simp [isOperation])⟩
    · exact .touching (fun u hu => Token.touches_operator hus.reads hu)
        (hus.laid depth hdepth header indent)
    · rw [Alphabet.clean_symbol_cons Alphabet.finds_star rfl, hus.clean]
      simp [HostTree.IsLegible, h, HostKind.children]
  | @unary id operand op e h _ ih =>
    obtain ⟨ts, bound, he⟩ := ih
    obtain ⟨us, hus, -⟩ := postfixOperand_printed he
    refine ⟨.unary op :: us, _, printed_of_kind bound h (by simp)
      (.unary op (.tighter (by decide) hus.reads))
      (fun depth hdepth header indent => ?_) ?_ (by simp [isOperation])⟩
    · exact .touching (fun u hu => Token.touches_operator hus.reads hu)
        (hus.laid depth hdepth header indent)
    · rw [Alphabet.clean_symbol_cons (Alphabet.finds_unary op) rfl, hus.clean]
      simp [HostTree.IsLegible, h, HostKind.children]
  | @binary id left right op x y h _ _ iha ihb =>
    obtain ⟨ts, bound, ha⟩ := iha
    obtain ⟨us, hleft⟩ := binaryOperand_printed ha op false
    obtain ⟨ts', bound', hb⟩ := ihb
    obtain ⟨vs, hright⟩ := binaryOperand_printed hb op true
    refine ⟨us ++ .binary op :: vs, _,
      printed_of_kind (max bound bound') h (by simp) (.binary op hleft.reads hright.reads)
      (fun depth hdepth header indent => ?_) ?_ (by simp [isOperation])⟩
    · obtain ⟨t, rest, rfl, -⟩ := hleft.reads.begins
      obtain ⟨u, rest', rfl, -⟩ := hright.reads.begins
      have hop := Laid.apart (t := .binary op) (hright.reads.head_ne_dot u rfl)
        (hright.laid depth (Nat.le_trans (Nat.le_max_right _ _) hdepth) header indent)
      have := (hleft.laid depth (Nat.le_trans (Nat.le_max_left _ _) hdepth) header
        indent).append_blank hop (by simp) (by simp) (by simp [Token.binary])
      simpa [inlineText, Token.text, Token.binary, String.append_assoc] using this
    · rw [Alphabet.clean_append_of_ne_dot (by simp [Token.binary]),
        Alphabet.clean_symbol_cons (Alphabet.finds_binary op) rfl, hleft.clean, hright.clean]
      simp [HostTree.IsLegible, h, HostKind.children]
  | @paren id inner e h _ ih =>
    obtain ⟨ts, bound, he⟩ := ih
    refine ⟨_, _, printed_of_kind bound h (by simp) he.parenthesized.reads he.parenthesized.laid ?_
      (fun _ => last_of_mark _ rfl (by simp))⟩
    rw [he.parenthesized.clean]
    simp [HostTree.IsLegible, h, HostKind.children]

end Printer

/-- The tokens that are found in the text of an expression, however deep the tree is printed from
on, read as the expression and as nothing else just in case all parts of it are legible. -/
theorem reads_printed_iff (a : Alphabet) {file : HostFile} {id : HostId} {e : HostExpr}
    (h : file.tree.Shows id e) :
    ∃ bound, ∀ depth, bound ≤ depth → ∀ header indent,
      (∃ tokens, a.tokens? (Printer.text file depth header indent id) = some tokens ∧
        ∀ read, Token.Reads 1 tokens read ↔ read = e) ↔ file.tree.Legible a id := by
  obtain ⟨ts, bound, hprinted⟩ := Printer.exists_printed a h
  refine ⟨bound, fun depth hdepth header indent => ?_⟩
  have hlaid := hprinted.laid depth hdepth header indent
  have hreads := hprinted.reads_expression
  rw [← hprinted.clean]
  constructor
  · rintro ⟨tokens, htokens, hread⟩
    refine hlaid.clean_of_words_eq (hreads.finds a) htokens ?_
    rw [((hread e).mpr rfl).words_eq, hreads.words_eq]
  · intro hclean
    refine ⟨ts, hlaid.tokens?_eq hclean, fun read => ⟨fun hread => hread.unique hreads, ?_⟩⟩
    rintro rfl
    exact hreads

/-- Two negations of `a - (b - c)`; no node stands for parentheses. -/
def HostFile.negated : HostFile where
  package := "main"
  tree := ⟨#[⟨.identifier "a", none⟩, ⟨.identifier "b", none⟩, ⟨.identifier "c", none⟩,
    ⟨.binary .sub ⟨1⟩ ⟨2⟩, none⟩, ⟨.binary .sub ⟨0⟩ ⟨3⟩, none⟩, ⟨.unary .negate ⟨4⟩, none⟩,
    ⟨.unary .negate ⟨5⟩, none⟩]⟩
  types := .initial
  typeDecls := []
  valueDecls := []
  functionDecls := []
  markers := []

/-- The alphabet of names in ASCII. -/
def Alphabet.ascii : Alphabet := ⟨fun _ => false, fun _ => false⟩

theorem reads_printed_iff_negated :
    HostFile.negated.tree.Shows ⟨6⟩ (.unary .negate (.unary .negate
      (.binary .sub (.name "a") (.binary .sub (.name "b") (.name "c"))))) ∧
    HostFile.negated.tree.Legible .ascii ⟨6⟩ ∧
    ∃ bound, ∀ depth, bound ≤ depth → ∀ header indent,
      ∃ tokens, Alphabet.ascii.tokens?
          (Printer.text HostFile.negated depth header indent ⟨6⟩) = some tokens ∧
        ∀ read, Token.Reads 1 tokens read ↔ read = .unary .negate (.unary .negate
          (.binary .sub (.name "a") (.binary .sub (.name "b") (.name "c")))) := by
  have h : HostFile.negated.tree.Shows ⟨6⟩ (.unary .negate (.unary .negate
      (.binary .sub (.name "a") (.binary .sub (.name "b") (.name "c"))))) := by
    refine .unary rfl (.unary rfl (.binary rfl (.name rfl) (.binary rfl (.name rfl) (.name rfl))))
  have hname (id : HostId) (text : String)
      (hkind : HostFile.negated.tree.kind id = .identifier text)
      (htext : Alphabet.ascii.IsIdentifier text) : HostFile.negated.tree.Legible .ascii id := by
    refine HostTree.legible_iff.mpr ⟨?_, ?_⟩
    · simpa [HostTree.IsLegible, hkind] using htext
    · simp [hkind, HostKind.children]
  have hlegible : HostFile.negated.tree.Legible .ascii ⟨6⟩ := by
    have hinner : HostFile.negated.tree.Legible .ascii ⟨3⟩ :=
      HostTree.legible_iff.mpr ⟨trivial, List.forall_mem_cons.mpr
        ⟨hname ⟨1⟩ "b" rfl rfl, List.forall_mem_singleton.mpr (hname ⟨2⟩ "c" rfl rfl)⟩⟩
    have hdifference : HostFile.negated.tree.Legible .ascii ⟨4⟩ :=
      HostTree.legible_iff.mpr ⟨trivial, List.forall_mem_cons.mpr
        ⟨hname ⟨0⟩ "a" rfl rfl, List.forall_mem_singleton.mpr hinner⟩⟩
    have hnegated : HostFile.negated.tree.Legible .ascii ⟨5⟩ :=
      HostTree.legible_iff.mpr ⟨trivial, List.forall_mem_singleton.mpr hdifference⟩
    exact HostTree.legible_iff.mpr ⟨trivial, List.forall_mem_singleton.mpr hnegated⟩
  obtain ⟨bound, hprinted⟩ := reads_printed_iff .ascii h
  exact ⟨h, hlegible, bound, fun depth hdepth header indent =>
    (hprinted depth hdepth header indent).mpr hlegible⟩

example : Printer.text HostFile.negated 7 false 0 ⟨6⟩ = "-(-(a - (b - c)))" := by decide +kernel

/-- A name selected from a number. -/
def HostFile.selected : HostFile where
  package := "main"
  tree := ⟨#[⟨.literal "1", none⟩, ⟨.selector ⟨0⟩ "x", none⟩]⟩
  types := .initial
  typeDecls := []
  valueDecls := []
  functionDecls := []
  markers := []

/-- A selection from a number is printed without parentheses, and the scanner takes the point for a
part of the number. -/
theorem selected_reads_otherwise :
    HostFile.selected.tree.Shows ⟨1⟩ (.selector (.literal "1") "x") ∧
    Alphabet.ascii.IsLiteral "1" ∧ Alphabet.ascii.IsIdentifier "x" ∧
    ∀ depth header indent, ∃ tokens,
      Alphabet.ascii.tokens? (Printer.text HostFile.selected (depth + 2) header indent ⟨1⟩) =
        some tokens ∧ ¬ Token.Reads 1 tokens (.selector (.literal "1") "x") := by
  refine ⟨.selector rfl (.literal rfl), rfl, rfl, fun depth header indent => ?_⟩
  have hprinted : Printer.text HostFile.selected (depth + 2) header indent ⟨1⟩ = "1.x" := rfl
  refine ⟨[.literal "1.", .name "x"], ?_, fun hread => ?_⟩
  · rw [hprinted]
    decide +kernel
  have hwords := hread.words_eq
  rw [HostExpr.words, HostExpr.words] at hwords
  exact absurd hwords (by decide)

end GoLowering
