import Mathlib.Data.List.Basic
import GoLowering.Host.Grammar

/-!
# Tokens of an expression read in one way only

The grammar of expressions is left-recursive: an operator or a selector comes after the expression
that it applies to. The same tokens are gone through from the left by `Parses`, which carries that
expression along, and decides by the next token whether it goes on. It follows the grammar
(`Reads.parses`) and has one outcome only (`Parses.unique`), so an expression is read in one way
(`Reads.unique`).
-/

namespace GoLowering.Token

/-! ## How an expression begins -/

/-- Whether what is read at a level may begin with a token. -/
def begins (level : Nat) : Token → Bool
  | name _ | literal _ | openParen => true
  | operator _ => level ≤ 6
  | _ => false

theorem Reads.begins {level : Nat} {ts : List Token} {e : HostExpr} (h : Reads level ts e) :
    ∃ t us, ts = t :: us ∧ t.begins level := by
  induction h with
  | name text => exact ⟨_, _, rfl, rfl⟩
  | literal text => exact ⟨_, _, rfl, rfl⟩
  | paren _ _ => exact ⟨_, _, rfl, rfl⟩
  | selector text _ ih =>
    obtain ⟨t, us, rfl, ht⟩ := ih
    exact ⟨t, _, rfl, ht⟩
  | index _ _ ih _ =>
    obtain ⟨t, us, rfl, ht⟩ := ih
    exact ⟨t, _, rfl, ht⟩
  | call _ _ ih _ =>
    obtain ⟨t, us, rfl, ht⟩ := ih
    exact ⟨t, _, rfl, ht⟩
  | dereference _ _ => exact ⟨_, _, rfl, rfl⟩
  | unary op _ _ => exact ⟨_, _, rfl, rfl⟩
  | binary op _ _ ih _ =>
    obtain ⟨t, us, rfl, ht⟩ := ih
    exact ⟨t, _, rfl, ht⟩
  | tighter hlevel _ ih =>
    obtain ⟨t, us, rfl, ht⟩ := ih
    refine ⟨t, us, rfl, ?_⟩
    cases t <;> simp_all [Token.begins]

/-- Whether a selector, an index or a call begins with a token. -/
def extends? : Token → Bool
  | dot | openBracket | openParen => true
  | _ => false

/-- What follows an expression at a level that is read completely: nothing that would extend an
operand, and no operator of that level or a higher one. -/
def Quiet (level : Nat) (ts : List Token) : Prop :=
  (∀ t ∈ ts.head?, t.extends? = false) ∧
    ∀ op : BinaryOp, level ≤ op.precedence → ts.head? ≠ some (.binary op)

theorem Quiet.mono {level next : Nat} {ts : List Token} (h : Quiet level ts) (hle : level ≤ next) :
    Quiet next ts :=
  ⟨h.1, fun op hop => h.2 op (Nat.le_trans hle hop)⟩

theorem quiet_nil (level : Nat) : Quiet level [] := ⟨nofun, fun _ _ => nofun⟩

theorem quiet_cons {t : Token} (level : Nat) (ts : List Token) (ht : t.extends? = false)
    (hop : t.isOperator = false) : Quiet level (t :: ts) := by
  refine ⟨fun u hu => by simp_all, fun op _ h => ?_⟩
  obtain rfl : t = .binary op := by simpa using h
  cases hop

theorem binary_inj {op op' : BinaryOp} (h : Token.binary op = .binary op') : op = op' := by
  have hsymbol : op.symbol = op'.symbol := Token.operator.inj h
  have := BinaryOp.ofSymbol?_symbol op
  rw [hsymbol, BinaryOp.ofSymbol?_symbol] at this
  exact (Option.some.inj this).symm

theorem unary_inj {op op' : UnaryOp} (h : Token.unary op = .unary op') : op = op' := by
  have hsymbol : op.symbol = op'.symbol := Token.operator.inj h
  have := UnaryOp.ofSymbol?_symbol op
  rw [hsymbol, UnaryOp.ofSymbol?_symbol] at this
  exact (Option.some.inj this).symm

theorem star_ne_unary (op : UnaryOp) : Token.star ≠ .unary op := by
  cases op <;> decide

/-! ## Reading from the left -/

/-- What is read next. -/
inductive Task where
  /-- An expression of a level. -/
  | expression (level : Nat)
  /-- Operators of a level and their right operands, after a left operand. -/
  | operators (level : Nat) (left : HostExpr)
  | operand
  /-- Selectors, indexes and calls, after what they apply to. -/
  | suffixes (object : HostExpr)
  /-- The arguments of a call, up to the parenthesis that ends them. -/
  | arguments
  /-- The arguments after the first one. -/
  | moreArguments

/-- Reading from the left: what the first of the tokens read as, and the tokens that are left. An
expression is read as a list of one. -/
inductive Parses : Task → List Token → List HostExpr → List Token → Prop
  | name (text : String) (rest : List Token) : Parses .operand (.name text :: rest) [.name text] rest
  | literal (text : String) (rest : List Token) :
    Parses .operand (.literal text :: rest) [.literal text] rest
  | paren {ts rest : List Token} {e : HostExpr}
    (h : Parses (.expression 1) ts [e] (.closeParen :: rest)) :
    Parses .operand (.openParen :: ts) [e] rest
  | complete {ts : List Token} (e : HostExpr) (h : ∀ t ∈ ts.head?, t.extends? = false) :
    Parses (.suffixes e) ts [e] ts
  | selector {ts rest : List Token} {e e' : HostExpr} {text : String}
    (h : Parses (.suffixes (.selector e text)) ts [e'] rest) :
    Parses (.suffixes e) (.dot :: .name text :: ts) [e'] rest
  | index {ts us rest : List Token} {e i e' : HostExpr}
    (hi : Parses (.expression 1) ts [i] (.closeBracket :: us))
    (h : Parses (.suffixes (.index e i)) us [e'] rest) :
    Parses (.suffixes e) (.openBracket :: ts) [e'] rest
  | call {ts us rest : List Token} {e e' : HostExpr} {es : List HostExpr}
    (hes : Parses .arguments ts es us) (h : Parses (.suffixes (.call e es)) us [e'] rest) :
    Parses (.suffixes e) (.openParen :: ts) [e'] rest
  | noArguments (rest : List Token) : Parses .arguments (.closeParen :: rest) [] rest
  | someArguments {ts us rest : List Token} {e : HostExpr} {es : List HostExpr}
    (hsome : ts.head? ≠ some .closeParen) (he : Parses (.expression 1) ts [e] us)
    (hes : Parses .moreArguments us es rest) : Parses .arguments ts (e :: es) rest
  | lastArgument (rest : List Token) : Parses .moreArguments (.closeParen :: rest) [] rest
  | nextArgument {ts us rest : List Token} {e : HostExpr} {es : List HostExpr}
    (he : Parses (.expression 1) ts [e] us) (hes : Parses .moreArguments us es rest) :
    Parses .moreArguments (.comma :: ts) (e :: es) rest
  | primary {ts us rest : List Token} {e e' : HostExpr} (he : Parses .operand ts [e] us)
    (h : Parses (.suffixes e) us [e'] rest) : Parses (.expression 7) ts [e'] rest
  | dereference {t : Token} {ts rest : List Token} {e : HostExpr} (ht : t = .star)
    (h : Parses (.expression 6) ts [e] rest) :
    Parses (.expression 6) (t :: ts) [.dereference e] rest
  | unary {t : Token} {ts rest : List Token} {e : HostExpr} {op : UnaryOp} (ht : t = .unary op)
    (h : Parses (.expression 6) ts [e] rest) : Parses (.expression 6) (t :: ts) [.unary op e] rest
  | noUnary {ts rest : List Token} {e : HostExpr} (h : Parses (.expression 7) ts [e] rest) :
    Parses (.expression 6) ts [e] rest
  | level {level : Nat} {ts us rest : List Token} {e e' : HostExpr} (hlevel : level ≤ 5)
    (he : Parses (.expression (level + 1)) ts [e] us)
    (h : Parses (.operators level e) us [e'] rest) : Parses (.expression level) ts [e'] rest
  | noOperator {level : Nat} {ts : List Token} (e : HostExpr)
    (h : ∀ op : BinaryOp, op.precedence = level → ts.head? ≠ some (.binary op)) :
    Parses (.operators level e) ts [e] ts
  | operator {level : Nat} {t : Token} {ts us rest : List Token} {e e₂ e' : HostExpr}
    {op : BinaryOp} (hlevel : op.precedence = level) (ht : t = .binary op)
    (he : Parses (.expression (level + 1)) ts [e₂] us)
    (h : Parses (.operators level (.binary op e e₂)) us [e'] rest) :
    Parses (.operators level e) (t :: ts) [e'] rest

/-- No operand begins with an operator. -/
theorem Parses.not_operator {t : Token} {ts rest : List Token} {es : List HostExpr}
    (h : Parses (.expression 7) (t :: ts) es rest) : t.isOperator = false := by
  cases h with
  | primary he h => cases he <;> rfl
  | level hlevel _ _ => exact absurd hlevel (by decide)

theorem Parses.unique {task : Task} {ts rest rest' : List Token} {es es' : List HostExpr}
    (h : Parses task ts es rest) (h' : Parses task ts es' rest') : es = es' ∧ rest = rest' := by
  induction h generalizing es' rest' with
  | name text rest =>
    cases h'
    exact ⟨rfl, rfl⟩
  | literal text rest =>
    cases h'
    exact ⟨rfl, rfl⟩
  | paren _ ih =>
    cases h' with
    | paren h' =>
      obtain ⟨he, hrest⟩ := ih h'
      exact ⟨he, List.tail_eq_of_cons_eq hrest⟩
  | complete e hts =>
    cases h' with
    | complete => exact ⟨rfl, rfl⟩
    | selector | index | call => simp [extends?] at hts
  | selector _ ih =>
    cases h' with
    | complete _ hts => simp [extends?] at hts
    | selector h' => exact ih h'
  | index _ _ ihi ih =>
    cases h' with
    | complete _ hts => simp [extends?] at hts
    | index hi' h' =>
      obtain ⟨he, hrest⟩ := ihi hi'
      obtain rfl := List.head_eq_of_cons_eq he
      obtain rfl := List.tail_eq_of_cons_eq hrest
      exact ih h'
  | call _ _ ihes ih =>
    cases h' with
    | complete _ hts => simp [extends?] at hts
    | call hes' h' =>
      obtain ⟨rfl, rfl⟩ := ihes hes'
      exact ih h'
  | noArguments rest =>
    cases h' with
    | noArguments => exact ⟨rfl, rfl⟩
    | someArguments hsome _ _ => simp at hsome
  | someArguments hsome _ _ ihe ihes =>
    cases h' with
    | noArguments => simp at hsome
    | someArguments _ he' hes' =>
      obtain ⟨he, rfl⟩ := ihe he'
      obtain rfl := List.head_eq_of_cons_eq he
      obtain ⟨rfl, rfl⟩ := ihes hes'
      exact ⟨rfl, rfl⟩
  | lastArgument rest =>
    cases h'
    exact ⟨rfl, rfl⟩
  | nextArgument _ _ ihe ihes =>
    cases h' with
    | nextArgument he' hes' =>
      obtain ⟨he, rfl⟩ := ihe he'
      obtain rfl := List.head_eq_of_cons_eq he
      obtain ⟨rfl, rfl⟩ := ihes hes'
      exact ⟨rfl, rfl⟩
  | primary _ _ ihe ih =>
    cases h' with
    | primary he' h' =>
      obtain ⟨he, rfl⟩ := ihe he'
      obtain rfl := List.head_eq_of_cons_eq he
      exact ih h'
    | level hlevel _ _ => exact absurd hlevel (by decide)
  | dereference ht _ ih =>
    cases h' with
    | dereference _ h' =>
      obtain ⟨he, rfl⟩ := ih h'
      obtain rfl := List.head_eq_of_cons_eq he
      exact ⟨rfl, rfl⟩
    | unary ht' _ => exact absurd (ht.symm.trans ht') (star_ne_unary _)
    | noUnary h' => exact absurd h'.not_operator (by simp [ht, star, isOperator])
    | level hlevel _ _ => exact absurd hlevel (by decide)
  | unary ht _ ih =>
    cases h' with
    | dereference ht' _ => exact absurd (ht'.symm.trans ht) (star_ne_unary _)
    | unary ht' h' =>
      obtain rfl := unary_inj (ht.symm.trans ht')
      obtain ⟨he, rfl⟩ := ih h'
      obtain rfl := List.head_eq_of_cons_eq he
      exact ⟨rfl, rfl⟩
    | noUnary h' => exact absurd h'.not_operator (by simp [ht, Token.unary, isOperator])
    | level hlevel _ _ => exact absurd hlevel (by decide)
  | noUnary h ih =>
    cases h' with
    | dereference ht' _ => exact absurd h.not_operator (by simp [ht', star, isOperator])
    | unary ht' _ => exact absurd h.not_operator (by simp [ht', Token.unary, isOperator])
    | noUnary h' => exact ih h'
    | level hlevel _ _ => exact absurd hlevel (by decide)
  | level hlevel _ _ ihe ih =>
    cases h' with
    | primary | dereference | unary | noUnary => exact absurd hlevel (by decide)
    | level _ he' h' =>
      obtain ⟨he, rfl⟩ := ihe he'
      obtain rfl := List.head_eq_of_cons_eq he
      exact ih h'
  | noOperator e hnone =>
    cases h' with
    | noOperator => exact ⟨rfl, rfl⟩
    | operator hlevel ht _ _ => exact absurd (congrArg some ht) (hnone _ hlevel)
  | operator hlevel ht _ _ ihe ih =>
    cases h' with
    | noOperator _ hnone => exact absurd (congrArg some ht) (hnone _ hlevel)
    | operator _ ht' he' h' =>
      obtain rfl := binary_inj (ht.symm.trans ht')
      obtain ⟨he, rfl⟩ := ihe he'
      obtain rfl := List.head_eq_of_cons_eq he
      exact ih h'

/-! ## Reading from the left follows the grammar -/

/-- How reading goes on after an expression that is the beginning of one of its level. -/
def Continues (level : Nat) (e : HostExpr) (rest : List Token) (e' : HostExpr)
    (rest' : List Token) : Prop :=
  if level ≤ 5 then Quiet (level + 1) rest ∧ Parses (.operators level e) rest [e'] rest'
  else if level = 6 then Quiet 6 rest ∧ e' = e ∧ rest' = rest
  else Parses (.suffixes e) rest [e'] rest'

theorem continues_self {level : Nat} {e : HostExpr} {rest : List Token} (h : Quiet level rest) :
    Continues level e rest e rest := by
  unfold Continues
  split
  · exact ⟨h.mono (Nat.le_succ _), .noOperator e (fun op hop => h.2 op (Nat.le_of_eq hop.symm))⟩
  · split
    · rename_i hsix
      exact ⟨hsix ▸ h, rfl, rfl⟩
    · exact .complete e h.1

theorem continues_five {level : Nat} {e e' : HostExpr} {rest rest' : List Token} (hle : level ≤ 5) :
    Continues level e rest e' rest' ↔
      Quiet (level + 1) rest ∧ Parses (.operators level e) rest [e'] rest' := by
  rw [Continues, if_pos hle]

theorem continues_six {e e' : HostExpr} {rest rest' : List Token} :
    Continues 6 e rest e' rest' ↔ Quiet 6 rest ∧ e' = e ∧ rest' = rest := by
  simp [Continues]

theorem continues_seven {e e' : HostExpr} {rest rest' : List Token} :
    Continues 7 e rest e' rest' ↔ Parses (.suffixes e) rest [e'] rest' := by
  simp [Continues]

theorem intercalate_cons_cons (sep ts us : List Token) (rest : List (List Token)) :
    List.intercalate sep (ts :: us :: rest) = ts ++ sep ++ List.intercalate sep (us :: rest) := by
  simp [List.intercalate]

/-- Arguments that are each read are read after each other. -/
theorem parses_arguments {args : List (List Token × HostExpr)} (rest : List Token)
    (hbegins : ∀ p ∈ args, Reads 1 p.1 p.2)
    (h : ∀ p ∈ args, ∀ rest, Quiet 1 rest → Parses (.expression 1) (p.1 ++ rest) [p.2] rest) :
    Parses .arguments (List.intercalate [.comma] (args.map (·.1)) ++ .closeParen :: rest)
      (args.map (·.2)) rest := by
  have hmore (p : List Token × HostExpr) (args : List (List Token × HostExpr))
      (h : ∀ q ∈ p :: args, ∀ rest, Quiet 1 rest →
        Parses (.expression 1) (q.1 ++ rest) [q.2] rest) :
      ∃ us, Parses (.expression 1)
          (List.intercalate [.comma] ((p :: args).map (·.1)) ++ .closeParen :: rest) [p.2] us ∧
        Parses .moreArguments us (args.map (·.2)) rest := by
    induction args generalizing p with
    | nil =>
      refine ⟨.closeParen :: rest, ?_, .lastArgument rest⟩
      simpa [List.intercalate] using
        h p (List.mem_singleton.mpr rfl) (.closeParen :: rest) (quiet_cons 1 rest rfl rfl)
    | cons q args ih =>
      obtain ⟨us, hq, hrest⟩ := ih q (fun r hr => h r (List.mem_cons_of_mem p hr))
      refine ⟨.comma :: (List.intercalate [.comma] ((q :: args).map (·.1)) ++ .closeParen :: rest),
        ?_, .nextArgument hq hrest⟩
      rw [List.map_cons, List.map_cons, intercalate_cons_cons, List.append_assoc, List.append_assoc]
      exact h p List.mem_cons_self _ (quiet_cons 1 _ rfl rfl)
  cases args with
  | nil => exact .noArguments rest
  | cons p args =>
    obtain ⟨us, hp, hrest⟩ := hmore p args h
    refine .someArguments ?_ hp hrest
    obtain ⟨t, ts, hts, ht⟩ := (hbegins p List.mem_cons_self).begins
    have hhead : List.head? (List.intercalate [.comma] ((p :: args).map (·.1)) ++
        .closeParen :: rest) = some t := by
      cases args <;> simp [List.intercalate, hts]
    rw [hhead]
    rintro ⟨⟩
    cases ht

theorem Reads.parses {level : Nat} {ts : List Token} {e : HostExpr} (h : Reads level ts e) :
    ∀ e' rest rest', Continues level e rest e' rest' →
      Parses (.expression level) (ts ++ rest) [e'] rest' := by
  induction h with
  | name text =>
    intro e' rest rest' h
    exact .primary (.name text rest) (continues_seven.mp h)
  | literal text =>
    intro e' rest rest' h
    exact .primary (.literal text rest) (continues_seven.mp h)
  | @paren ts e _ ih =>
    intro e' rest rest' h
    have hinner := ih e (.closeParen :: rest) _ (continues_self (quiet_cons 1 rest rfl rfl))
    refine .primary (.paren ?_) (continues_seven.mp h)
    simpa using hinner
  | @selector ts o text _ ih =>
    intro e' rest rest' h
    have := ih e' (.dot :: .name text :: rest) rest'
      (continues_seven.mpr (.selector (continues_seven.mp h)))
    simpa using this
  | @index ts us o i _ _ iho ihi =>
    intro e' rest rest' h
    have hinner := ihi i (.closeBracket :: rest) _ (continues_self (quiet_cons 1 rest rfl rfl))
    have := iho e' (.openBracket :: (us ++ .closeBracket :: rest)) rest'
      (continues_seven.mpr (.index hinner (continues_seven.mp h)))
    simpa using this
  | @call ts f args _ hargs ihf ihargs =>
    intro e' rest rest' h
    have hinner := parses_arguments rest hargs
      (fun p hp rest hrest => ihargs p hp p.2 rest rest (continues_self hrest))
    have := ihf e' _ rest' (continues_seven.mpr (.call hinner (continues_seven.mp h)))
    simpa using this
  | @dereference ts e _ ih =>
    intro e' rest rest' h
    obtain ⟨hquiet, rfl, rfl⟩ := continues_six.mp h
    exact .dereference rfl (ih e rest' rest' (continues_six.mpr ⟨hquiet, rfl, rfl⟩))
  | @unary ts e op _ ih =>
    intro e' rest rest' h
    obtain ⟨hquiet, rfl, rfl⟩ := continues_six.mp h
    exact .unary rfl (ih e rest' rest' (continues_six.mpr ⟨hquiet, rfl, rfl⟩))
  | @binary ts us a b op _ _ iha ihb =>
    intro e' rest rest' h
    obtain ⟨hquiet, h⟩ := (continues_five op.precedence_le_five).mp h
    have hright := ihb b rest rest (continues_self hquiet)
    -- The operator is of the level itself, so it ends whatever is tighter.
    have hop : Quiet (op.precedence + 1) (.binary op :: us ++ rest) := by
      refine ⟨fun t ht => ?_, fun op' hop' he => ?_⟩
      · obtain rfl : .binary op = t := by simpa using ht
        rfl
      · obtain rfl : op = op' := binary_inj (by simpa using he)
        omega
    have := iha e' (.binary op :: us ++ rest) rest'
      ((continues_five op.precedence_le_five).mpr ⟨hop, .operator rfl rfl hright h⟩)
    simpa using this
  | @tighter level ts e hlevel _ ih =>
    intro e' rest rest' h
    rcases Nat.lt_or_ge level 6 with hlt | hge
    · have hfive : level ≤ 5 := Nat.le_of_lt_succ hlt
      obtain ⟨hquiet, h⟩ := (continues_five hfive).mp h
      exact .level hfive (ih e rest rest (continues_self hquiet)) h
    · obtain rfl : level = 6 := Nat.le_antisymm hlevel.2 hge
      obtain ⟨hquiet, rfl, rfl⟩ := continues_six.mp h
      exact .noUnary (ih e' rest' rest' (continues_self (hquiet.mono (Nat.le_succ 6))))

/-- Tokens read as one expression at most. -/
theorem Reads.unique {level : Nat} {ts : List Token} {a b : HostExpr} (ha : Reads level ts a)
    (hb : Reads level ts b) : a = b := by
  have ha' := ha.parses a [] [] (continues_self (quiet_nil level))
  have hb' := hb.parses b [] [] (continues_self (quiet_nil level))
  exact List.head_eq_of_cons_eq (ha'.unique hb').1

/-! ## What is read of an expression -/

/-- Whether an expression may end with a token. -/
def ends : Token → Bool
  | name _ | literal _ | closeParen | closeBracket => true
  | _ => false

theorem Reads.ends {level : Nat} {ts : List Token} {e : HostExpr} (h : Reads level ts e) :
    ∃ t ∈ ts.getLast?, t.ends := by
  induction h with
  | name text => exact ⟨_, rfl, rfl⟩
  | literal text => exact ⟨_, rfl, rfl⟩
  | paren _ _ => exact ⟨.closeParen, List.getLast?_concat, rfl⟩
  | selector text _ _ =>
    refine ⟨.name text, ?_, rfl⟩
    simp
  | index _ _ _ _ => exact ⟨.closeBracket, List.getLast?_concat, rfl⟩
  | call _ _ _ _ => exact ⟨.closeParen, List.getLast?_concat, rfl⟩
  | dereference _ ih =>
    obtain ⟨t, ht, hends⟩ := ih
    exact ⟨t, by simp_all [List.getLast?_cons], hends⟩
  | unary op _ ih =>
    obtain ⟨t, ht, hends⟩ := ih
    exact ⟨t, by simp_all [List.getLast?_cons], hends⟩
  | binary op _ _ _ ih =>
    obtain ⟨t, ht, hends⟩ := ih
    exact ⟨t, by simp_all [List.getLast?_append, List.getLast?_cons], hends⟩
  | tighter _ _ ih => exact ih

end GoLowering.Token

namespace GoLowering

/-- The names and the literals of an expression, from the left. -/
def HostExpr.words : HostExpr → List Token
  | .name text => [.name text]
  | .literal text => [.literal text]
  | .selector object text => object.words ++ [.name text]
  | .index object inner => object.words ++ inner.words
  | .call callee args => callee.words ++ args.flatMap words
  | .dereference operand | .unary _ operand => operand.words
  | .binary _ left right => left.words ++ right.words

theorem Token.words_arguments {args : List (List Token × HostExpr)}
    (h : ∀ p ∈ args, p.1.filter isWord = p.2.words) :
    (List.intercalate [.comma] (args.map (·.1))).filter isWord =
      (args.map (·.2)).flatMap HostExpr.words := by
  induction args with
  | nil => rfl
  | cons p args ih =>
    obtain ⟨hp, hargs⟩ := List.forall_mem_cons.mp h
    cases args with
    | nil => simpa [List.intercalate] using hp
    | cons q args =>
      rw [List.map_cons, List.map_cons, intercalate_cons_cons, List.filter_append,
        List.filter_append, hp, ← List.map_cons, ih hargs]
      simp [isWord]

theorem Token.Reads.words_eq {level : Nat} {ts : List Token} {e : HostExpr}
    (h : Token.Reads level ts e) : ts.filter Token.isWord = e.words := by
  induction h with
  | name text => rw [HostExpr.words]; rfl
  | literal text => rw [HostExpr.words]; rfl
  | paren _ ih => simp [ih, Token.isWord]
  | selector text _ ih => simp [ih, HostExpr.words, Token.isWord]
  | index _ _ iho ihi => simp [iho, ihi, HostExpr.words, Token.isWord]
  | @call ts f args _ _ ihf ihargs =>
    simp [ihf, Token.words_arguments ihargs, HostExpr.words, Token.isWord]
  | dereference _ ih => simp [ih, HostExpr.words, Token.star, Token.isWord]
  | unary op _ ih => simp [ih, HostExpr.words, Token.unary, Token.isWord]
  | binary op _ _ iha ihb => simp [iha, ihb, HostExpr.words, Token.binary, Token.isWord]
  | tighter _ _ ih => exact ih

end GoLowering
