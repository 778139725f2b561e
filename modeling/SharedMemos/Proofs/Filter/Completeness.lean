import SharedMemos.Proofs.Filter.Grammar

/-!
# What the grammar derives, is read

The parsers take as much as they can. So a sequence that is derived is read as its expression
whenever what follows could not have been taken as well, and that is the statement that is proved
of each parser: with the rest of the tokens general, and a condition on the first of them only.

The grammar groups to the left, and the parsers go from the left with what they have so far. A
derivation of `a - b - c` has one of `a - b` inside it, after which the loop is still running. So
the lemmas on loops do not say that the parser stops after a sequence, but that it gets there: it
goes on with the rest as the loop does with the expression in its hands. Where the rest cannot be
taken, the loop ends.

## Main results

* `Continues`, `Stops` — which tokens a parser goes on over
* `Accepts` — what is derived and then stops, is read
* `parseTokens_accepts_grammar` — what is read is what is derived, and the rest are errors
* `Derives.unique` — so no sequence derives two expressions
-/

namespace SharedMemos.Filter

open SharedMemos.Filter.Parser

/-! ### What may follow -/

/-- A parser of the category that comes to the token, after an expression, would go on over it. An
opening bracket turns a name into a call. -/
inductive Continues : Category → Token → Prop
  | dot {c} : Continues c .dot
  | leftParen {c} : Continues c .leftParen
  | operator {t token op} (h : t.operator? token = some op) : Continues (.chain t) token
  | operand {t token} (h : Continues t.operand token) : Continues (.chain t) token

theorem continues_unary_iff {token : Token} :
    Continues .unary token ↔ token = .dot ∨ token = .leftParen := by
  constructor
  · rintro (_ | _)
    · exact .inl rfl
    · exact .inr rfl
  · rintro (rfl | rfl)
    · exact .dot
    · exact .leftParen

theorem continues_chain_iff {t : Tier} {token : Token} :
    Continues (.chain t) token ↔
      (∃ op, t.operator? token = some op) ∨ Continues t.operand token := by
  constructor
  · rintro (_ | _ | h | h)
    · exact .inr .dot
    · exact .inr .leftParen
    · exact .inl ⟨_, h⟩
    · exact .inr h
  · rintro (⟨op, h⟩ | h)
    · exact .operator h
    · exact .operand h

/-- Operators bind the looser the lower their tier: no operand goes on over one of its own tier. -/
theorem not_continues_operand {t : Tier} {token : Token} {op : Op}
    (h : t.operator? token = some op) : ¬ Continues t.operand token := by
  cases t <;> cases token <;>
    simp_all [Tier.operator?, Tier.operand, continues_chain_iff, continues_unary_iff, disjunction?,
      conjunction?, relation?, sum?, product?]

/-- Brackets that close, and commas, end every expression. -/
theorem not_continues_expression {token : Token}
    (h : token = .rightParen ∨ token = .rightBracket ∨ token = .comma) :
    ¬ Continues .expression token := by
  rcases h with rfl | rfl | rfl <;>
    simp [Category.expression, Tier.operator?, Tier.operand, continues_chain_iff,
      continues_unary_iff, disjunction?, conjunction?, relation?, sum?, product?]

/-- The tokens have nothing in front that a parser of the category goes on over. -/
def Stops (c : Category) (rest : List Lexeme) : Prop :=
  ∀ ⦃token pos more⦄, rest = (token, pos) :: more → ¬ Continues c token

theorem stops_nil (c : Category) : Stops c [] := by
  intro token pos more h
  cases h

theorem stops_cons {c : Category} {token : Token} {pos : Nat} {more : List Lexeme}
    (h : ¬ Continues c token) : Stops c ((token, pos) :: more) := by
  rintro _ _ _ ⟨⟩
  exact h

theorem stops_closing {token : Token}
    (h : token = .rightParen ∨ token = .rightBracket ∨ token = .comma) (pos : Nat)
    (more : List Lexeme) : Stops .expression ((token, pos) :: more) :=
  stops_cons (not_continues_expression h)

theorem Stops.operand {t : Tier} {rest : List Lexeme} (h : Stops (.chain t) rest) :
    Stops t.operand rest :=
  fun _ _ _ hrest hgoes => h hrest (.operand hgoes)

/-! ### How sequences start -/

/-- An expression may start with the token. -/
def Starts (token : Token) : Prop :=
  token ≠ .rightParen ∧ token ≠ .rightBracket ∧ token ≠ .comma

/-- No expression is empty or starts with what ends one. -/
theorem Derives.starts : ∀ {depth : Nat} {c : Category} {ts : List Token} {e : Expr},
    Derives depth c ts e → ∃ token more, ts = token :: more ∧ Starts token
  | _, _, _, _, .operand h | _, _, _, _, .member h => h.starts
  | _, _, _, _, .infixed _ hl _ | _, _, _, _, .selection hl _ | _, _, _, _, .method _ hl _
  | _, _, _, _, .quantified hl _ => by
    obtain ⟨token, more, rfl, hstarts⟩ := hl.starts
    exact ⟨token, _, rfl, hstarts⟩
  | _, _, _, _, .not _ | _, _, _, _, .neg _ _ | _, _, _, _, .int _ | _, _, _, _, .negative _
  | _, _, _, _, .string _ | _, _, _, _, .true | _, _, _, _, .false | _, _, _, _, .var _
  | _, _, _, _, .group _ | _, _, _, _, .list _ | _, _, _, _, .listWithComma _ _
  | _, _, _, _, .function _ _ => ⟨_, _, rfl, by simp [Starts]⟩

/-- So it is with several of them, if there are any. -/
theorem DerivesAll.starts {depth : Nat} {ts : List Token} {es : List Expr}
    (h : DerivesAll depth ts es) (hes : es ≠ []) :
    ∃ token more, ts = token :: more ∧ Starts token := by
  cases h with
  | none => exact absurd rfl hes
  | last h => exact h.starts
  | cons h _ _ =>
    obtain ⟨token, more, rfl, hstarts⟩ := h.starts
    exact ⟨token, _, rfl, hstarts⟩

theorem DerivesAll.eq_nil {depth : Nat} {ts : List Token} (h : DerivesAll depth ts []) :
    ts = [] := by
  cases h
  rfl

namespace Parser

/-! ### What the parsers accept -/

/-- What is derived and then stops, is read. -/
def Accepts (p : P) (depth : Nat) (c : Category) : Prop :=
  ∀ ⦃front e rest⦄, Derives depth c (tokensOf front) e → Stops c rest →
    p (front ++ rest) = .ok (e, rest)

/-- The same one level down, if there is one. -/
def AcceptsBelow (p : P) (depth : Nat) (c : Category) : Prop :=
  ∀ ⦃below⦄, depth = below + 1 → Accepts p below c

theorem Accepts.below {p : P} {depth : Nat} {c : Category} (h : Accepts p depth c) :
    AcceptsBelow p (depth + 1) c := by
  rintro _ ⟨⟩
  exact h

theorem acceptsBelow_zero (p : P) (c : Category) : AcceptsBelow p 0 c := by
  rintro _ ⟨⟩

variable {p inner : P} {stop depth : Nat}

/-! #### Tokens of a part of the text -/

theorem tokensOf_eq_cons {front : List Lexeme} {token : Token} {ts : List Token}
    (h : tokensOf front = token :: ts) :
    ∃ pos more, front = (token, pos) :: more ∧ tokensOf more = ts := by
  obtain ⟨⟨_, pos⟩, more, rfl, rfl, hmore⟩ := List.map_eq_cons_iff.mp h
  exact ⟨pos, more, rfl, hmore⟩

theorem tokensOf_eq_singleton {front : List Lexeme} {token : Token}
    (h : tokensOf front = [token]) : ∃ pos, front = [(token, pos)] := by
  obtain ⟨⟨_, pos⟩, rfl, rfl⟩ := List.map_eq_singleton_iff.mp h
  exact ⟨pos, rfl⟩

theorem tokensOf_eq_append {front : List Lexeme} {ts us : List Token}
    (h : tokensOf front = ts ++ us) :
    ∃ left right, front = left ++ right ∧ tokensOf left = ts ∧ tokensOf right = us :=
  List.map_eq_append_iff.mp h

/-! #### Chains of operators -/

/-- The loop ends where there is no operator for it. -/
theorem chain_of_stops {t : Tier} {rest : List Lexeme} (hrest : Stops (.chain t) rest) (p : P)
    (fuel : Nat) (e : Expr) : Parser.chain t.operator? p fuel e rest = .ok (e, rest) := by
  rcases fuel with _ | fuel
  · rfl
  · rcases rest with _ | ⟨⟨token, pos⟩, more⟩
    · rfl
    · have hop : t.operator? token = none :=
        Option.eq_none_iff_forall_ne_some.mpr fun op hop => hrest rfl (.operator hop)
      simp only [Parser.chain, hop]

/-- The loop gets past what is derived, with the expression in its hands. -/
theorem Accepts.infixLeft_eq_chain {t : Tier} (hp : Accepts p depth t.operand) :
    ∀ {ts : List Token} {e : Expr}, Derives depth (.chain t) ts e → ∀ {front rest : List Lexeme},
      tokensOf front = ts → Stops t.operand rest →
      ∃ fuel, rest.length ≤ fuel ∧ Parser.infixLeft t.operator? p (front ++ rest)
        = Parser.chain t.operator? p fuel e rest
  | _, _, .operand h, front, rest, hfront, hrest => by
    subst hfront
    exact ⟨rest.length, Nat.le_refl _, by rw [Parser.infixLeft, hp h hrest]⟩
  | _, _, @Derives.infixed _ _ token _ _ _ _ _ hop hl hr, front, rest, hfront, hrest => by
    obtain ⟨left, _, rfl, rfl, hmore⟩ := tokensOf_eq_append hfront
    obtain ⟨pos, right, rfl, rfl⟩ := tokensOf_eq_cons hmore
    have hstops : Stops t.operand ((token, pos) :: (right ++ rest)) :=
      stops_cons (not_continues_operand hop)
    obtain ⟨_ | fuel, hfuel, hleft⟩ := hp.infixLeft_eq_chain hl rfl hstops
    · exact absurd hfuel (Nat.not_succ_le_zero _)
    · refine ⟨fuel, ?_, ?_⟩
      · simp only [List.length_cons, List.length_append] at hfuel
        omega
      · rw [List.append_assoc, List.cons_append, hleft, Parser.chain]
        simp only [hop, hp hr hrest]

theorem Accepts.infixLeft {t : Tier} (hp : Accepts p depth t.operand) :
    Accepts (Parser.infixLeft t.operator? p) depth (.chain t) := by
  intro front e rest hderives hrest
  obtain ⟨fuel, -, hchain⟩ := hp.infixLeft_eq_chain hderives rfl hrest.operand
  rw [hchain, chain_of_stops hrest]

theorem Accepts.expressionOver (hp : Accepts p depth .unary) :
    Accepts (Parser.expressionOver p) depth .expression :=
  have hproduct : Accepts _ depth (.chain .product) := hp.infixLeft (t := .product)
  have hsum : Accepts _ depth (.chain .sum) := hproduct.infixLeft (t := .sum)
  have hrelation : Accepts _ depth (.chain .relation) := hsum.infixLeft (t := .relation)
  have hconjunction : Accepts _ depth (.chain .conjunction) :=
    hrelation.infixLeft (t := .conjunction)
  hconjunction.infixLeft (t := .disjunction)

/-! #### Arguments and items -/

theorem argumentsFrom_of_derivesAll (pos : Nat) (rest : List Lexeme) :
    ∀ {depth : Nat} {ts : List Token} {args : List Expr}, DerivesAll depth ts args →
      AcceptsBelow p depth .expression → args ≠ [] →
      ∀ {front : List Lexeme} {fuel : Nat}, tokensOf front = ts → front.length < fuel →
      argumentsFrom p stop fuel (front ++ (.rightParen, pos) :: rest) = .ok (args, rest)
  | _, _, _, .none, _, hne, _, _, _, _ => absurd rfl hne
  | _, _, _, .last h, hp, _, front, fuel + 1, hfront, _ => by
    subst hfront
    rw [argumentsFrom, hp rfl h (stops_closing (by simp) pos rest)]
  | _, _, _, .cons h hne hall, hp, _, front, fuel + 1, hfront, hfuel => by
    obtain ⟨first, _, rfl, rfl, hmore⟩ := tokensOf_eq_append hfront
    obtain ⟨pos', others, rfl, rfl⟩ := tokensOf_eq_cons hmore
    have hlength : others.length < fuel := by
      simp only [List.length_append, List.length_cons] at hfuel
      omega
    rw [List.append_assoc, List.cons_append, argumentsFrom,
      hp rfl h (stops_closing (by simp) pos' _)]
    simp only [argumentsFrom_of_derivesAll pos rest hall hp hne rfl hlength]

theorem exists_cons_of_starts {front : List Lexeme}
    (h : ∃ token more, tokensOf front = token :: more ∧ Starts token) :
    ∃ token pos more, front = (token, pos) :: more ∧ Starts token := by
  obtain ⟨token, _, hfront, hstarts⟩ := h
  obtain ⟨pos, more, rfl, -⟩ := tokensOf_eq_cons hfront
  exact ⟨token, pos, more, rfl, hstarts⟩

theorem arguments_of_derivesAll (hp : AcceptsBelow p depth .expression) {front : List Lexeme}
    {args : List Expr} (h : DerivesAll depth (tokensOf front) args) (pos : Nat)
    (rest : List Lexeme) :
    arguments p stop (front ++ (.rightParen, pos) :: rest) = .ok (args, rest) := by
  by_cases hargs : args = []
  · subst hargs
    obtain rfl := List.map_eq_nil_iff.mp h.eq_nil
    rfl
  · obtain ⟨token, pos', more, rfl, hstarts⟩ := exists_cons_of_starts (h.starts hargs)
    rw [arguments.eq_2 _ _ _ (by rintro _ _ ⟨⟩; exact hstarts.1 rfl)]
    refine argumentsFrom_of_derivesAll pos rest h hp hargs rfl ?_
    simp only [List.length_append, List.length_cons]
    omega

theorem itemsFrom_of_derivesAll (start : Nat) {close : List Lexeme}
    (hclose : IsListEnd (tokensOf close)) (rest : List Lexeme) :
    ∀ {depth : Nat} {ts : List Token} {es : List Expr}, DerivesAll depth ts es →
      AcceptsBelow p depth .expression → es ≠ [] →
      ∀ {front : List Lexeme} {fuel : Nat}, tokensOf front = ts → front.length < fuel →
      itemsFrom p stop start fuel (front ++ (close ++ rest)) = .ok (es, rest)
  | _, _, _, .none, _, hne, _, _, _, _ => absurd rfl hne
  | _, _, _, .last h, hp, _, front, fuel + 1, hfront, _ => by
    subst hfront
    rcases hclose with hclose | hclose
    · obtain ⟨pos, rfl⟩ := tokensOf_eq_singleton hclose
      rw [itemsFrom, List.cons_append, hp rfl h (stops_closing (by simp) pos _)]
      rfl
    · obtain ⟨pos, _, rfl, hmore⟩ := tokensOf_eq_cons hclose
      obtain ⟨pos', rfl⟩ := tokensOf_eq_singleton hmore
      rw [itemsFrom, List.cons_append, hp rfl h (stops_closing (by simp) pos _)]
      rfl
  | _, _, _, .cons h hne hall, hp, _, front, fuel + 1, hfront, hfuel => by
    obtain ⟨first, _, rfl, rfl, hmore⟩ := tokensOf_eq_append hfront
    obtain ⟨pos, others, rfl, rfl⟩ := tokensOf_eq_cons hmore
    have hlength : others.length < fuel := by
      simp only [List.length_append, List.length_cons] at hfuel
      omega
    have hothers := itemsFrom_of_derivesAll start hclose rest hall hp hne rfl hlength
    -- a bracket after the comma would close the list
    obtain ⟨token, pos', others, rfl, hstarts⟩ := exists_cons_of_starts (hall.starts hne)
    rw [List.append_assoc, List.cons_append, itemsFrom, hp rfl h (stops_closing (by simp) pos _)]
    have hnot : ∀ q qs, (token, pos') :: others ++ (close ++ rest) ≠ (.rightBracket, q) :: qs := by
      rintro _ _ ⟨⟩
      exact hstarts.2.1 rfl
    simp only [hothers]

/-- A list in square brackets. -/
theorem items_of_derivesAll (hp : AcceptsBelow p depth .expression) {start : Nat}
    {front close : List Lexeme} {es : List Expr} (h : DerivesAll depth (tokensOf front) es)
    (hclose : IsListEnd (tokensOf close)) (hes : es = [] → tokensOf close = [.rightBracket])
    (rest : List Lexeme) :
    items p stop start (front ++ (close ++ rest)) = .ok (es, rest) := by
  by_cases hne : es = []
  · subst hne
    obtain rfl := List.map_eq_nil_iff.mp h.eq_nil
    obtain ⟨pos, rfl⟩ := tokensOf_eq_singleton (hes rfl)
    rfl
  · obtain ⟨token, pos, more, rfl, hstarts⟩ := exists_cons_of_starts (h.starts hne)
    rw [items.eq_2 _ _ _ _ (by rintro _ _ ⟨⟩; exact hstarts.2.1 rfl)]
    refine itemsFrom_of_derivesAll start hclose rest h hp hne rfl ?_
    simp only [List.length_append, List.length_cons]
    omega

/-! #### Selections and calls -/

theorem methodCall_of_mem {op : Op} (hop : op ∈ methods) (receiver : Expr) (args : List Expr) :
    methodCall receiver op.name args = .ok (.method op receiver args) := by
  simp only [methods, List.mem_cons, List.not_mem_nil, or_false] at hop
  rcases hop with rfl | rfl | rfl | rfl <;> rfl

theorem methodCall_quantifier (q : Quantifier) (range body : Expr) (binder : String) :
    methodCall range q.name [.var binder, body] = .ok (.quantified q binder range body) := by
  cases q <;> rfl

theorem functionCall_of_mem {op : Op} (hop : op ∈ functions) (args : List Expr) :
    functionCall op.name args = .ok (.call op args) := by
  simp only [functions, List.mem_cons, List.not_mem_nil, or_false] at hop
  rcases hop with rfl | rfl <;> rfl

/-- None of the functions is a word of its own. -/
theorem name_notMem_keywords {op : Op} (hop : op ∈ functions) : op.name ∉ keywords := by
  simp only [functions, List.mem_cons, List.not_mem_nil, or_false] at hop
  rcases hop with rfl | rfl <;> decide

theorem selection_property {name field : String} (h : propertyField? name = some field) :
    selection (.var "property") name = .ok (.var field) := by
  simp only [selection, h]

/-- The loop ends where there is no dot. -/
theorem members_of_stops {rest : List Lexeme} (hrest : Stops .unary rest) (fuel : Nat) (e : Expr) :
    members p stop fuel e rest = .ok (e, rest) := by
  have hdot : ∀ pos more, rest ≠ (.dot, pos) :: more := by
    rintro pos more rfl
    exact hrest rfl .dot
  rcases fuel with _ | fuel
  · rfl
  · rw [members]
    all_goals
      intros
      exact hdot _ _ ‹_›

/-- A call on what the loop has in its hands. -/
theorem members_call (hp : AcceptsBelow p depth .expression) {front : List Lexeme}
    {args : List Expr} (h : DerivesAll depth (tokensOf front) args) {base e : Expr} {name : String}
    (hcall : methodCall base name args = .ok e) (fuel : Nat) (pos₁ pos₂ pos₃ pos₄ : Nat)
    (rest : List Lexeme) :
    members p stop (fuel + 1) base ((.dot, pos₁) :: (.ident name, pos₂) :: (.leftParen, pos₃)
      :: (front ++ (.rightParen, pos₄) :: rest)) = members p stop fuel e rest := by
  rw [members]
  simp only [arguments_of_derivesAll hp h, hcall]

/-- A selection from what the loop has in its hands. -/
theorem members_selection {base e : Expr} {name : String} (hfield : selection base name = .ok e)
    (fuel : Nat) (pos₁ pos₂ : Nat) {rest : List Lexeme}
    (hrest : ∀ pos more, rest ≠ (.leftParen, pos) :: more) :
    members p stop (fuel + 1) base ((.dot, pos₁) :: (.ident name, pos₂) :: rest)
      = members p stop fuel e rest := by
  rw [members]
  · simp only [hfield]
  · exact hrest

/-! #### Members and prefix operators -/

/-- The name of a variable, where no bracket makes it a call. -/
theorem primary_var {name : String} (hname : name ∉ keywords) (pos : Nat) {rest : List Lexeme}
    (hrest : ∀ pos more, rest ≠ (.leftParen, pos) :: more) :
    primary p stop ((.ident name, pos) :: rest) = .ok (.var name, rest) := by
  simp only [keywords, List.mem_cons, List.not_mem_nil, or_false, not_or] at hname
  obtain ⟨htrue, hfalse, hin⟩ := hname
  rw [primary]
  simp only [htrue, hfalse, hin, if_false]
  exact fun pos more => hrest pos more

theorem primary_function (hp : AcceptsBelow p depth .expression) {op : Op} (hop : op ∈ functions)
    {front : List Lexeme} {args : List Expr} (h : DerivesAll depth (tokensOf front) args)
    (pos₁ pos₂ pos₃ : Nat) (rest : List Lexeme) :
    primary p stop ((.ident op.name, pos₁) :: (.leftParen, pos₂)
      :: (front ++ (.rightParen, pos₃) :: rest)) = .ok (.call op args, rest) := by
  have hname := name_notMem_keywords hop
  simp only [keywords, List.mem_cons, List.not_mem_nil, or_false, not_or] at hname
  obtain ⟨htrue, hfalse, hin⟩ := hname
  rw [primary]
  simp only [htrue, hfalse, hin, if_false, arguments_of_derivesAll hp h, functionCall_of_mem hop]

/-- What is neither a prefix operator nor a negative literal, starts with a primary expression. -/
theorem unaryOver_of_primary {token : Token} (pos : Nat) {more rest : List Lexeme} {base : Expr}
    (hbang : token ≠ .bang) (hminus : token ≠ .minus)
    (h : primary p stop ((token, pos) :: more) = .ok (base, rest)) :
    unaryOver p inner stop ((token, pos) :: more) = members p stop rest.length base rest := by
  rw [unaryOver]
  · simp only [h]
  · rintro _ _ ⟨⟩
    exact hbang rfl
  · rintro _ _ _ _ ⟨⟩
    exact hminus rfl
  · rintro _ _ ⟨⟩
    exact hminus rfl

/-- Past a call, if it got past the receiver. -/
theorem unaryOver_eq_members_call (hp : AcceptsBelow p depth .expression) {ts us : List Token}
    {receiver e : Expr} {name : String} {args : List Expr} (hargs : DerivesAll depth us args)
    (hcall : methodCall receiver name args = .ok e) {front rest : List Lexeme}
    (hfront : tokensOf front
      = ts ++ .dot :: .ident name :: .leftParen :: (us ++ [.rightParen]))
    (hreceiver : ∀ base, tokensOf base = ts → ∀ rest,
      (∀ pos more, rest ≠ (.leftParen, pos) :: more) → ∃ fuel, rest.length ≤ fuel ∧
        unaryOver p inner stop (base ++ rest) = members p stop fuel receiver rest) :
    ∃ fuel, rest.length ≤ fuel ∧
      unaryOver p inner stop (front ++ rest) = members p stop fuel e rest := by
  obtain ⟨base, _, rfl, hbase, hmore⟩ := tokensOf_eq_append hfront
  obtain ⟨pos₁, _, rfl, hname⟩ := tokensOf_eq_cons hmore
  obtain ⟨pos₂, _, rfl, hopen⟩ := tokensOf_eq_cons hname
  obtain ⟨pos₃, _, rfl, hinside⟩ := tokensOf_eq_cons hopen
  obtain ⟨inside, _, rfl, rfl, hclose⟩ := tokensOf_eq_append hinside
  obtain ⟨pos₄, rfl⟩ := tokensOf_eq_singleton hclose
  obtain ⟨_ | fuel, hfuel, hread⟩ := hreceiver base hbase
    ((.dot, pos₁) :: (.ident name, pos₂) :: (.leftParen, pos₃)
      :: (inside ++ (.rightParen, pos₄) :: rest)) nofun
  · exact absurd hfuel (Nat.not_succ_le_zero _)
  · refine ⟨fuel, ?_, ?_⟩
    · simp only [List.length_cons, List.length_append] at hfuel
      omega
    · rw [members_call hp hargs hcall] at hread
      simpa only [List.append_assoc, List.cons_append, List.nil_append] using hread

/-- The loop of selections and calls gets past what is derived, with the expression in its hands. -/
theorem unaryOver_eq_members : ∀ {depth : Nat} {ts : List Token} {e : Expr},
    Derives depth .member ts e → AcceptsBelow p depth .expression →
    ∀ {front rest : List Lexeme}, tokensOf front = ts →
      (∀ pos more, rest ≠ (.leftParen, pos) :: more) →
      ∃ fuel, rest.length ≤ fuel ∧
        unaryOver p inner stop (front ++ rest) = members p stop fuel e rest
  | _, _, _, .int _, _, _, rest, hfront, _ | _, _, _, .string _, _, _, rest, hfront, _
  | _, _, _, .true, _, _, rest, hfront, _ | _, _, _, .false, _, _, rest, hfront, _ => by
    obtain ⟨_, rfl⟩ := tokensOf_eq_singleton hfront
    exact ⟨rest.length, Nat.le_refl _, rfl⟩
  | _, _, _, .negative n, _, _, rest, hfront, _ => by
    obtain ⟨_, _, rfl, hint⟩ := tokensOf_eq_cons hfront
    obtain ⟨_, rfl⟩ := tokensOf_eq_singleton hint
    exact ⟨rest.length, Nat.le_refl _, rfl⟩
  | _, _, _, .var hname, _, _, rest, hfront, hrest => by
    obtain ⟨pos, rfl⟩ := tokensOf_eq_singleton hfront
    exact ⟨rest.length, Nat.le_refl _,
      unaryOver_of_primary pos nofun nofun (primary_var hname pos hrest)⟩
  | _, _, _, .group h, hp, _, rest, hfront, _ => by
    obtain ⟨pos, _, rfl, hmore⟩ := tokensOf_eq_cons hfront
    obtain ⟨inside, _, rfl, rfl, hclose⟩ := tokensOf_eq_append hmore
    obtain ⟨pos', rfl⟩ := tokensOf_eq_singleton hclose
    refine ⟨rest.length, Nat.le_refl _, unaryOver_of_primary pos nofun nofun ?_⟩
    simp only [List.append_eq, List.append_assoc, List.cons_append, List.nil_append, primary,
      hp rfl h (stops_closing (.inl rfl) pos' rest)]
  | _, _, _, .list h, hp, _, rest, hfront, _ => by
    obtain ⟨pos, _, rfl, hmore⟩ := tokensOf_eq_cons hfront
    obtain ⟨inside, close, rfl, rfl, hclose⟩ := tokensOf_eq_append hmore
    refine ⟨rest.length, Nat.le_refl _, unaryOver_of_primary pos nofun nofun ?_⟩
    simp only [List.append_eq, List.append_assoc, primary,
      items_of_derivesAll hp h (.inl hclose) (fun _ => hclose)]
  | _, _, _, .listWithComma h hes, hp, _, rest, hfront, _ => by
    obtain ⟨pos, _, rfl, hmore⟩ := tokensOf_eq_cons hfront
    obtain ⟨inside, close, rfl, rfl, hclose⟩ := tokensOf_eq_append hmore
    refine ⟨rest.length, Nat.le_refl _, unaryOver_of_primary pos nofun nofun ?_⟩
    simp only [List.append_eq, List.append_assoc, primary,
      items_of_derivesAll hp h (.inr hclose) (fun hnil => absurd hnil hes)]
  | _, _, _, .function hop h, hp, _, rest, hfront, _ => by
    obtain ⟨pos, _, rfl, hcall⟩ := tokensOf_eq_cons hfront
    obtain ⟨pos', _, rfl, hmore⟩ := tokensOf_eq_cons hcall
    obtain ⟨inside, _, rfl, rfl, hclose⟩ := tokensOf_eq_append hmore
    obtain ⟨pos'', rfl⟩ := tokensOf_eq_singleton hclose
    refine ⟨rest.length, Nat.le_refl _, unaryOver_of_primary pos nofun nofun ?_⟩
    simpa only [List.append_eq, List.append_assoc, List.cons_append, List.nil_append]
      using primary_function hp hop h pos pos' pos'' rest
  | _, _, _, @Derives.selection _ _ name _ h hfield, hp, _, rest, hfront, hrest => by
    obtain ⟨base, _, rfl, hbase, hmore⟩ := tokensOf_eq_append hfront
    obtain ⟨pos, _, rfl, hname⟩ := tokensOf_eq_cons hmore
    obtain ⟨pos', rfl⟩ := tokensOf_eq_singleton hname
    have hdot : ∀ q more, (.dot, pos) :: (.ident name, pos') :: rest
      ≠ ((.leftParen, q) :: more : List Lexeme) := nofun
    obtain ⟨_ | fuel, hfuel, hread⟩ := unaryOver_eq_members h hp hbase hdot
    · exact absurd hfuel (Nat.not_succ_le_zero _)
    · refine ⟨fuel, Nat.le_of_succ_le (Nat.le_of_succ_le_succ hfuel), ?_⟩
      rw [List.append_assoc]
      exact hread.trans (members_selection (selection_property hfield) fuel pos pos' hrest)
  | _, _, _, .method hop h hargs, hp, _, rest, hfront, _ =>
    unaryOver_eq_members_call hp hargs (methodCall_of_mem hop _ _) hfront
      fun _ hbase _ hrest => unaryOver_eq_members h hp hbase hrest
  | _, _, _, .quantified h hargs, hp, _, rest, hfront, _ =>
    unaryOver_eq_members_call hp hargs (methodCall_quantifier _ _ _ _) hfront
      fun _ hbase _ hrest => unaryOver_eq_members h hp hbase hrest
termination_by _ ts => ts.length
decreasing_by all_goals simp

theorem accepts_unaryOver (hp : AcceptsBelow p depth .expression)
    (hinner : AcceptsBelow inner depth .unary) : Accepts (unaryOver p inner stop) depth .unary := by
  intro front e rest h hrest
  generalize hts : tokensOf front = ts at h
  cases h with
  | not h =>
    obtain ⟨pos, more, rfl, rfl⟩ := tokensOf_eq_cons hts
    rw [List.cons_append, unaryOver, prefixed, hinner rfl h hrest]
  | neg hint h =>
    obtain ⟨pos, more, rfl, rfl⟩ := tokensOf_eq_cons hts
    obtain ⟨token, pos', more, rfl, -⟩ := exists_cons_of_starts h.starts
    rw [List.cons_append, unaryOver, prefixed, hinner rfl h hrest]
    rintro n pos'' more' ⟨⟩
    exact hint n _ rfl
  | member h =>
    obtain ⟨fuel, -, hread⟩ := unaryOver_eq_members h hp hts
      (fun pos more hmore => hrest hmore .leftParen)
    rw [hread, members_of_stops hrest]

theorem accepts_unary (stop : Nat) : ∀ depth : Nat, Accepts (unary stop depth) depth .unary
  | 0 => accepts_unaryOver (acceptsBelow_zero _ _) (acceptsBelow_zero _ _)
  | depth + 1 => accepts_unaryOver (accepts_unary stop depth).expressionOver.below
      (accepts_unary stop depth).below

end Parser

/-- **What is derived, is read**: there is nothing left after it. -/
theorem parseTokens_of_derives {input : Lexemes} {e : Expr}
    (h : Derives (maxDepth - 1) .expression (tokensOf input.tokens) e) :
    parseTokens input = .ok e := by
  have hread := (accepts_unary input.stop (maxDepth - 1)).expressionOver h (stops_nil _)
  rw [List.append_nil] at hread
  rw [parseTokens, show maxDepth = maxDepth - 1 + 1 from rfl, expression, hread]

/-- **The parser accepts exactly its grammar.** It gives the expression that a sequence of tokens
derives, whatever the offsets are, and an error where the sequence derives none. -/
theorem parseTokens_accepts_grammar (input : Lexemes) :
    (∀ e, parseTokens input = .ok e ↔
      Derives (maxDepth - 1) .expression (tokensOf input.tokens) e) ∧
    ((∃ error, parseTokens input = .error error) ↔
      ∀ e, ¬ Derives (maxDepth - 1) .expression (tokensOf input.tokens) e) := by
  refine ⟨fun e => ⟨derives_of_parseTokens, parseTokens_of_derives⟩, ?_, fun hnone => ?_⟩
  · rintro ⟨error, herror⟩ e hderives
    rw [parseTokens_of_derives hderives] at herror
    cases herror
  · cases hread : parseTokens input with
    | error error => exact ⟨error, rfl⟩
    | ok e => exact absurd (derives_of_parseTokens hread) (hnone e)

/-- A sequence of tokens derives one expression at most: the grammar is not ambiguous. -/
theorem Derives.unique {ts : List Token} {e e' : Expr}
    (h : Derives (maxDepth - 1) .expression ts e) (h' : Derives (maxDepth - 1) .expression ts e') :
    e = e' := by
  have htokens : tokensOf (ts.map fun token => (token, 0)) = ts := by simp [Function.comp_def]
  rw [← htokens] at h h'
  have hread : parseTokens ⟨ts.map fun token => (token, 0), 0⟩ = .ok e := parseTokens_of_derives h
  exact Except.ok.inj (hread.symm.trans (parseTokens_of_derives h'))

/-- A text is read as what its tokens derive. -/
theorem parse_eq_ok_iff {text : String} {e : Expr} :
    parse text = .ok e ↔ ∃ input, tokenize text = .ok input ∧
      Derives (maxDepth - 1) .expression (tokensOf input.tokens) e := by
  constructor
  · exact exists_derives_of_parse
  · rintro ⟨input, htokens, hderives⟩
    rw [parse, htokens]
    exact parseTokens_of_derives hderives

end SharedMemos.Filter
