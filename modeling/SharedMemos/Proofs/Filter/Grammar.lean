import SharedMemos.Filter.Parser
import Mathlib.Tactic.Common

/-!
# The grammar that filters are read by

The parsers are functions from tokens to expressions, and each of them calls the next. What they
accept is stated here as a grammar, a relation between sequences of tokens and expressions that
knows nothing of what comes after the sequence and of where the tokens stand in the text.

Whatever is to be said of every expression that some text is read as, its height or its names, is
then an induction over derivations, with a case for each rule. The parsers themselves are opened
here only.

## Depth

A derivation carries how many levels it may still go down. Brackets, arguments and prefix operators
go down one level. Operators between operands and selections and calls after an expression do not,
however many there are.

## Main results

* `Derives`, `DerivesAll` — the grammar
* `derives_of_parseTokens` — what is read, is derived
-/

namespace SharedMemos.Filter

open SharedMemos.Filter.Parser

/-! ### The rules -/

/-- Infix operators of one strength, from loose to tight. -/
inductive Tier where
  | disjunction | conjunction | relation | sum | product
deriving Repr, DecidableEq

/-- The operator of a tier that a token stands for. -/
def Tier.operator? : Tier → Token → Option Op
  | .disjunction => disjunction?
  | .conjunction => conjunction?
  | .relation => relation?
  | .sum => sum?
  | .product => product?

/-- What a sequence of tokens is read as. -/
inductive Category where
  /-- Operands with operators of a tier between them. -/
  | chain (t : Tier)
  /-- Prefix operators and their operand. -/
  | unary
  /-- A literal, a name or something in brackets, with selections and calls after it. -/
  | member
deriving Repr, DecidableEq

/-- An expression of any kind. -/
abbrev Category.expression : Category := .chain .disjunction

/-- What the operands of a tier are read as. -/
def Tier.operand : Tier → Category
  | .disjunction => .chain .conjunction
  | .conjunction => .chain .relation
  | .relation => .chain .sum
  | .sum => .chain .product
  | .product => .unary

/-- Words that are no names of variables. -/
def keywords : List String := ["true", "false", "in"]

/-- The functions without a receiver. -/
def functions : List Op := [.size, .now]

/-- The functions with a receiver, comprehensions apart. -/
def methods : List Op := [.contains, .startsWith, .endsWith, .size]

mutual

/-- The sequence of tokens derives the expression, with `depth` levels below its own. -/
inductive Derives : (depth : Nat) → Category → List Token → Expr → Prop
  | operand {depth t ts e} (h : Derives depth t.operand ts e) : Derives depth (.chain t) ts e
  | infixed {depth t token op ls l rs r} (hop : t.operator? token = some op)
      (hl : Derives depth (.chain t) ls l) (hr : Derives depth t.operand rs r) :
      Derives depth (.chain t) (ls ++ token :: rs) (.call op [l, r])
  | not {depth ts e} (h : Derives depth .unary ts e) :
      Derives (depth + 1) .unary (.bang :: ts) (.call .not [e])
  | neg {depth ts e} (hts : ∀ n rest, ts ≠ .int n :: rest) (h : Derives depth .unary ts e) :
      Derives (depth + 1) .unary (.minus :: ts) (.call .neg [e])
  | member {depth ts e} (h : Derives depth .member ts e) : Derives depth .unary ts e
  | int {depth} (n : Int) : Derives depth .member [.int n] (.const (.int n))
  | negative {depth} (n : Int) : Derives depth .member [.minus, .int n] (.const (.int (-n)))
  | string {depth} (s : String) : Derives depth .member [.string s] (.const (.string s))
  | true {depth} : Derives depth .member [.ident "true"] (.const (.bool true))
  | false {depth} : Derives depth .member [.ident "false"] (.const (.bool false))
  | var {depth name} (hname : name ∉ keywords) : Derives depth .member [.ident name] (.var name)
  | group {depth ts e} (h : Derives depth .expression ts e) :
      Derives (depth + 1) .member (.leftParen :: (ts ++ [.rightParen])) e
  | list {depth ts es} (h : DerivesAll depth ts es) :
      Derives depth .member (.leftBracket :: (ts ++ [.rightBracket])) (.list es)
  | listWithComma {depth ts es} (h : DerivesAll depth ts es) (hes : es ≠ []) :
      Derives depth .member (.leftBracket :: (ts ++ [.comma, .rightBracket])) (.list es)
  | function {depth op ts args} (hop : op ∈ functions) (h : DerivesAll depth ts args) :
      Derives depth .member (.ident op.name :: .leftParen :: (ts ++ [.rightParen])) (.call op args)
  | selection {depth ts name field} (h : Derives depth .member ts (.var "property"))
      (hfield : propertyField? name = some field) :
      Derives depth .member (ts ++ [.dot, .ident name]) (.var field)
  | method {depth op ts receiver us args} (hop : op ∈ methods)
      (h : Derives depth .member ts receiver) (hargs : DerivesAll depth us args) :
      Derives depth .member (ts ++ .dot :: .ident op.name :: .leftParen :: (us ++ [.rightParen]))
        (.method op receiver args)
  | quantified {depth q ts range us binder body} (h : Derives depth .member ts range)
      (hargs : DerivesAll depth us [.var binder, body]) :
      Derives depth .member (ts ++ .dot :: .ident q.name :: .leftParen :: (us ++ [.rightParen]))
        (.quantified q binder range body)

/-- The sequence of tokens derives the expressions, with commas between them, one level down. -/
inductive DerivesAll : (depth : Nat) → List Token → List Expr → Prop
  | none {depth} : DerivesAll depth [] []
  | last {depth ts e} (h : Derives depth .expression ts e) : DerivesAll (depth + 1) ts [e]
  | cons {depth ts e us es} (h : Derives depth .expression ts e) (hes : es ≠ [])
      (hall : DerivesAll (depth + 1) us es) : DerivesAll (depth + 1) (ts ++ .comma :: us) (e :: es)

end

namespace Parser

/-! ### What the parsers read -/

/-- The tokens of a sequence, without the offsets. -/
abbrev tokensOf (ts : List Lexeme) : List Token := ts.map Prod.fst

/-- Whatever the parser takes from the front derives what it gives. -/
def Reads (p : P) (depth : Nat) (c : Category) : Prop :=
  ∀ ⦃ts e rest⦄, p ts = .ok (e, rest) →
    ∃ front, ts = front ++ rest ∧ Derives depth c (tokensOf front) e

/-- The same one level down, if there is one. -/
def ReadsBelow (p : P) (depth : Nat) (c : Category) : Prop :=
  ∀ ⦃ts e rest⦄, p ts = .ok (e, rest) →
    ∃ below front, depth = below + 1 ∧ ts = front ++ rest ∧ Derives below c (tokensOf front) e

theorem Reads.below {p : P} {depth : Nat} {c : Category} (h : Reads p depth c) :
    ReadsBelow p (depth + 1) c := by
  intro ts e rest hp
  obtain ⟨front, hts, hderives⟩ := h hp
  exact ⟨depth, front, rfl, hts, hderives⟩

theorem readsBelow_tooDeep (stop : Nat) (c : Category) : ReadsBelow (tooDeep stop) 0 c := by
  intro ts e rest h
  cases h

variable {p inner : P} {stop depth : Nat}

/-! #### Chains of operators -/

theorem Reads.chain {t : Tier} (hp : Reads p depth t.operand) :
    ∀ {fuel : Nat} {front : List Token} {left : Expr} {ts e rest},
      Derives depth (.chain t) front left →
      Parser.chain t.operator? p fuel left ts = .ok (e, rest) →
      ∃ more, ts = more ++ rest ∧ Derives depth (.chain t) (front ++ tokensOf more) e := by
  intro fuel
  induction fuel with
  | zero =>
    intro front left ts e rest hleft h
    cases h
    exact ⟨[], rfl, by simpa using hleft⟩
  | succ fuel ih =>
    intro front left ts e rest hleft h
    have hstop : (Except.ok (left, ts) : Outcome) = .ok (e, rest) →
        ∃ more, ts = more ++ rest ∧ Derives depth (.chain t) (front ++ tokensOf more) e := by
      rintro ⟨⟩
      exact ⟨[], rfl, by simpa using hleft⟩
    rw [Parser.chain.eq_def] at h
    dsimp only at h
    split at h
    · exact hstop h
    · rename_i token pos ts'
      split at h
      · exact hstop h
      · rename_i op hop
        split at h
        · cases h
        · rename_i right rest' hright
          obtain ⟨operand, rfl, hoperand⟩ := hp hright
          obtain ⟨more, rfl, hmore⟩ := ih (.infixed hop hleft hoperand) h
          exact ⟨(token, pos) :: (operand ++ more), by simp, by simpa using hmore⟩

theorem Reads.infixLeft {t : Tier} (hp : Reads p depth t.operand) :
    Reads (Parser.infixLeft t.operator? p) depth (.chain t) := by
  intro ts e rest h
  rw [Parser.infixLeft] at h
  split at h
  · cases h
  · rename_i left rest' hleft
    obtain ⟨front, rfl, hfront⟩ := hp hleft
    obtain ⟨more, rfl, hmore⟩ := hp.chain (.operand hfront) h
    exact ⟨front ++ more, by simp, by simpa using hmore⟩

theorem Reads.expressionOver (hp : Reads p depth .unary) :
    Reads (Parser.expressionOver p) depth .expression :=
  have hproduct : Reads _ depth (.chain .product) := hp.infixLeft (t := .product)
  have hsum : Reads _ depth (.chain .sum) := hproduct.infixLeft (t := .sum)
  have hrelation : Reads _ depth (.chain .relation) := hsum.infixLeft (t := .relation)
  have hconjunction : Reads _ depth (.chain .conjunction) :=
    hrelation.infixLeft (t := .conjunction)
  hconjunction.infixLeft (t := .disjunction)

/-! #### Arguments and items -/

theorem derivesAll_of_argumentsFrom (hp : ReadsBelow p depth .expression) :
    ∀ {fuel : Nat} {ts : List Lexeme} {args rest},
      argumentsFrom p stop fuel ts = .ok (args, rest) →
      args ≠ [] ∧ ∃ front pos, ts = front ++ (.rightParen, pos) :: rest
        ∧ DerivesAll depth (tokensOf front) args := by
  intro fuel
  induction fuel with
  | zero =>
    intro ts args rest h
    cases h
  | succ fuel ih =>
    intro ts args rest h
    rw [argumentsFrom] at h
    split at h
    · cases h
    · rename_i arg pos rest' harg
      split at h
      · cases h
      · rename_i args' rest'' hargs
        cases h
        obtain ⟨below, front, rfl, rfl, hfront⟩ := hp harg
        obtain ⟨hne, more, pos', rfl, hmore⟩ := ih hargs
        exact ⟨by simp, front ++ (.comma, pos) :: more, pos', by simp,
          by simpa using DerivesAll.cons hfront hne hmore⟩
    · rename_i arg pos rest' harg
      cases h
      obtain ⟨below, front, rfl, rfl, hfront⟩ := hp harg
      exact ⟨by simp, front, pos, rfl, .last hfront⟩
    · cases h

theorem derivesAll_of_arguments (hp : ReadsBelow p depth .expression) {ts : List Lexeme}
    {args rest} (h : arguments p stop ts = .ok (args, rest)) :
    ∃ front pos, ts = front ++ (.rightParen, pos) :: rest
      ∧ DerivesAll depth (tokensOf front) args := by
  rw [arguments.eq_def] at h
  split at h
  · rename_i pos rest'
    cases h
    exact ⟨[], pos, rfl, .none⟩
  · exact (derivesAll_of_argumentsFrom hp h).2

/-- Is it the closing bracket of a list, which a comma may precede? -/
def IsListEnd (close : List Token) : Prop :=
  close = [.rightBracket] ∨ close = [.comma, .rightBracket]

theorem derivesAll_of_itemsFrom (hp : ReadsBelow p depth .expression) {start : Nat} :
    ∀ {fuel : Nat} {ts : List Lexeme} {es rest}, itemsFrom p stop start fuel ts = .ok (es, rest) →
      es ≠ [] ∧ ∃ front close, ts = front ++ (close ++ rest) ∧ IsListEnd (tokensOf close)
        ∧ DerivesAll depth (tokensOf front) es := by
  intro fuel
  induction fuel with
  | zero =>
    intro ts es rest h
    cases h
  | succ fuel ih =>
    intro ts es rest h
    rw [itemsFrom] at h
    split at h
    · cases h
    · rename_i item pos pos' rest' hitem
      cases h
      obtain ⟨below, front, rfl, rfl, hfront⟩ := hp hitem
      exact ⟨by simp, front, [(.comma, pos), (.rightBracket, pos')], rfl, .inr rfl, .last hfront⟩
    · rename_i item pos rest' _ hitem
      split at h
      · cases h
      · rename_i items rest'' hitems
        cases h
        obtain ⟨below, front, rfl, rfl, hfront⟩ := hp hitem
        obtain ⟨hne, more, close, rfl, hclose, hmore⟩ := ih hitems
        exact ⟨by simp, front ++ (.comma, pos) :: more, close, by simp, hclose,
          by simpa using DerivesAll.cons hfront hne hmore⟩
    · rename_i item pos rest' hitem
      cases h
      obtain ⟨below, front, rfl, rfl, hfront⟩ := hp hitem
      exact ⟨by simp, front, [(.rightBracket, pos)], rfl, .inl rfl, .last hfront⟩
    · cases h

/-- A list in square brackets. -/
theorem derives_of_items (hp : ReadsBelow p depth .expression) {start : Nat} {ts : List Lexeme}
    {es rest} (h : items p stop start ts = .ok (es, rest)) :
    ∃ front, ts = front ++ rest
      ∧ Derives depth .member (.leftBracket :: tokensOf front) (.list es) := by
  rw [items.eq_def] at h
  split at h
  · rename_i pos rest'
    cases h
    exact ⟨[(.rightBracket, pos)], rfl, by simpa using Derives.list .none⟩
  · obtain ⟨hne, front, close, rfl, hclose, hfront⟩ := derivesAll_of_itemsFrom hp h
    refine ⟨front ++ close, by simp, ?_⟩
    rw [tokensOf, List.map_append]
    rcases hclose with hclose | hclose
    · rw [← tokensOf, ← tokensOf, hclose]
      exact .list hfront
    · rw [← tokensOf, ← tokensOf, hclose]
      exact .listWithComma hfront hne

/-! #### Selections and calls -/

theorem derives_of_selection {ts : List Token} {base e : Expr} {name : String}
    (hbase : Derives depth .member ts base) (h : selection base name = .ok e) :
    Derives depth .member (ts ++ [.dot, .ident name]) e := by
  rw [selection.eq_def] at h
  split at h
  · rename_i field hfield
    cases h
    exact .selection hbase hfield
  · cases h

theorem derives_of_comprehension {q : Quantifier} {ts us : List Token} {range e : Expr}
    {args : List Expr} (hrange : Derives depth .member ts range) (hargs : DerivesAll depth us args)
    (h : comprehension q range args = .ok e) :
    Derives depth .member (ts ++ .dot :: .ident q.name :: .leftParen :: (us ++ [.rightParen]))
      e := by
  rw [comprehension.eq_def] at h
  split at h
  · cases h
    exact .quantified hrange hargs
  · cases h

theorem derives_of_methodCall {ts us : List Token} {receiver e : Expr} {name : String}
    {args : List Expr} (hreceiver : Derives depth .member ts receiver)
    (hargs : DerivesAll depth us args) (h : methodCall receiver name args = .ok e) :
    Derives depth .member (ts ++ .dot :: .ident name :: .leftParen :: (us ++ [.rightParen])) e := by
  have hmethod : ∀ op : Op, name = op.name → op ∈ methods →
      (.ok (.method op receiver args) : Except SyntaxFault Expr) = .ok e →
      Derives depth .member (ts ++ .dot :: .ident name :: .leftParen :: (us ++ [.rightParen]))
        e := by
    rintro op rfl hop ⟨⟩
    exact .method hop hreceiver hargs
  rw [methodCall] at h
  split at h
  · exact hmethod .contains ‹_› (by decide) h
  split at h
  · exact hmethod .startsWith ‹_› (by decide) h
  split at h
  · exact hmethod .endsWith ‹_› (by decide) h
  split at h
  · exact hmethod .size ‹_› (by decide) h
  split at h
  · rename_i hname
    rw [hname]
    exact derives_of_comprehension (q := .any) hreceiver hargs h
  split at h
  · rename_i hname
    rw [hname]
    exact derives_of_comprehension (q := .every) hreceiver hargs h
  · cases h

theorem derives_of_functionCall {us : List Token} {e : Expr} {name : String} {args : List Expr}
    (hargs : DerivesAll depth us args) (h : functionCall name args = .ok e) :
    Derives depth .member (.ident name :: .leftParen :: (us ++ [.rightParen])) e := by
  rw [functionCall] at h
  split at h
  · rename_i hname
    cases h
    rw [hname]
    exact @Derives.function _ .size _ _ (by decide) hargs
  · split at h
    · rename_i hname
      cases h
      rw [hname]
      exact @Derives.function _ .now _ _ (by decide) hargs
    · cases h

/-! #### Members and prefix operators -/

theorem derives_of_members (hp : ReadsBelow p depth .expression) :
    ∀ {fuel : Nat} {front : List Token} {base : Expr} {ts e rest},
      Derives depth .member front base → members p stop fuel base ts = .ok (e, rest) →
      ∃ more, ts = more ++ rest ∧ Derives depth .member (front ++ tokensOf more) e := by
  intro fuel
  induction fuel with
  | zero =>
    intro front base ts e rest hbase h
    cases h
    exact ⟨[], rfl, by simpa using hbase⟩
  | succ fuel ih =>
    intro front base ts e rest hbase h
    rw [members.eq_def] at h
    dsimp only at h
    split at h
    · rename_i pos name pos' pos'' ts'
      split at h
      · cases h
      · rename_i args rest' hargs
        obtain ⟨us, pos''', rfl, hus⟩ := derivesAll_of_arguments hp hargs
        split at h
        · cases h
        · rename_i call hcall
          obtain ⟨more, rfl, hmore⟩ := ih (derives_of_methodCall hbase hus hcall) h
          exact ⟨(.dot, pos) :: (.ident name, pos') :: (.leftParen, pos'')
            :: (us ++ (.rightParen, pos''') :: more), by simp, by simpa using hmore⟩
    · rename_i pos name pos' ts' _
      split at h
      · cases h
      · rename_i field hfield
        obtain ⟨more, rfl, hmore⟩ := ih (derives_of_selection hbase hfield) h
        exact ⟨(.dot, pos) :: (.ident name, pos') :: more, by simp, by simpa using hmore⟩
    · cases h
    · cases h
      exact ⟨[], rfl, by simpa using hbase⟩

theorem reads_primary (hp : ReadsBelow p depth .expression) :
    Reads (primary p stop) depth .member := by
  intro ts e rest h
  rw [primary.eq_def] at h
  split at h
  · cases h
  · rename_i n pos rest'
    cases h
    exact ⟨[(.int n, pos)], rfl, .int n⟩
  · rename_i s pos rest'
    cases h
    exact ⟨[(.string s, pos)], rfl, .string s⟩
  · rename_i pos rest'
    split at h
    · cases h
    · rename_i e' pos' rest'' hinner
      cases h
      obtain ⟨below, front, rfl, rfl, hfront⟩ := hp hinner
      exact ⟨(.leftParen, pos) :: (front ++ [(.rightParen, pos')]), by simp,
        by simpa using Derives.group hfront⟩
    · cases h
  · rename_i pos rest'
    split at h
    · cases h
    · rename_i es rest'' hitems
      cases h
      obtain ⟨front, rfl, hfront⟩ := derives_of_items hp hitems
      exact ⟨(.leftBracket, pos) :: front, by simp, hfront⟩
  · rename_i name pos rest'
    split at h
    · rename_i hname
      cases h
      exact ⟨[(.ident name, pos)], rfl, hname ▸ .true⟩
    · rename_i htrue
      split at h
      · rename_i hname
        cases h
        exact ⟨[(.ident name, pos)], rfl, hname ▸ .false⟩
      · rename_i hfalse
        split at h
        · cases h
        · rename_i hin
          split at h
          · rename_i pos' rest''
            split at h
            · cases h
            · rename_i args rest''' hargs
              split at h
              · cases h
              · rename_i call hcall
                cases h
                obtain ⟨us, pos'', rfl, hus⟩ := derivesAll_of_arguments hp hargs
                exact ⟨(.ident name, pos) :: (.leftParen, pos') :: (us ++ [(.rightParen, pos'')]),
                  by simp, by simpa using derives_of_functionCall hus hcall⟩
          · cases h
            exact ⟨[(.ident name, pos)], rfl, .var (by simp [keywords, htrue, hfalse, hin])⟩
  · cases h

theorem reads_unaryOver (hp : ReadsBelow p depth .expression)
    (hinner : ReadsBelow inner depth .unary) : Reads (unaryOver p inner stop) depth .unary := by
  intro ts e rest h
  rw [unaryOver.eq_def] at h
  split at h
  · rename_i pos rest'
    rw [prefixed] at h
    split at h
    · cases h
    · rename_i operand rest'' hoperand
      cases h
      obtain ⟨below, front, rfl, rfl, hfront⟩ := hinner hoperand
      exact ⟨(.bang, pos) :: front, by simp, .not hfront⟩
  · rename_i pos n pos' rest'
    obtain ⟨more, rfl, hmore⟩ := derives_of_members hp (.negative n) h
    exact ⟨(.minus, pos) :: (.int n, pos') :: more, by simp, .member hmore⟩
  · rename_i pos rest' hint
    rw [prefixed] at h
    split at h
    · cases h
    · rename_i operand rest'' hoperand
      cases h
      obtain ⟨below, front, rfl, rfl, hfront⟩ := hinner hoperand
      refine ⟨(.minus, pos) :: front, by simp, .neg ?_ hfront⟩
      intro n tokens hfirst
      obtain ⟨⟨t, pos'⟩, front', rfl, rfl, -⟩ := List.map_eq_cons_iff.mp hfirst
      exact hint n pos' (front' ++ rest) rfl
  · split at h
    · cases h
    · rename_i base rest' hbase
      obtain ⟨front, rfl, hfront⟩ := reads_primary hp hbase
      obtain ⟨more, rfl, hmore⟩ := derives_of_members hp hfront h
      exact ⟨front ++ more, by simp, .member (by simpa using hmore)⟩

theorem reads_unary (stop : Nat) : ∀ depth : Nat, Reads (unary stop depth) depth .unary
  | 0 => reads_unaryOver (readsBelow_tooDeep stop _) (readsBelow_tooDeep stop _)
  | depth + 1 => reads_unaryOver (reads_unary stop depth).expressionOver.below
      (reads_unary stop depth).below

end Parser

/-- **What is read, is derived**, with all levels but the outermost below it. -/
theorem derives_of_parseTokens {input : Lexemes} {e : Expr} (h : parseTokens input = .ok e) :
    Derives (maxDepth - 1) .expression (tokensOf input.tokens) e := by
  rw [parseTokens] at h
  split at h
  · cases h
  · rename_i found hread
    cases h
    obtain ⟨front, hfront, hderives⟩ :=
      (reads_unary input.stop (maxDepth - 1)).expressionOver hread
    rw [hfront, List.append_nil]
    exact hderives
  · cases h

/-- The same of a text, from the tokens that it scans to. -/
theorem exists_derives_of_parse {text : String} {e : Expr} (h : parse text = .ok e) :
    ∃ input, tokenize text = .ok input
      ∧ Derives (maxDepth - 1) .expression (tokensOf input.tokens) e := by
  rw [parse] at h
  split at h
  · cases h
  · rename_i input htokens
    exact ⟨input, htokens, derives_of_parseTokens h⟩

end SharedMemos.Filter
