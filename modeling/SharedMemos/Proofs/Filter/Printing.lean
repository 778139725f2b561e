import SharedMemos.Proofs.Filter.Completeness
import SharedMemos.Proofs.Filter.Formed
import SharedMemos.Proofs.Filter.Height
import SharedMemos.Proofs.Filter.Levels
import SharedMemos.Proofs.Filter.Soundness

/-!
# A printed filter, read again

The printed form has brackets around every infix operator and around the operand of every prefix
operator, but none around a receiver or the range of a comprehension. That an expression with a
prefix operator does not stand there is due to the types: it would be a truth value or a number, and
these have no members. Everything else that stands there is a member by itself, and so the printed
form derives the expression it was printed from, at any depth that leaves room for the brackets.

The brackets are levels, and there may be more of them than the limit allows: two for every prefix
operator, where the text had one. So the printed form of a filter is not always read, but never as
anything else.

## Main definitions

* `Expr.tokens` — the tokens of the printed form
* `Expr.texts` — the text literals of an expression

## Main results

* `Formed.scans` — the printed form consists of these tokens
* `Formed.isDerived` — which derive the expression
* `parse_print_of_compile` — a compiled filter is read from its printed form, if it is read at all
-/

namespace SharedMemos.Filter

open SharedMemos.Text SharedMemos.Filter.Parser

/-! ### The printed form, token by token -/

/-- The token of an operator. -/
def Op.token : Op → Token
  | .or => .orOr
  | .and => .andAnd
  | .not => .bang
  | .neg | .sub => .minus
  | .eq => .eqEq
  | .ne => .notEq
  | .lt => .lt
  | .le => .le
  | .gt => .gt
  | .ge => .ge
  | .add => .plus
  | .mul => .star
  | .div => .slash
  | .mod => .percent
  | op => .ident op.name

/-- The tokens of a printed value; a list of values is not a literal of any text. -/
def Value.tokens : Value → List Token
  | .bool b => [.ident (if b then "true" else "false")]
  | .int (.ofNat n) => [.int n]
  | .int (.negSucc n) => [.minus, .int (n + 1 : Nat)]
  | .string s => [.string s]
  | .list _ => []

mutual

/-- The text literals in a value. -/
def Value.texts : Value → List String
  | .bool _ | .int _ => []
  | .string s => [s]
  | .list items => textsOfAll items

/-- The text literals in values. -/
def Value.textsOfAll : List Value → List String
  | [] => []
  | v :: vs => v.texts ++ textsOfAll vs

end

namespace Expr

mutual

/-- The tokens of the printed form. -/
def tokens : Expr → List Token
  | .const v => v.tokens
  | .var name => [.ident name]
  | .list items => .leftBracket :: (tokensOfAll items ++ [.rightBracket])
  | .call .not [x] => .bang :: .leftParen :: (x.tokens ++ [.rightParen])
  | .call .neg [x] => .minus :: .leftParen :: (x.tokens ++ [.rightParen])
  | .call .size args => .ident "size" :: .leftParen :: (tokensOfAll args ++ [.rightParen])
  | .call .now args => .ident "now" :: .leftParen :: (tokensOfAll args ++ [.rightParen])
  | .call op [l, r] => .leftParen :: (l.tokens ++ op.token :: (r.tokens ++ [.rightParen]))
  | .call _ _ => []
  | .method op receiver args =>
    receiver.tokens ++ .dot :: .ident op.name :: .leftParen :: (tokensOfAll args ++ [.rightParen])
  | .quantified q binder range body =>
    range.tokens ++ .dot :: .ident q.name :: .leftParen
      :: (.ident binder :: .comma :: body.tokens ++ [.rightParen])

/-- The tokens of the printed forms, separated by commas. -/
def tokensOfAll : List Expr → List Token
  | [] => []
  | [e] => e.tokens
  | e :: es => e.tokens ++ .comma :: tokensOfAll es

end

mutual

/-- The text literals in an expression. -/
def texts : Expr → List String
  | .const v => v.texts
  | .var _ => []
  | .list items => textsOfAll items
  | .call _ args => textsOfAll args
  | .method _ receiver args => receiver.texts ++ textsOfAll args
  | .quantified _ _ range body => range.texts ++ body.texts

/-- The text literals in expressions. -/
def textsOfAll : List Expr → List String
  | [] => []
  | e :: es => e.texts ++ textsOfAll es

end

variable {e : Expr} {es : List Expr}

theorem texts_subset (he : e ∈ es) : e.texts ⊆ textsOfAll es := by
  induction es with
  | nil => cases he
  | cons d es ih =>
    rw [textsOfAll]
    rcases List.mem_cons.mp he with rfl | he
    · exact List.subset_append_left _ _
    · exact List.subset_append_of_subset_right _ (ih he)

theorem height_le_heightAll (he : e ∈ es) : e.height ≤ heightAll es := by
  induction es with
  | nil => cases he
  | cons d es ih =>
    rw [heightAll]
    rcases List.mem_cons.mp he with rfl | he
    · exact Nat.le_max_left _ _
    · exact Nat.le_trans (ih he) (Nat.le_max_right _ _)

end Expr

variable {e l r : Expr} {es : List Expr} {op : Op}

theorem print_infixed (hop : op ∈ infixes) :
    (Expr.call op [l, r]).print = "(" ++ l.print ++ " " ++ op.name ++ " " ++ r.print ++ ")" := by
  rw [Expr.print]
  all_goals
    rintro rfl
    exact absurd hop (by decide)

theorem tokens_infixed (hop : op ∈ infixes) : (Expr.call op [l, r]).tokens
    = .leftParen :: (l.tokens ++ op.token :: (r.tokens ++ [.rightParen])) := by
  rw [Expr.tokens]
  all_goals
    rintro rfl
    exact absurd hop (by decide)

/-! ### The printed form is lexed -/

/-- The printed form of the expression consists of its tokens, in front of anything that ends a
word. -/
def Expr.Scans (e : Expr) : Prop :=
  ∀ ⦃rest ts⦄, EndsWord rest → Lexes rest ts → Lexes (e.print.toList ++ rest) (e.tokens ++ ts)

namespace Lexes

variable {rest : List Char} {ts : List Token}

theorem infixed (hop : op ∈ infixes) (h : Lexes rest ts) :
    Lexes (op.name.toList ++ ' ' :: rest) (op.token :: ts) := by
  have hrest : Lexes (' ' :: rest) ts := h.space
  simp only [infixes, List.mem_cons, List.not_mem_nil, or_false] at hop
  rcases hop with rfl | rfl | rfl | rfl | rfl | rfl | rfl | rfl | rfl | hop
  case inr.inr.inr.inr.inr.inr.inr.inr.inl =>
    exact .ident "in" (by decide) (endsWord_cons (by decide)) hrest
  case inr.inr.inr.inr.inr.inr.inr.inr.inr =>
    rcases hop with rfl | rfl | rfl | rfl | rfl <;> exact .single rfl (by decide) hrest
  case inr.inr.inr.inr.inl | inr.inr.inr.inr.inr.inr.inl => exact .symbol rfl rfl hrest
  all_goals exact .symbols rfl hrest

/-- Arguments in brackets. -/
theorem bracketed (hes : ∀ e ∈ es, e.Scans) (close : Char) {token : Token}
    (hclose : singleSymbol? close = some token) (halone : close ∉ ['!', '<', '>'])
    (h : Lexes rest ts) :
    Lexes ((Expr.printAll es).toList ++ close :: rest) (Expr.tokensOfAll es ++ token :: ts) := by
  have hend : EndsWord (close :: rest) := endsWord_cons (apart_of_singleSymbol hclose).2
  have hrest : Lexes (close :: rest) (token :: ts) := h.single hclose halone
  induction es with
  | nil => exact hrest
  | cons e es ih =>
    obtain ⟨he, hes⟩ := List.forall_mem_cons.mp hes
    cases es with
    | nil => exact he hend hrest
    | cons d es =>
      have hcomma := (ih hes).space.single (c := ',') rfl (by decide)
      simpa [Expr.printAll, Expr.tokensOfAll] using he (endsWord_cons (by decide)) hcomma

/-- A call on a receiver. -/
theorem called (he : e.Scans) {name : String} (hname : isName name = true) {inside : List Char}
    {us : List Token} (h : Lexes inside us) :
    Lexes (e.print.toList ++ '.' :: (name.toList ++ '(' :: inside))
      (e.tokens ++ .dot :: .ident name :: .leftParen :: us) :=
  he (endsWord_cons (by decide)) <| single rfl (by decide) <|
    ident name hname (endsWord_cons (by decide)) <| single rfl (by decide) h

end Lexes

theorem scans_int {n : Int} (hmin : -maxInt64 ≤ n) (hmax : n ≤ maxInt64) :
    (Expr.const (.int n)).Scans := by
  intro rest ts hend h
  cases n with
  | ofNat n =>
    have hprint : (Expr.const (.int (.ofNat n))).print.toList = Nat.toDigits 10 n :=
      String.toList_ofList
    rw [hprint]
    exact .number (Int.ofNat_le.mp hmax) hend h
  | negSucc n =>
    have hprint : (Expr.const (.int (.negSucc n))).print.toList
        = '-' :: Nat.toDigits 10 (n + 1) := String.toList_ofList
    rw [hprint]
    exact .single rfl (by decide) (.number (by omega) hend h)

/-- **The printed form of an expression that can be written consists of its tokens**, if its text
literals are read back from their quotes. -/
theorem Formed.scans (h : Formed e) (htexts : ∀ s ∈ e.texts, ∀ c ∈ s.toList, IsQuotable c) :
    e.Scans := by
  induction h with
  | bool b =>
    intro rest ts hend h
    cases b with
    | true => exact .ident "true" (by decide) hend h
    | false => exact .ident "false" (by decide) hend h
  | int hmin hmax => exact scans_int hmin hmax
  | string s =>
    intro rest ts _ h
    exact h.quoted (htexts s List.mem_cons_self)
  | var hname =>
    intro rest ts hend h
    exact h.ident _ hname.1 hend
  | list _ ih =>
    have hitems := fun e he => ih e he fun s hs => htexts s (Expr.texts_subset he hs)
    intro rest ts _ h
    have hinside := h.bracketed hitems ']' rfl (by decide)
    simpa [Expr.print, Expr.tokens] using hinside.single (c := '[') rfl (by decide)
  | @prefixed op x hop _ ih =>
    have hx := ih fun s hs => htexts s (Expr.texts_subset List.mem_cons_self hs)
    intro rest ts _ h
    have hinside := hx (endsWord_cons (by decide)) (h.single (c := ')') rfl (by decide))
    have hbracket := hinside.single (c := '(') rfl (by decide)
    simp only [prefixes, List.mem_cons, List.not_mem_nil, or_false] at hop
    rcases hop with rfl | rfl
    · simpa [Expr.print, Expr.tokens] using hbracket.symbol (c := '!') rfl rfl
    · simpa [Expr.print, Expr.tokens] using hbracket.single (c := '-') rfl (by decide)
  | @function op args hop _ ih =>
    have hargs := fun e he => ih e he fun s hs => htexts s (Expr.texts_subset he hs)
    intro rest ts _ h
    have hbracket := (h.bracketed hargs ')' rfl (by decide)).single (c := '(') rfl
      (by decide)
    simp only [functions, List.mem_cons, List.not_mem_nil, or_false] at hop
    rcases hop with rfl | rfl
    · simpa [Expr.print, Expr.tokens]
        using hbracket.ident "size" (by decide) (endsWord_cons (by decide))
    · simpa [Expr.print, Expr.tokens]
        using hbracket.ident "now" (by decide) (endsWord_cons (by decide))
  | @infixed op l r hop _ _ ihl ihr =>
    have hl := ihl fun s hs => htexts s (Expr.texts_subset List.mem_cons_self hs)
    have hr := ihr fun s hs => htexts s (Expr.texts_subset (by simp) hs)
    intro rest ts _ h
    have hright := hr (endsWord_cons (by decide)) (h.single (c := ')') rfl (by decide))
    have hleft := hl (endsWord_cons (by decide)) (hright.infixed hop).space
    simpa [print_infixed hop, tokens_infixed hop] using hleft.single (c := '(') rfl (by decide)
  | @method op receiver args hop _ _ ih ihargs =>
    simp only [Expr.texts, List.forall_mem_append] at htexts
    have hargs := fun e he => ihargs e he fun s hs => htexts.2 s (Expr.texts_subset he hs)
    have hname : ∀ op ∈ methods, isName op.name = true := by decide
    intro rest ts _ h
    have hinside := h.bracketed hargs ')' rfl (by decide)
    simpa [Expr.print, Expr.tokens] using hinside.called (ih htexts.1) (hname op hop)
  | @quantified q binder range body hbinder _ _ ih ihbody =>
    simp only [Expr.texts, List.forall_mem_append] at htexts
    have hname : isName q.name = true := by cases q <;> decide
    intro rest ts _ h
    have hbody := ihbody htexts.2 (endsWord_cons (by decide)) (h.single (c := ')') rfl (by decide))
    have hcomma := hbody.space.single (c := ',') rfl (by decide)
    have hinside := hcomma.ident binder hbinder.1 (endsWord_cons (by decide))
    simpa [Expr.print, Expr.tokens] using hinside.called (ih htexts.1) hname

/-! ### The tokens derive the expression -/

section Levels

variable {depth : Nat} {ts : List Token}

theorem Derives.expression_of_chain : ∀ {t : Tier}, Derives depth (.chain t) ts e →
    Derives depth .expression ts e
  | .disjunction, h => h
  | .conjunction, h => .operand h
  | .relation, h => .operand (.operand h)
  | .sum, h => .operand (.operand (.operand h))
  | .product, h => .operand (.operand (.operand (.operand h)))

theorem Derives.operand_of_unary (h : Derives depth .unary ts e) : ∀ t : Tier,
    Derives depth t.operand ts e
  | .product => h
  | .sum => .operand h
  | .relation => .operand (.operand h)
  | .conjunction => .operand (.operand (.operand h))
  | .disjunction => .operand (.operand (.operand (.operand h)))

theorem Derives.expression_of_unary (h : Derives depth .unary ts e) :
    Derives depth .expression ts e :=
  .operand (h.operand_of_unary .disjunction)

theorem exists_operator?_token (hop : op ∈ infixes) :
    ∃ t : Tier, t.operator? op.token = some op := by
  simp only [infixes, List.mem_cons, List.not_mem_nil, or_false] at hop
  rcases hop with rfl | rfl | hop
  · exact ⟨.disjunction, rfl⟩
  · exact ⟨.conjunction, rfl⟩
  rcases hop with rfl | rfl | rfl | rfl | rfl | rfl | rfl | hop
  case inr.inr.inr.inr.inr.inr.inr =>
    rcases hop with rfl | rfl | hop
    · exact ⟨.sum, rfl⟩
    · exact ⟨.sum, rfl⟩
    · rcases hop with rfl | rfl | rfl <;> exact ⟨.product, rfl⟩
  all_goals exact ⟨.relation, rfl⟩

/-- Brackets make a member of any expression. -/
theorem Derives.bracketed (h : Derives depth .unary ts e) :
    Derives (depth + 1) .member (.leftParen :: (ts ++ [.rightParen])) e :=
  .group h.expression_of_unary

theorem Derives.infixed_bracketed {us : List Token} (hop : op ∈ infixes)
    (hl : Derives depth .unary ts l) (hr : Derives depth .unary us r) :
    Derives (depth + 1) .member (.leftParen :: (ts ++ op.token :: (us ++ [.rightParen])))
      (.call op [l, r]) := by
  obtain ⟨t, ht⟩ := exists_operator?_token hop
  have hchain : Derives depth (.chain t) (ts ++ op.token :: us) (.call op [l, r]) :=
    .infixed ht (.operand (hl.operand_of_unary t)) (hr.operand_of_unary t)
  simpa using hchain.expression_of_chain.group

/-- Arguments are one level down, if there are any. -/
theorem derivesAll_tokensOfAll
    (h : ∀ e ∈ es, ∃ below, depth = below + 1 ∧ Derives below .unary e.tokens e) :
    DerivesAll depth (Expr.tokensOfAll es) es := by
  induction es with
  | nil => exact .none
  | cons e es ih =>
    obtain ⟨⟨below, rfl, he⟩, hes⟩ := List.forall_mem_cons.mp h
    cases es with
    | nil => exact .last he.expression_of_unary
    | cons d es => exact .cons he.expression_of_unary (List.cons_ne_nil _ _) (ih hes)

end Levels

/-! #### Types -/

section Types

variable {scope : Scope} {t : Ty}

theorem exists_infer_of_inferAll {types : List Ty} (h : inferAll scope es = .ok types) :
    ∀ e ∈ es, ∃ t, infer scope e = .ok t := by
  induction es generalizing types with
  | nil => exact List.forall_mem_nil _
  | cons e es ih =>
    rw [inferAll] at h
    split at h
    · cases h
    · rename_i t ht
      obtain ⟨types', htypes, -⟩ := map_eq_ok.mp h
      exact List.forall_mem_cons.mpr ⟨⟨t, ht⟩, ih htypes⟩

theorem exists_infer_of_inferItems {element : Ty} (h : inferItems scope element es = .ok t) :
    ∀ e ∈ es, ∃ t, infer scope e = .ok t := by
  induction es generalizing element with
  | nil => exact List.forall_mem_nil _
  | cons e es ih =>
    rw [inferItems] at h
    split at h
    · cases h
    · rename_i t' ht'
      refine List.forall_mem_cons.mpr ⟨⟨t', ht'⟩, ?_⟩
      split at h
      · exact ih h
      · split at h
        · exact ih h
        · cases h

theorem infer_call {args : List Expr} (h : infer scope (.call op args) = .ok t) :
    (∀ e ∈ args, ∃ t, infer scope e = .ok t) ∧ ∃ types, op.resultType? none types = some t := by
  rw [infer] at h
  split at h
  · cases h
  · rename_i types htypes
    exact ⟨exists_infer_of_inferAll htypes, types, elim_eq_ok.mp h⟩

/-- The type has values with members: it is neither that of truth values nor that of numbers. -/
def Ty.HasMembers (t : Ty) : Prop :=
  t ≠ .bool ∧ t ≠ .int

/-- Prefix operators give truth values and numbers. -/
theorem not_hasMembers_of_prefixes {types : List Ty} (hop : op ∈ prefixes)
    (h : op.resultType? none types = some t) : ¬ t.HasMembers := by
  simp only [prefixes, List.mem_cons, List.not_mem_nil, or_false] at hop
  rintro ⟨hbool, hint⟩
  rcases types with _ | ⟨x, _ | ⟨y, _ | _⟩⟩ <;> rcases hop with rfl | rfl <;>
    simp_all [Op.resultType?]

/-- Nothing is called on these. -/
theorem hasMembers_of_receiver {receiver : Ty} {types : List Ty}
    (h : op.resultType? (some receiver) types = some t) : receiver.HasMembers := by
  constructor
  all_goals
    rintro rfl
    rcases types with _ | ⟨x, _ | ⟨y, types⟩⟩ <;> cases op <;> simp [Op.resultType?, Ty.fits] at h

theorem infer_method {receiver : Expr} {args : List Expr}
    (h : infer scope (.method op receiver args) = .ok t) :
    (∃ s, infer scope receiver = .ok s ∧ s.HasMembers)
      ∧ ∀ e ∈ args, ∃ t, infer scope e = .ok t := by
  rw [infer] at h
  split at h
  · cases h
  · rename_i s hs
    split at h
    · cases h
    · rename_i types htypes
      exact ⟨⟨s, hs, hasMembers_of_receiver (elim_eq_ok.mp h)⟩, exists_infer_of_inferAll htypes⟩

theorem infer_quantified {q : Quantifier} {binder : String} {range body : Expr}
    (h : infer scope (.quantified q binder range body) = .ok t) :
    (∃ s, infer scope range = .ok s ∧ s.HasMembers) ∧ ∃ scope t, infer scope body = .ok t := by
  rw [infer] at h
  split at h
  · cases h
  · rename_i s hs
    split at h
    · cases h
    · rename_i element helement
      have hmembers : s.HasMembers := by
        rcases elementType_eq_ok helement with rfl | rfl <;> simp [Ty.HasMembers]
      split at h
      · cases h
      · exact ⟨⟨s, hs, hmembers⟩, _, _, ‹_›⟩

end Types

/-! #### Expressions -/

/-- The tokens of the printed form derive the expression, where it has a type and there are two
levels for each step of its height; and they derive it as a member, where its type has any. -/
def Expr.IsDerived (e : Expr) : Prop :=
  ∀ ⦃scope : Scope⦄ ⦃t : Ty⦄ ⦃depth : Nat⦄, infer scope e = .ok t → 2 * e.height ≤ depth + 2 →
    Derives depth .unary e.tokens e ∧ (t.HasMembers → Derives depth .member e.tokens e)

/-- What is derived as a member, is derived. -/
theorem Expr.isDerived_of_member (h : ∀ ⦃scope : Scope⦄ ⦃t : Ty⦄ ⦃depth : Nat⦄,
    infer scope e = .ok t → 2 * e.height ≤ depth + 2 → Derives depth .member e.tokens e) :
    e.IsDerived :=
  fun _ _ _ htype hdepth => ⟨.member (h htype hdepth), fun _ => h htype hdepth⟩

theorem derivesAll_of_isDerived {scope : Scope} {depth : Nat} (h : ∀ e ∈ es, e.IsDerived)
    (htypes : ∀ e ∈ es, ∃ t, infer scope e = .ok t) (hdepth : 2 * Expr.heightAll es ≤ depth) :
    DerivesAll depth (Expr.tokensOfAll es) es := by
  refine derivesAll_tokensOfAll fun e he => ?_
  obtain ⟨t, ht⟩ := htypes e he
  have hheight := Expr.height_le_heightAll he
  have hpos := e.one_le_height
  exact ⟨depth - 1, by omega, (h e he ht (by omega)).1⟩

/-- **The tokens of the printed form derive the expression**, whatever can be written and has a
type. -/
theorem Formed.isDerived (h : Formed e) : e.IsDerived := by
  induction h with
  | bool b =>
    refine Expr.isDerived_of_member fun _ _ _ _ _ => ?_
    cases b with
    | true => exact .true
    | false => exact .false
  | @int n _ _ =>
    refine Expr.isDerived_of_member fun _ _ _ _ _ => ?_
    cases n with
    | ofNat n => exact .int n
    | negSucc n => exact .negative (n + 1 : Nat)
  | string s => exact Expr.isDerived_of_member fun _ _ _ _ _ => .string s
  | var hname => exact Expr.isDerived_of_member fun _ _ _ _ _ => .var hname.2
  | list _ ih =>
    refine Expr.isDerived_of_member fun scope t depth htype hdepth => ?_
    rw [infer] at htype
    obtain ⟨element, hitems, -⟩ := map_eq_ok.mp htype
    rw [Expr.height] at hdepth
    exact .list (derivesAll_of_isDerived ih (exists_infer_of_inferItems hitems) (by omega))
  | @prefixed op x hop _ ih =>
    -- as an operand in brackets, two levels down
    intro scope t depth htype hdepth
    obtain ⟨hargs, types, hresult⟩ := infer_call htype
    obtain ⟨s, hs⟩ := hargs x List.mem_cons_self
    have hpos := x.one_le_height
    simp only [Expr.height, Expr.heightAll, Nat.max_zero] at hdepth
    obtain ⟨depth, rfl⟩ := Nat.exists_eq_add_of_le' (show 2 ≤ depth by omega)
    have hx := (ih hs (show 2 * x.height ≤ depth + 2 by omega)).1.bracketed
    refine ⟨?_, fun hmembers => absurd hmembers (not_hasMembers_of_prefixes hop hresult)⟩
    simp only [prefixes, List.mem_cons, List.not_mem_nil, or_false] at hop
    rcases hop with rfl | rfl
    · exact .not (.member hx)
    · exact .neg nofun (.member hx)
  | @function op args hop _ ih =>
    refine Expr.isDerived_of_member fun scope t depth htype hdepth => ?_
    rw [Expr.height] at hdepth
    have hargs : DerivesAll depth (Expr.tokensOfAll args) args :=
      derivesAll_of_isDerived ih (infer_call htype).1 (by omega)
    have htokens : (Expr.call op args).tokens
        = .ident op.name :: .leftParen :: (Expr.tokensOfAll args ++ [.rightParen]) := by
      simp only [functions, List.mem_cons, List.not_mem_nil, or_false] at hop
      rcases hop with rfl | rfl <;> rw [Expr.tokens] <;> rfl
    rw [htokens]
    exact .function hop hargs
  | @infixed op l r hop _ _ ihl ihr =>
    refine Expr.isDerived_of_member fun scope t depth htype hdepth => ?_
    have hargs := (infer_call htype).1
    obtain ⟨a, ha⟩ := hargs l List.mem_cons_self
    obtain ⟨b, hb⟩ := hargs r (by simp)
    have hpos := l.one_le_height
    simp only [Expr.height, Expr.heightAll, Nat.max_zero] at hdepth
    obtain ⟨depth, rfl⟩ := Nat.exists_eq_add_of_le' (show 1 ≤ depth by omega)
    rw [tokens_infixed hop]
    exact .infixed_bracketed hop (ihl ha (by omega)).1 (ihr hb (by omega)).1
  | @method op receiver args hop _ _ ih ihargs =>
    refine Expr.isDerived_of_member fun scope t depth htype hdepth => ?_
    obtain ⟨⟨s, hs, hmembers⟩, hargs⟩ := infer_method htype
    rw [Expr.height] at hdepth
    exact .method hop ((ih hs (by omega)).2 hmembers)
      (derivesAll_of_isDerived ihargs hargs (by omega))
  | @quantified q binder range body hbinder _ _ ih ihbody =>
    refine Expr.isDerived_of_member fun scope t depth htype hdepth => ?_
    obtain ⟨⟨s, hs, hmembers⟩, scope', t', hbody⟩ := infer_quantified htype
    have hpos := body.one_le_height
    rw [Expr.height] at hdepth
    have hrange := (ih hs (show 2 * range.height ≤ depth + 2 by omega)).2 hmembers
    obtain ⟨depth, rfl⟩ := Nat.exists_eq_add_of_le' (show 1 ≤ depth by omega)
    have hvar : Derives depth .unary [.ident binder] (.var binder) := .member (.var hbinder.2)
    have hargs : DerivesAll (depth + 1) (.ident binder :: .comma :: body.tokens)
        [.var binder, body] :=
      .cons hvar.expression_of_unary (List.cons_ne_nil _ _)
        (.last (ihbody hbody (by omega)).1.expression_of_unary)
    exact .quantified hrange hargs

/-! ### Compiled filters -/

/-- The printed form is read as the expression, or there are too few levels for it. -/
theorem parse_print (h : Formed e) {scope : Scope} {t : Ty} (htype : infer scope e = .ok t)
    (htexts : ∀ s ∈ e.texts, ∀ c ∈ s.toList, IsQuotable c) :
    parse e.print = .ok e ∨ ∃ offset, parse e.print = .error ⟨.nestedTooDeeply, offset⟩ := by
  have hlexes : Lexes e.print.toList e.tokens := by
    simpa using h.scans htexts endsWord_nil .nil
  obtain ⟨input, htokens, hinput⟩ := tokenize_of_lexes hlexes
  have hderives : Derives (maxDepth - 1 + 2 * e.height) .expression (tokensOf input.tokens) e := by
    rw [hinput]
    exact (h.isDerived htype (by omega)).1.expression_of_unary
  have hread := (accepts_unary input.stop _).expressionOver hderives (stops_nil _)
  rw [List.append_nil] at hread
  have hparse : parse e.print = parseTokens input := by rw [parse, htokens]
  rw [hparse, parseTokens, show maxDepth = maxDepth - 1 + 1 from rfl]
  rcases within_expression input.stop (maxDepth - 1) (2 * e.height) input.tokens
    with heq | ⟨offset, herror⟩
  · exact .inl (by rw [heq, hread])
  · exact .inr ⟨offset, by rw [herror]⟩

/-- **A compiled filter is read from its printed form**, if that is read at all. Where no text
literal has a character that is quoted by an escape the scan does not know, the printed form is read
as the expression it was printed from, or it has too many levels, and there is no other error. -/
theorem parse_print_of_compile {source kept : String} {e : Expr}
    (h : compile source = .ok (.checked kept e))
    (htexts : ∀ s ∈ e.texts, ∀ c ∈ s.toList, IsQuotable c) :
    parse e.print = .ok e ∨ ∃ offset, parse e.print = .error ⟨.nestedTooDeeply, offset⟩ := by
  obtain ⟨hread, hcheck⟩ := checked_eq_ok h
  exact parse_print (formed_of_expression hread) (infer_of_checkFilter hcheck) htexts

/-- A tag test, a negative number behind an operator, and quotes inside a text. -/
theorem parse_print_of_compile_mixed :
    let source := "tag in [\"work\"] && !content.startsWith('\"\\\\')"
      ++ " || creator_id - -5 in [-(now())]"
    ∃ e, compile source = .ok (.checked source e)
      ∧ (∀ s ∈ e.texts, ∀ c ∈ s.toList, IsQuotable c)
      ∧ (parse e.print = .ok e
        ∨ ∃ offset, parse e.print = .error ⟨.nestedTooDeeply, offset⟩) := by
  intro source
  have htest : (compile source).toOption.any (fun f => f.expr?.any fun e => e.texts.all fun s =>
      s.toList.all fun c => decide (0x20 ≤ c.toNat) && decide (c.toNat ≤ 0x7E)) = true := by
    decide +kernel
  obtain ⟨e, hcompile, hascii⟩ := exists_checked htest
  simp only [List.all_eq_true, Bool.and_eq_true, decide_eq_true_eq] at hascii
  have htexts : ∀ s ∈ e.texts, ∀ c ∈ s.toList, IsQuotable c :=
    fun s hs c hc => isQuotable_of_ascii (hascii s hs c hc)
  exact ⟨e, hcompile, htexts, parse_print_of_compile hcompile htexts⟩

-- A chain of prefix operators is read, but not with the brackets of its printed form.
example : (parse (String.ofList (List.replicate 33 '!' ++ ['t', 'r', 'u', 'e']))).toOption.any
    (fun e => (parse e.print).toOption.isNone) = true := by
  decide +kernel

end SharedMemos.Filter
