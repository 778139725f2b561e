import SharedMemos.Proofs.Filter.Expansion
import SharedMemos.Proofs.Filter.Grammar
import SharedMemos.Proofs.Filter.Token
import SharedMemos.Filter.Compiled

/-!
# How high the tree of a filter can get

Everything that is done with an expression goes down its tree, so the height of the tree is how deep
that recursion goes. Reading limits how deep brackets, arguments and prefix operators nest, and that
is not the height: operators that are written one after the other make a tree that leans to the
left, one level for each, and so do calls on a receiver. There is no limit to these.

The height is taken apart accordingly. The left edge of an expression leads from an infix operator
to its left operand, and from a call to its receiver. `Expr.longest` is the number of steps of the
longest left edge in a tree, and `Expr.nesting` counts the steps of a path that leave a left edge.
The nesting is what the limit is for, infix operators of six strengths included (`nesting_le`).
The rest is the longest left edge, which is as long as the author of the filter likes.

## Main results

* `Derives.nesting_le` — the limit bounds the nesting
* `height_of_parse` — the height lies between the longest left edge and a multiple of it
* `height_unbounded` — so nothing bounds it
-/

namespace SharedMemos.Filter

namespace Expr

/-! ### Height, left edges and nesting -/

mutual

/-- The height of the tree; that of a literal or a variable is one. -/
def height : Expr → Nat
  | .const _ | .var _ => 1
  | .list items => heightAll items + 1
  | .call _ args => heightAll args + 1
  | .method _ receiver args => max receiver.height (heightAll args) + 1
  | .quantified _ _ range body => max range.height body.height + 1

/-- The greatest height among expressions. -/
def heightAll : List Expr → Nat
  | [] => 0
  | e :: es => max e.height (heightAll es)

end

/-- The number of steps along the left edge: from an infix operator to its left operand, from a call
to its receiver, from a comprehension to its range. -/
def edge : Expr → Nat
  | .call _ [l, _] => l.edge + 1
  | .method _ receiver _ => receiver.edge + 1
  | .quantified _ _ range _ => range.edge + 1
  | _ => 0

mutual

/-- The number of steps of the longest left edge anywhere in the tree. -/
def longest : Expr → Nat
  | .const _ | .var _ => 0
  | .list items => longestAll items
  | .call op args => max (edge (.call op args)) (longestAll args)
  | .method _ receiver args => max (receiver.edge + 1) (max receiver.longest (longestAll args))
  | .quantified _ _ range body => max (range.edge + 1) (max range.longest body.longest)

/-- The longest left edge in any of the expressions. -/
def longestAll : List Expr → Nat
  | [] => 0
  | e :: es => max e.longest (longestAll es)

end

mutual

/-- The greatest number of steps off a left edge on a path through the tree. -/
def nesting : Expr → Nat
  | .const _ | .var _ => 0
  | .list items => nestingAll items + 1
  | .call _ [l, r] => max l.nesting (r.nesting + 1)
  | .call _ args => nestingAll args + 1
  | .method _ receiver args => max receiver.nesting (nestingAll args + 1)
  | .quantified _ _ range body => max range.nesting (body.nesting + 1)

/-- The greatest nesting among expressions. -/
def nestingAll : List Expr → Nat
  | [] => 0
  | e :: es => max e.nesting (nestingAll es)

end

theorem eq_pair_or_ne (args : List Expr) : (∃ l r, args = [l, r]) ∨ ∀ l r, args ≠ [l, r] := by
  match args with
  | [l, r] => exact .inl ⟨l, r, rfl⟩
  | [] | [_] | _ :: _ :: _ :: _ => exact .inr nofun

theorem nesting_pair (op : Op) (l r : Expr) :
    (Expr.call op [l, r]).nesting = max l.nesting (r.nesting + 1) := by
  rw [nesting]

theorem edge_call_of_ne {op : Op} {args : List Expr} (h : ∀ l r, args ≠ [l, r]) :
    (Expr.call op args).edge = 0 :=
  edge.eq_4 _ (fun _ l r hcall => h l r (Expr.call.inj hcall).2) nofun nofun

theorem nesting_call_of_ne {op : Op} {args : List Expr} (h : ∀ l r, args ≠ [l, r]) :
    (Expr.call op args).nesting = nestingAll args + 1 :=
  nesting.eq_5 op args fun l r => h l r

/-- Whatever its operands are, an operator adds one step at most. -/
theorem nesting_call_le (op : Op) (args : List Expr) :
    (Expr.call op args).nesting ≤ nestingAll args + 1 := by
  obtain ⟨l, r, rfl⟩ | h := eq_pair_or_ne args
  · rw [nesting_pair, nestingAll, nestingAll, nestingAll]
    omega
  · exact Nat.le_of_eq (nesting_call_of_ne h)

theorem edge_le_longest (e : Expr) : e.edge ≤ e.longest := by
  cases e with
  | const | var | list => simp [edge]
  | call op args => rw [longest]; exact Nat.le_max_left _ _
  | method op receiver args => rw [edge, longest]; exact Nat.le_max_left _ _
  | quantified q binder range body => rw [edge, longest]; exact Nat.le_max_left _ _

theorem one_le_height (e : Expr) : 1 ≤ e.height := by
  cases e <;> rw [height] <;> omega

/-! ### The height between its bounds -/

/-- A left edge is a path. -/
theorem edge_lt_height : ∀ e : Expr, e.edge < e.height
  | .const _ | .var _ => by simp [edge, height]
  | .list _ => by simp [edge, height]
  | .call op args => by
    obtain ⟨l, r, rfl⟩ | h := eq_pair_or_ne args
    · have hl := edge_lt_height l
      rw [edge, height, heightAll]
      omega
    · rw [edge_call_of_ne h]
      exact one_le_height _
  | .method op receiver args => by
    have hreceiver := edge_lt_height receiver
    rw [edge, height]
    omega
  | .quantified q binder range body => by
    have hrange := edge_lt_height range
    rw [edge, height]
    omega

mutual

theorem longest_lt_height : ∀ e : Expr, e.longest < e.height
  | .const _ | .var _ => by simp [longest, height]
  | .list items => by
    have hitems := longestAll_le_heightAll items
    rw [longest, height]
    omega
  | .call op args => by
    have hedge := edge_lt_height (.call op args)
    have hargs := longestAll_le_heightAll args
    rw [height] at hedge
    rw [longest, height]
    omega
  | .method op receiver args => by
    have hedge := edge_lt_height receiver
    have hreceiver := longest_lt_height receiver
    have hargs := longestAll_le_heightAll args
    rw [longest, height]
    omega
  | .quantified q binder range body => by
    have hedge := edge_lt_height range
    have hrange := longest_lt_height range
    have hbody := longest_lt_height body
    rw [longest, height]
    omega

theorem longestAll_le_heightAll : ∀ es : List Expr, longestAll es ≤ heightAll es
  | [] => Nat.le_refl 0
  | e :: es => by
    have he := longest_lt_height e
    have hes := longestAll_le_heightAll es
    rw [longestAll, heightAll]
    omega

end

mutual

/-- A path runs along one left edge after the other, and it leaves one for each step of nesting. -/
theorem height_le {k : Nat} : ∀ {e : Expr}, e.longest ≤ k →
    e.height ≤ e.edge + 1 + e.nesting * (k + 1)
  | .const _, _ | .var _, _ => by simp [height, edge, nesting]
  | .list items, h => by
    have hitems : heightAll items ≤ (nestingAll items + 1) * (k + 1) :=
      heightAll_le (by rwa [longest] at h)
    have hedge : (Expr.list items).edge = 0 := by simp [edge]
    rw [height, hedge, nesting]
    omega
  | .call op args, h => by
    rw [longest] at h
    obtain ⟨l, r, rfl⟩ | hpair := eq_pair_or_ne args
    · simp only [longestAll] at h
      have hl : l.height ≤ l.edge + 1 + l.nesting * (k + 1) := height_le (by omega)
      have hr : r.height ≤ r.edge + 1 + r.nesting * (k + 1) := height_le (by omega)
      have hedge := edge_le_longest r
      rw [height, heightAll, heightAll, heightAll, edge, nesting_pair, ← Nat.mul_max_mul_right,
        Nat.add_mul _ 1, Nat.one_mul]
      omega
    · have hargs : heightAll args ≤ (nestingAll args + 1) * (k + 1) := heightAll_le (by omega)
      rw [height, edge_call_of_ne hpair, nesting_call_of_ne hpair]
      omega
  | .method op receiver args, h => by
    rw [longest] at h
    have hreceiver : receiver.height ≤ receiver.edge + 1 + receiver.nesting * (k + 1) :=
      height_le (by omega)
    have hargs : heightAll args ≤ (nestingAll args + 1) * (k + 1) := heightAll_le (by omega)
    rw [height, edge, nesting, ← Nat.mul_max_mul_right]
    omega
  | .quantified q binder range body, h => by
    rw [longest] at h
    have hrange : range.height ≤ range.edge + 1 + range.nesting * (k + 1) := height_le (by omega)
    have hbody : body.height ≤ body.edge + 1 + body.nesting * (k + 1) := height_le (by omega)
    have hedge := edge_le_longest body
    rw [height, edge, nesting, ← Nat.mul_max_mul_right, Nat.add_mul _ 1, Nat.one_mul]
    omega

theorem heightAll_le {k : Nat} : ∀ {es : List Expr}, longestAll es ≤ k →
    heightAll es ≤ (nestingAll es + 1) * (k + 1)
  | [], _ => Nat.zero_le _
  | e :: es, h => by
    rw [longestAll] at h
    have he : e.height ≤ e.edge + 1 + e.nesting * (k + 1) := height_le (by omega)
    have hes : heightAll es ≤ (nestingAll es + 1) * (k + 1) := heightAll_le (by omega)
    have hedge := edge_le_longest e
    rw [Nat.add_mul, Nat.one_mul] at hes
    rw [heightAll, nestingAll, Nat.add_mul, Nat.one_mul, ← Nat.mul_max_mul_right]
    omega

end

/-- The height is that of the longest left edge, once for each step of nesting. -/
theorem height_le_mul (e : Expr) : e.height ≤ (e.nesting + 1) * (e.longest + 1) := by
  have hheight := height_le (Nat.le_refl e.longest)
  have hedge := e.edge_le_longest
  rw [Nat.add_mul, Nat.one_mul]
  omega

end Expr

/-! ### What the limit bounds -/

/-- How many tiers hold from the given one to the tightest. -/
def Tier.rank : Tier → Nat
  | .disjunction => 5
  | .conjunction => 4
  | .relation => 3
  | .sum => 2
  | .product => 1

/-- The greatest nesting of what is derived with so many levels below: on each level a path may turn
off at one operator of each tier, and once more into brackets. -/
def Category.nestingLimit (depth : Nat) : Category → Nat
  | .chain t => 6 * depth + 1 + t.rank
  | .unary | .member => 6 * depth + 1

theorem Tier.nestingLimit_operand (depth : Nat) (t : Tier) :
    t.operand.nestingLimit depth + 1 = (Category.chain t).nestingLimit depth := by
  cases t <;> rfl

mutual

/-- **The limit bounds the nesting.** -/
theorem Derives.nesting_le : ∀ {depth : Nat} {c : Category} {ts : List Token} {e : Expr},
    Derives depth c ts e → e.nesting ≤ c.nestingLimit depth
  | depth, _, _, _, .operand (t := t) h => by
    have he := h.nesting_le
    have hlimit := t.nestingLimit_operand depth
    omega
  | depth, _, _, _, .infixed (t := t) _ hl hr => by
    have hleft := hl.nesting_le
    have hright := hr.nesting_le
    have hlimit := t.nestingLimit_operand depth
    rw [Expr.nesting_pair]
    omega
  | _, _, _, _, .not h | _, _, _, _, .neg _ h => by
    have he := h.nesting_le
    simp only [Expr.nesting, Expr.nestingAll, Category.nestingLimit] at he ⊢
    omega
  | _, _, _, _, .member h => h.nesting_le
  | _, _, _, _, .int _ | _, _, _, _, .negative _ | _, _, _, _, .string _ | _, _, _, _, .true
  | _, _, _, _, .false | _, _, _, _, .var _ | _, _, _, _, .selection _ _ => Nat.zero_le _
  | _, _, _, _, .group h => by
    have he := h.nesting_le
    simp only [Category.nestingLimit, Tier.rank] at he ⊢
    omega
  | _, _, _, _, .list h | _, _, _, _, .listWithComma h _ => by
    have hes := h.nestingAll_le
    rw [Expr.nesting, Category.nestingLimit]
    omega
  | _, _, _, _, @Derives.function _ op _ args _ h => by
    have hargs := h.nestingAll_le
    have hcall := Expr.nesting_call_le op args
    rw [Category.nestingLimit]
    omega
  | _, _, _, _, .method _ h hargs => by
    have hreceiver := h.nesting_le
    have hargs := hargs.nestingAll_le
    rw [Category.nestingLimit] at hreceiver
    rw [Expr.nesting, Category.nestingLimit]
    omega
  | _, _, _, _, .quantified h hargs => by
    have hrange := h.nesting_le
    have hargs := hargs.nestingAll_le
    simp only [Expr.nestingAll] at hargs
    rw [Category.nestingLimit] at hrange
    rw [Expr.nesting, Category.nestingLimit]
    omega

theorem DerivesAll.nestingAll_le : ∀ {depth : Nat} {ts : List Token} {es : List Expr},
    DerivesAll depth ts es → Expr.nestingAll es ≤ 6 * depth
  | _, _, _, .none => Nat.zero_le _
  | _, _, _, .last h => by
    have he := h.nesting_le
    simp only [Expr.nestingAll, Category.nestingLimit, Tier.rank] at he ⊢
    omega
  | _, _, _, .cons h _ hall => by
    have he := h.nesting_le
    have hes := hall.nestingAll_le
    simp only [Expr.nestingAll, Category.nestingLimit, Tier.rank] at he ⊢
    omega

end

/-- The nesting of what is read is at most six for each level. -/
theorem nesting_of_parse {text : String} {e : Expr} (h : parse text = .ok e) :
    e.nesting ≤ 6 * maxDepth := by
  obtain ⟨input, -, hderives⟩ := exists_derives_of_parse h
  exact hderives.nesting_le

/-! ### Tag tests written out

A tag test becomes a chain of alternatives with one of them for each tag, so its left edge is as
long as its list, and it nests two steps deeper at most. -/

theorem nesting_underTag (tag : String) : (underTag tag).nesting = 2 := rfl

theorem nesting_orUnderTags : ∀ {tags : List String} {test : Expr}, test.nesting ≤ 3 →
    (orUnderTags test tags).nesting ≤ 3
  | [], _, h => h
  | tag :: tags, test, h => by
    rw [orUnderTags]
    refine nesting_orUnderTags ?_
    rw [Expr.nesting_pair, nesting_underTag]
    omega

theorem nesting_tagTest (tags : List String) : (tagTest tags).nesting ≤ 4 := by
  cases tags with
  | nil => exact Nat.zero_le _
  | cons tag tags =>
    have hbody : (orUnderTags (underTag tag) tags).nesting ≤ 3 :=
      nesting_orUnderTags (by rw [nesting_underTag]; omega)
    rw [tagTest, Expr.nesting, Expr.nesting]
    omega

/-- The list of a tag test stands below the test, and its items below the list. -/
theorem two_le_nesting (op : Op) (e : Expr) (items rest : List Expr) :
    2 ≤ (Expr.call op (e :: .list items :: rest)).nesting := by
  cases rest with
  | nil =>
    simp only [Expr.nesting]
    omega
  | cons e rest =>
    rw [Expr.nesting_call_of_ne (by simp)]
    simp only [Expr.nestingAll, Expr.nesting]
    omega

mutual

theorem Expands.nesting_le : ∀ {e e' : Expr}, Expands e e' → e'.nesting ≤ e.nesting + 2
  | _, _, .const _ | _, _, .var _ => Nat.zero_le _
  | _, _, .list h => by
    have hle := h.nestingAll_le
    rw [Expr.nesting, Expr.nesting]
    omega
  | _, _, @Expands.tagTest items tags rest _ => by
    have htags := nesting_tagTest tags
    have hitems := two_le_nesting .isIn (.var "tag") items rest
    omega
  | _, _, @Expands.call es es' op h => by
    obtain ⟨l, r, rfl⟩ | hpair := Expr.eq_pair_or_ne es
    · -- an infix operator stays one, so its left operand stays free
      obtain _ | ⟨hl, _ | ⟨hr, ⟨⟩⟩⟩ := h
      have hleft := hl.nesting_le
      have hright := hr.nesting_le
      rw [Expr.nesting_pair, Expr.nesting_pair]
      omega
    · have hle := h.nestingAll_le
      have hcall := Expr.nesting_call_le op es'
      rw [Expr.nesting_call_of_ne hpair]
      omega
  | _, _, .method _ hr h => by
    have hleft := hr.nesting_le
    have hle := h.nestingAll_le
    rw [Expr.nesting, Expr.nesting]
    omega
  | _, _, .quantified _ _ hr hb => by
    have hleft := hr.nesting_le
    have hright := hb.nesting_le
    rw [Expr.nesting, Expr.nesting]
    omega

theorem ExpandsAll.nestingAll_le : ∀ {es es' : List Expr}, ExpandsAll es es' →
    Expr.nestingAll es' ≤ Expr.nestingAll es + 2
  | _, _, .nil => Nat.zero_le _
  | _, _, .cons h hall => by
    have hfirst := h.nesting_le
    have hrest := hall.nestingAll_le
    rw [Expr.nestingAll, Expr.nestingAll]
    omega

end

/-! ### The height -/

/-- **The height of a filter** lies between the length of its longest left edge and a multiple of
that length, and so it does once tag tests are written out. The limit is in the factor only. -/
theorem height_of_parse {text : String} {e : Expr} (h : parse text = .ok e) :
    (e.longest < e.height ∧ e.height ≤ (6 * maxDepth + 1) * (e.longest + 1))
      ∧ ∀ w, expandTagTests e = .ok w →
        w.longest < w.height ∧ w.height ≤ (6 * maxDepth + 3) * (w.longest + 1) := by
  have hnesting := nesting_of_parse h
  refine ⟨⟨e.longest_lt_height, ?_⟩, fun w hw => ⟨w.longest_lt_height, ?_⟩⟩
  · exact Nat.le_trans e.height_le_mul (Nat.mul_le_mul_right _ (by omega))
  · have hexpanded := (expands_of_expandTagTests hw).nesting_le
    exact Nat.le_trans w.height_le_mul (Nat.mul_le_mul_right _ (by omega))

/-- Tag tests, prefix operators and operators of three strengths. -/
theorem height_of_parse_mixed :
    let text := "!(pinned || 1 + 2 - 3 == 0) && tag in [\"a\", \"b\", \"c\"]"
    ∃ e, parse text = .ok e
      ∧ (e.longest < e.height ∧ e.height ≤ (6 * maxDepth + 1) * (e.longest + 1))
      ∧ ∀ w, expandTagTests e = .ok w →
        w.longest < w.height ∧ w.height ≤ (6 * maxDepth + 3) * (w.longest + 1) := by
  intro text
  have hread : (parse text).toOption.isSome = true := by decide +kernel
  cases h : parse text with
  | error e =>
    rw [h] at hread
    cases hread
  | ok e => exact ⟨e, rfl, height_of_parse h⟩

/-! ### Filters of any height -/

/-- The characters of `true || true || ...` after the first operand, without blanks. -/
def alternatives : Nat → List Char
  | 0 => []
  | n + 1 => '|' :: '|' :: 't' :: 'r' :: 'u' :: 'e' :: alternatives n

/-- The text `true`, with that many further alternatives. -/
def disjunctionText (n : Nat) : String :=
  String.ofList ('t' :: 'r' :: 'u' :: 'e' :: alternatives n)

/-- The tokens of the further alternatives. -/
def alternativeLexemes (offset : Nat) : Nat → List Lexeme
  | 0 => []
  | n + 1 => (.orOr, offset) :: (.ident "true", offset + 2) :: alternativeLexemes (offset + 6) n

/-- The literal `true` with that many alternatives, grouped to the left. -/
def disjunctionTree (left : Expr) : Nat → Expr
  | 0 => left
  | n + 1 => disjunctionTree (.call .or [left, .const (.bool true)]) n

theorem scanToken_true (n : Nat) :
    scanToken 't' ('r' :: 'u' :: 'e' :: alternatives n)
      = .ok ⟨.ident "true", 4, alternatives n⟩ := by
  cases n <;> rfl

theorem scanFrom_alternatives : ∀ (n fuel offset : Nat), 2 * n ≤ fuel →
    ∃ stop, scanFrom fuel offset (alternatives n) = .ok ⟨alternativeLexemes offset n, stop⟩
  | 0, fuel, offset, _ => ⟨offset, by cases fuel <;> rfl⟩
  | n + 1, fuel + 2, offset, h => by
    obtain ⟨stop, hrest⟩ := scanFrom_alternatives n fuel (offset + 2 + 4) (by omega)
    have hsymbol : scanToken '|' ('|' :: 't' :: 'r' :: 'u' :: 'e' :: alternatives n)
        = .ok ⟨.orOr, 2, 't' :: 'r' :: 'u' :: 'e' :: alternatives n⟩ := rfl
    have hword := scanFrom_cons (by decide) (scanToken_true n) hrest
    exact ⟨stop, scanFrom_cons (by decide) hsymbol hword⟩

theorem tokenize_disjunctionText (n : Nat) : ∃ stop, tokenize (disjunctionText n)
    = .ok ⟨(.ident "true", 0) :: alternativeLexemes 4 n, stop⟩ := by
  have hlength : ∀ n, (alternatives n).length = 6 * n := by
    intro n
    induction n with
    | zero => rfl
    | succ n ih =>
      simp only [alternatives, List.length_cons, ih]
      omega
  obtain ⟨stop, hrest⟩ := scanFrom_alternatives n (3 + 6 * n) (0 + 4) (by omega)
  refine ⟨stop, ?_⟩
  rw [tokenize, disjunctionText, String.toList_ofList]
  simp only [List.length_cons, hlength]
  rw [show 6 * n + 1 + 1 + 1 + 1 = 3 + 6 * n + 1 by omega]
  exact scanFrom_cons (by decide) (scanToken_true n) hrest

/-- What stands between the operators of a disjunction. -/
def disjunctionOperand (stop : Nat) : Parser.P :=
  Parser.infixLeft Parser.conjunction? <| Parser.infixLeft Parser.relation? <|
    Parser.infixLeft Parser.sum? <| Parser.infixLeft Parser.product? <|
      Parser.unary stop (maxDepth - 1)

theorem disjunctionOperand_true (stop pos offset n : Nat) :
    disjunctionOperand stop ((.ident "true", pos) :: alternativeLexemes offset n)
      = .ok (.const (.bool true), alternativeLexemes offset n) := by
  cases n <;> rfl

/-- **The loop over operators goes on for as long as there are operators**, and asks for no
level. -/
theorem chain_alternatives (stop : Nat) : ∀ {n fuel offset : Nat} {left : Expr}, n ≤ fuel →
    Parser.chain Parser.disjunction? (disjunctionOperand stop) fuel left
      (alternativeLexemes offset n) = .ok (disjunctionTree left n, [])
  | 0, fuel, _, left, _ => by cases fuel <;> rfl
  | n + 1, fuel + 1, offset, left, h => by
    rw [alternativeLexemes, Parser.chain]
    dsimp only [Parser.disjunction?]
    rw [disjunctionOperand_true]
    exact chain_alternatives stop (Nat.le_of_succ_le_succ h)

theorem parse_disjunctionText (n : Nat) :
    parse (disjunctionText n) = .ok (disjunctionTree (.const (.bool true)) n) := by
  obtain ⟨stop, htokens⟩ := tokenize_disjunctionText n
  have hlength : ∀ n offset, n ≤ (alternativeLexemes offset n).length := by
    intro n
    induction n with
    | zero => exact fun _ => Nat.zero_le _
    | succ n ih =>
      intro offset
      have hrest := ih (offset + 6)
      simp only [alternativeLexemes, List.length_cons]
      omega
  have hread : Parser.expression stop maxDepth ((.ident "true", 0) :: alternativeLexemes 4 n)
      = .ok (disjunctionTree (.const (.bool true)) n, []) := by
    change Parser.infixLeft Parser.disjunction? (disjunctionOperand stop) _ = _
    rw [Parser.infixLeft, disjunctionOperand_true]
    exact chain_alternatives stop (hlength n 4)
  rw [parse, htokens]
  dsimp only
  rw [parseTokens, hread]

theorem height_disjunctionTree : ∀ (n : Nat) (left : Expr),
    (disjunctionTree left n).height = left.height + n
  | 0, _ => rfl
  | n + 1, left => by
    have hleft := left.one_le_height
    rw [disjunctionTree, height_disjunctionTree]
    simp only [Expr.height, Expr.heightAll]
    omega

/-- **No bound holds for the height of all filters.** A disjunction is as high as it is long. -/
theorem height_unbounded : ¬ ∃ bound, ∀ text e, parse text = .ok e → e.height ≤ bound := by
  rintro ⟨bound, hbound⟩
  have hheight := hbound _ _ (parse_disjunctionText bound)
  rw [height_disjunctionTree] at hheight
  have hone := (Expr.const (.bool true)).one_le_height
  omega

end SharedMemos.Filter
