import Mathlib.Data.List.Perm.Basic
import SharedMemos.Proofs.Filter.Prefilter

/-!
# Filters are a three-valued logic

An expression holds, fails, or is undecided: it has no value, or one that is no truth value. The
junctions go by the strong tables of Kleene, in which a junction is decided as soon as one operand
decides it, and a comprehension is a junction of as many operands as there are elements.

The evaluation does not look like that. It goes from left to right, leaves operands out, and keeps
errors for later. All of that only decides which error is told in the end, and so the laws of the
tables are laws of the expressions.

Such a law may be applied where only the verdict on an expression matters. Elsewhere, as an operand
of an equation, an expression counts with its value. A junction has no value but a truth value, so
that two junctions with one verdict have one value, or both an error. For that reason junctions may
be rearranged anywhere inside an expression (`Rearranged`).

## Main results

* `Verdict.and`, `Verdict.or`, `Verdict.not` — the tables
* `verdict_both`, `verdict_either`, `verdict_negation`, `verdict_quantified` — what expressions come
  to
* `Rearranged.toOption_eq` — rearranging changes at most which error is told
* `verdict_kleene` — all of it
-/

namespace SharedMemos.Filter

/-! ### The tables -/

/-- What becomes of an expression that is asked for a truth value. -/
inductive Verdict where
  | holds
  | fails
  | undecided
deriving Repr, DecidableEq

namespace Verdict

/-- The verdict that a result gives. -/
def of (r : Result) : Verdict :=
  match truth? r with
  | some true => holds
  | some false => fails
  | none => undecided

/-- Negation. -/
def not : Verdict → Verdict
  | holds => fails
  | fails => holds
  | undecided => undecided

/-- Conjunction: what fails decides it. -/
def and : Verdict → Verdict → Verdict
  | holds, holds => holds
  | fails, _ => fails
  | _, fails => fails
  | _, _ => undecided

/-- Disjunction: what holds decides it. -/
def or : Verdict → Verdict → Verdict
  | fails, fails => fails
  | holds, _ => holds
  | _, holds => holds
  | _, _ => undecided

variable (a b c : Verdict)

theorem and_comm : a.and b = b.and a := by
  cases a <;> cases b <;> rfl

theorem or_comm : a.or b = b.or a := by
  cases a <;> cases b <;> rfl

theorem and_assoc : (a.and b).and c = a.and (b.and c) := by
  cases a <;> cases b <;> cases c <;> rfl

theorem or_assoc : (a.or b).or c = a.or (b.or c) := by
  cases a <;> cases b <;> cases c <;> rfl

theorem and_or_distrib : a.and (b.or c) = (a.and b).or (a.and c) := by
  cases a <;> cases b <;> cases c <;> rfl

theorem or_and_distrib : a.or (b.and c) = (a.or b).and (a.or c) := by
  cases a <;> cases b <;> cases c <;> rfl

theorem not_not : a.not.not = a := by
  cases a <;> rfl

theorem not_and : (a.and b).not = a.not.or b.not := by
  cases a <;> cases b <;> rfl

theorem not_or : (a.or b).not = a.not.and b.not := by
  cases a <;> cases b <;> rfl

/-! ### Operators -/

theorem of_eq_holds_iff {r : Result} : of r = holds ↔ truth? r = some true := by
  simp only [of]
  rcases truth? r with _ | _ | _ <;> simp

/-- The verdict does not depend on which error a result is. -/
theorem of_congr {r r' : Result} (h : r.toOption = r'.toOption) : of r = of r' := by
  cases r <;> cases r' <;> cases h <;> rfl

/-- The value of a junction with the verdict. -/
def value? : Verdict → Option Value
  | holds => some (.bool true)
  | fails => some (.bool false)
  | undecided => none

theorem of_conjunction (l r : Result) : of (conjunction l r) = (of l).and (of r) := by
  simp only [of, conjunction]
  rcases truth? l with _ | _ | _ <;> rcases truth? r with _ | _ | _ <;> rfl

theorem of_disjunction (l r : Result) : of (disjunction l r) = (of l).or (of r) := by
  simp only [of, disjunction]
  rcases truth? l with _ | _ | _ <;> rcases truth? r with _ | _ | _ <;> rfl

/-- A junction has no value but a truth value, so that its verdict says it all. -/
theorem toOption_conjunction (l r : Result) :
    (conjunction l r).toOption = ((of l).and (of r)).value? := by
  simp only [of, conjunction]
  rcases truth? l with _ | _ | _ <;> rcases truth? r with _ | _ | _ <;> rfl

theorem toOption_disjunction (l r : Result) :
    (disjunction l r).toOption = ((of l).or (of r)).value? := by
  simp only [of, disjunction]
  rcases truth? l with _ | _ | _ <;> rcases truth? r with _ | _ | _ <;> rfl

end Verdict

/-- A result of a body either is a truth value or counts as an error. -/
theorem bodyError?_cases (r : Result) :
    (∃ b, r = .ok (.bool b) ∧ bodyError? r = none)
      ∨ ∃ e, Verdict.of r = .undecided ∧ truth? r = none ∧ bodyError? r = some e := by
  rcases r with e | (b | n | s | items)
  · exact .inr ⟨e, rfl, rfl, rfl⟩
  · exact .inl ⟨b, rfl, rfl⟩
  all_goals exact .inr ⟨_, rfl, rfl, rfl⟩

namespace Quantifier

/-- The junction that a quantifier stands for. -/
def junction : Quantifier → Verdict → Verdict → Verdict
  | any => Verdict.or
  | every => Verdict.and

/-- What it comes to over no elements. -/
def unit : Quantifier → Verdict
  | any => .fails
  | every => .holds

/-- The verdict of a quantifier on those of its elements. -/
def verdict (q : Quantifier) (vs : List Verdict) : Verdict :=
  vs.foldr q.junction q.unit

theorem junction_unit (q : Quantifier) (v : Verdict) : q.junction q.unit v = v := by
  cases q <;> cases v <;> rfl

instance (q : Quantifier) : LeftCommutative q.junction where
  left_comm a b c := by
    cases q
    · exact (Verdict.or_assoc a b c).symm.trans
        ((congrArg (Verdict.or · c) (Verdict.or_comm a b)).trans (Verdict.or_assoc b a c))
    · exact (Verdict.and_assoc a b c).symm.trans
        ((congrArg (Verdict.and · c) (Verdict.and_comm a b)).trans (Verdict.and_assoc b a c))

theorem verdict_perm (q : Quantifier) {vs vs' : List Verdict} (h : vs.Perm vs') :
    q.verdict vs = q.verdict vs' :=
  h.foldr_eq q.unit

/-- The negation of a disjunction is the conjunction of the negations, of however many. -/
theorem not_verdict_any (vs : List Verdict) :
    (any.verdict vs).not = every.verdict (vs.map Verdict.not) := by
  induction vs with
  | nil => rfl
  | cons v vs ih =>
    change (v.or (any.verdict vs)).not = v.not.and (every.verdict (vs.map Verdict.not))
    rw [Verdict.not_or, ih]

theorem join_of_exists {q : Quantifier} {rs : List Result}
    (h : ∃ r ∈ rs, truth? r = some q.decisive) : q.join rs = .ok (.bool q.decisive) := by
  rw [join, if_pos]
  simpa only [List.any_eq_true, beq_iff_eq] using h

theorem of_join_of_forall {q : Quantifier} {rs : List Result}
    (h : ∀ r ∈ rs, truth? r ≠ some q.decisive) :
    Verdict.of (q.join rs) = if rs.filterMap bodyError? = [] then q.unit else .undecided := by
  have hnone : ¬ (rs.any fun r => truth? r == some q.decisive) = true := by
    simpa only [List.any_eq_true, beq_iff_eq, not_exists, not_and] using h
  rw [join, if_neg hnone]
  cases herrors : (rs.filterMap bodyError?).getLast? with
  | none =>
    rw [if_pos (List.getLast?_eq_none_iff.mp herrors)]
    cases q <;> rfl
  | some e =>
    rw [if_neg fun hnil => by rw [hnil] at herrors; cases herrors]
    rfl

/-- One more element is one more operand, though its error may be told in place of another. -/
theorem of_join_cons (q : Quantifier) (r : Result) (rs : List Result) :
    Verdict.of (q.join (r :: rs)) = q.junction (Verdict.of r) (Verdict.of (q.join rs)) := by
  by_cases hrest : ∃ x ∈ rs, truth? x = some q.decisive
  · have hall : ∃ x ∈ r :: rs, truth? x = some q.decisive := by
      obtain ⟨x, hx, hdecisive⟩ := hrest
      exact ⟨x, List.mem_cons_of_mem r hx, hdecisive⟩
    rw [join_of_exists hall, join_of_exists hrest]
    cases q <;> cases Verdict.of r <;> rfl
  · push Not at hrest
    rcases bodyError?_cases r with ⟨b, rfl, hnone⟩ | ⟨e, hof, htruth, hsome⟩
    · by_cases hb : b = q.decisive
      · have hall : ∃ x ∈ .ok (.bool b) :: rs, truth? x = some q.decisive :=
          ⟨_, List.mem_cons_self, congrArg some hb⟩
        rw [join_of_exists hall, hb]
        cases q <;> rfl
      · -- a truth value that does not decide leaves the comprehension as it was
        have hall : ∀ x ∈ .ok (.bool b) :: rs, truth? x ≠ some q.decisive :=
          List.forall_mem_cons.mpr ⟨fun h => hb (Option.some.inj h), hrest⟩
        have hunit : Verdict.of (.ok (.bool b)) = q.unit := by
          cases q <;> cases b <;> first | rfl | exact absurd rfl hb
        rw [of_join_of_forall hall, of_join_of_forall hrest, List.filterMap_cons_none hnone, hunit,
          junction_unit]
    · have hall : ∀ x ∈ r :: rs, truth? x ≠ some q.decisive :=
        List.forall_mem_cons.mpr ⟨by simp [htruth], hrest⟩
      rw [of_join_of_forall hall, of_join_of_forall hrest, List.filterMap_cons_some hsome, hof,
        if_neg (List.cons_ne_nil _ _)]
      cases q <;> split <;> rfl

theorem of_join (q : Quantifier) (rs : List Result) :
    Verdict.of (q.join rs) = q.verdict (rs.map Verdict.of) := by
  induction rs with
  | nil => cases q <;> rfl
  | cons r rs ih => rw [of_join_cons, ih, List.map_cons, verdict, verdict, List.foldr_cons]

theorem toOption_join (q : Quantifier) (rs : List Result) :
    (q.join rs).toOption = (q.verdict (rs.map Verdict.of)).value? := by
  rw [← of_join, join]
  split
  · cases q.decisive <;> rfl
  · split
    · rfl
    · cases q.decisive <;> rfl

end Quantifier

/-! ### Expressions -/

/-- The verdict on an expression. -/
def verdict (env : Env) (e : Expr) : Verdict :=
  .of (eval env e)

/-- Is the verdict on both expressions always the same? -/
def SameVerdict (e e' : Expr) : Prop :=
  ∀ env, verdict env e = verdict env e'

namespace Expr

/-- The conjunction of two expressions. -/
abbrev both (l r : Expr) : Expr :=
  .call .and [l, r]

/-- The disjunction of two expressions. -/
abbrev either (l r : Expr) : Expr :=
  .call .or [l, r]

/-- The negation of an expression. -/
abbrev negation (e : Expr) : Expr :=
  .call .not [e]

end Expr

open SharedMemos.Filter.Expr

section

variable (env : Env) (a b : Expr)

theorem verdict_both : verdict env (both a b) = (verdict env a).and (verdict env b) := by
  rw [verdict, eval_and, Verdict.of_conjunction]
  rfl

theorem verdict_either : verdict env (either a b) = (verdict env a).or (verdict env b) := by
  rw [verdict, eval_or, Verdict.of_disjunction]
  rfl

theorem verdict_negation : verdict env (negation a) = (verdict env a).not := by
  rw [verdict, verdict, eval, evalAll, evalAll]
  rcases eval env a with e | ((_ | _) | n | s | items) <;> rfl

theorem verdict_quantified {items : List Value} (q : Quantifier) (binder : String)
    {range : Expr} (hrange : eval env range = .ok (.list items)) (body : Expr) :
    verdict env (.quantified q binder range body)
      = q.verdict (items.map fun v => verdict (env.bind binder v) body) := by
  rw [verdict, eval, hrange]
  dsimp only
  rw [Quantifier.of_join, List.map_map]
  rfl

/-- A comprehension over what is no list is undecided. -/
theorem verdict_quantified_of_not_list (q : Quantifier) (binder : String) {range : Expr}
    (hrange : ∀ items, eval env range ≠ .ok (.list items)) (body : Expr) :
    verdict env (.quantified q binder range body) = .undecided := by
  rw [verdict, eval]
  split
  · rfl
  · rename_i items hitems
    exact absurd hitems (hrange items)
  · rfl

end

/-- **What a comprehension denies of some element, it says of every element.** -/
theorem sameVerdict_negation_any (binder : String) (range body : Expr) :
    SameVerdict (negation (.quantified .any binder range body))
      (.quantified .every binder range (negation body)) := by
  intro env
  rw [verdict_negation]
  by_cases hrange : ∃ items, eval env range = .ok (.list items)
  · obtain ⟨items, hitems⟩ := hrange
    simp only [verdict_quantified env _ _ hitems, Quantifier.not_verdict_any, List.map_map,
      Function.comp_def, verdict_negation]
  · push Not at hrange
    rw [verdict_quantified_of_not_list env _ _ hrange,
      verdict_quantified_of_not_list env _ _ hrange]
    rfl

/-! ### Results up to their errors

Which error an operand is does not matter to the value of an operator. -/

theorem toOption_bind {ε α β : Type} (x : Except ε α) (f : α → Except ε β) :
    (x.bind f).toOption = x.toOption.bind fun a => (f a).toOption := by
  cases x <;> rfl

theorem toOption_map {ε α β : Type} (x : Except ε α) (f : α → β) :
    (x.map f).toOption = x.toOption.map f := by
  cases x <;> rfl

theorem eq_ok_of_toOption {ε α : Type} {x : Except ε α} {a : α} (h : x.toOption = some a) :
    x = .ok a := by
  cases x <;> cases h
  rfl

theorem toOption_values (rs : List Result) :
    (values rs).toOption = (rs.map Except.toOption).mapM id := by
  induction rs with
  | nil => rfl
  | cons r rs ih =>
    rw [List.map_cons, List.mapM_cons, ← ih]
    cases r with
    | error e => rfl
    | ok v =>
      rw [values]
      cases values rs <;> rfl

theorem values_congr {rs rs' : List Result}
    (h : rs.map Except.toOption = rs'.map Except.toOption) :
    (values rs).toOption = (values rs').toOption := by
  rw [toOption_values, toOption_values, h]

/-- In another order, the values are in that order, or some result is no value in either. -/
theorem values_perm {rs rs' : List Result} (h : rs.Perm rs') :
    ((values rs).toOption = none ∧ (values rs').toOption = none)
      ∨ ∃ vs vs', values rs = .ok vs ∧ values rs' = .ok vs' ∧ vs.Perm vs' := by
  induction h with
  | nil => exact .inr ⟨[], [], rfl, rfl, .nil⟩
  | @cons r rs rs' _ ih =>
    cases r with
    | error e => exact .inl ⟨rfl, rfl⟩
    | ok v =>
      simp only [values, toOption_map]
      rcases ih with ⟨hnone, hnone'⟩ | ⟨vs, vs', hvs, hvs', hperm⟩
      · exact .inl ⟨by rw [hnone]; rfl, by rw [hnone']; rfl⟩
      · exact .inr ⟨v :: vs, v :: vs', by rw [hvs]; rfl, by rw [hvs']; rfl, hperm.cons v⟩
  | swap r r' rs =>
    cases r with
    | error e => cases r' <;> exact .inl ⟨rfl, rfl⟩
    | ok v =>
      cases r' with
      | error e => exact .inl ⟨rfl, rfl⟩
      | ok v' =>
        cases hvs : values rs with
        | error e => exact .inl ⟨by simp only [values, hvs]; rfl, by simp only [values, hvs]; rfl⟩
        | ok vs =>
          exact .inr ⟨v' :: v :: vs, v :: v' :: vs, by simp only [values, hvs]; rfl,
            by simp only [values, hvs]; rfl, .swap v v' vs⟩
  | trans _ _ ih ih' =>
    rcases ih with ⟨hnone, hnone'⟩ | ⟨vs, vs', hvs, hvs', hperm⟩
    · rcases ih' with ⟨-, hnone''⟩ | ⟨_, _, hsome, -⟩
      · exact .inl ⟨hnone, hnone''⟩
      · rw [hsome] at hnone'
        cases hnone'
    · rcases ih' with ⟨hnone, -⟩ | ⟨ws, ws', hws, hws', hperm'⟩
      · rw [hvs'] at hnone
        cases hnone
      · cases hvs'.symm.trans hws
        exact .inr ⟨vs, ws', hvs, hws', hperm.trans hperm'⟩

section

variable {receiver receiver' : Option Result} {args args' : List Result}

theorem Op.applyAll_congr (op : Op) (now : Int)
    (hreceiver : receiver.map Except.toOption = receiver'.map Except.toOption)
    (hargs : args.map Except.toOption = args'.map Except.toOption) :
    (op.applyAll now receiver args).toOption = (op.applyAll now receiver' args').toOption := by
  have hlength : args.length = args'.length := by
    simpa using congrArg List.length hargs
  rcases receiver with - | (e | s) <;> rcases receiver' with - | (e' | s') <;> cases hreceiver
  · simp only [applyAll, hlength]
    split
    · rfl
    · rw [toOption_bind, toOption_bind, values_congr hargs]
  · rfl
  · simp only [applyAll, toOption_bind, values_congr hargs]

/-- The value of an operator depends on its operands up to their errors. -/
theorem Op.apply_congr (op : Op) (now : Int)
    (hreceiver : receiver.map Except.toOption = receiver'.map Except.toOption)
    (hargs : args.map Except.toOption = args'.map Except.toOption) :
    (op.apply now receiver args).toOption = (op.apply now receiver' args').toOption := by
  have hlength : args.length = args'.length := by
    simpa using congrArg List.length hargs
  by_cases hall : op.isJunction = true → args.length ≠ 2
  · rw [apply_eq_applyAll hall, apply_eq_applyAll (hlength ▸ hall)]
    exact op.applyAll_congr now hreceiver hargs
  · push Not at hall
    obtain ⟨hjunction, htwo⟩ := hall
    obtain ⟨l, r, rfl⟩ := List.length_eq_two.mp htwo
    obtain ⟨l', r', rfl⟩ := List.length_eq_two.mp (hlength ▸ htwo)
    simp only [List.map_cons, List.map_nil, List.cons.injEq, and_true] at hargs
    cases op with
    | and =>
      change (conjunction l r).toOption = (conjunction l' r').toOption
      rw [Verdict.toOption_conjunction, Verdict.toOption_conjunction, Verdict.of_congr hargs.1,
        Verdict.of_congr hargs.2]
    | or =>
      change (disjunction l r).toOption = (disjunction l' r').toOption
      rw [Verdict.toOption_disjunction, Verdict.toOption_disjunction, Verdict.of_congr hargs.1,
        Verdict.of_congr hargs.2]
    | _ => cases hjunction

end

/-! ### Rearranged expressions -/

/-- The second expression is the first with operands of junctions, or elements that a comprehension
goes through, in another order or grouped otherwise, anywhere in it. -/
inductive Rearranged : Expr → Expr → Prop
  | refl (e) : Rearranged e e
  | symm {e e'} (h : Rearranged e e') : Rearranged e' e
  | trans {e e' e''} (h : Rearranged e e') (h' : Rearranged e' e'') : Rearranged e e''
  | swapAnd (a b) : Rearranged (both a b) (both b a)
  | swapOr (a b) : Rearranged (either a b) (either b a)
  | regroupAnd (a b c) : Rearranged (both (both a b) c) (both a (both b c))
  | regroupOr (a b c) : Rearranged (either (either a b) c) (either a (either b c))
  | elements {items items'} (q binder body) (h : items.Perm items') :
    Rearranged (.quantified q binder (.list items) body) (.quantified q binder (.list items') body)
  | item {e e'} (before after) (h : Rearranged e e') :
    Rearranged (.list (before ++ e :: after)) (.list (before ++ e' :: after))
  | operand {e e'} (op before after) (h : Rearranged e e') :
    Rearranged (.call op (before ++ e :: after)) (.call op (before ++ e' :: after))
  | receiver {e e'} (op args) (h : Rearranged e e') :
    Rearranged (.method op e args) (.method op e' args)
  | argument {e e'} (op r before after) (h : Rearranged e e') :
    Rearranged (.method op r (before ++ e :: after)) (.method op r (before ++ e' :: after))
  | range {e e'} (q binder body) (h : Rearranged e e') :
    Rearranged (.quantified q binder e body) (.quantified q binder e' body)
  | body {e e'} (q binder range) (h : Rearranged e e') :
    Rearranged (.quantified q binder range e) (.quantified q binder range e')

theorem evalAll_eq_map (env : Env) (es : List Expr) : evalAll env es = es.map (eval env) := by
  induction es with
  | nil => rfl
  | cons e es ih => rw [evalAll, ih, List.map_cons]

theorem toOption_evalAll_append {env : Env} {e e' : Expr}
    (h : (eval env e).toOption = (eval env e').toOption) (before after : List Expr) :
    (evalAll env (before ++ e :: after)).map Except.toOption
      = (evalAll env (before ++ e' :: after)).map Except.toOption := by
  simp only [evalAll_eq_map, List.map_append, List.map_cons, h]

theorem toOption_quantified {env : Env} {q : Quantifier} {binder : String} {range body : Expr}
    {items : List Value} (hrange : (eval env range).toOption = some (.list items)) :
    (eval env (.quantified q binder range body)).toOption
      = (q.verdict (items.map fun v => verdict (env.bind binder v) body)).value? := by
  rw [eval, eq_ok_of_toOption hrange]
  dsimp only
  rw [Quantifier.toOption_join, List.map_map]
  rfl

theorem toOption_quantified_of_not_list {env : Env} {q : Quantifier} {binder : String}
    {range body : Expr} (hrange : ∀ items, (eval env range).toOption ≠ some (.list items)) :
    (eval env (.quantified q binder range body)).toOption = none := by
  rw [eval]
  split
  · rfl
  · rename_i items hitems
    exact absurd (congrArg Except.toOption hitems) (hrange items)
  · rfl

/-- **Rearranging changes at most which error is told.** -/
theorem Rearranged.toOption_eq {e e' : Expr} (h : Rearranged e e') :
    ∀ env, (eval env e).toOption = (eval env e').toOption := by
  induction h with
  | refl => exact fun _ => rfl
  | symm _ ih => exact fun env => (ih env).symm
  | trans _ _ ih ih' => exact fun env => (ih env).trans (ih' env)
  | swapAnd a b =>
    intro env
    rw [eval_and, eval_and, Verdict.toOption_conjunction, Verdict.toOption_conjunction,
      Verdict.and_comm]
  | swapOr a b =>
    intro env
    rw [eval_or, eval_or, Verdict.toOption_disjunction, Verdict.toOption_disjunction,
      Verdict.or_comm]
  | regroupAnd a b c =>
    intro env
    simp only [eval_and, Verdict.toOption_conjunction, Verdict.of_conjunction, Verdict.and_assoc]
  | regroupOr a b c =>
    intro env
    simp only [eval_or, Verdict.toOption_disjunction, Verdict.of_disjunction, Verdict.or_assoc]
  | @elements items items' q binder body h =>
    intro env
    have hperm : (evalAll env items).Perm (evalAll env items') := by
      rw [evalAll_eq_map, evalAll_eq_map]
      exact h.map _
    rcases values_perm hperm with ⟨hnone, hnone'⟩ | ⟨vs, vs', hvs, hvs', hvalues⟩
    · rw [toOption_quantified_of_not_list, toOption_quantified_of_not_list] <;>
        simp [eval, toOption_map, hnone, hnone']
    · have hlist : (eval env (.list items)).toOption = some (.list vs) := by
        rw [eval, hvs]
        rfl
      have hlist' : (eval env (.list items')).toOption = some (.list vs') := by
        rw [eval, hvs']
        rfl
      rw [toOption_quantified hlist, toOption_quantified hlist',
        q.verdict_perm (hvalues.map _)]
  | item before after _ ih =>
    intro env
    rw [eval, eval, toOption_map, toOption_map,
      values_congr (toOption_evalAll_append (ih env) before after)]
  | operand op before after _ ih =>
    intro env
    rw [eval, eval]
    exact op.apply_congr env.now rfl (toOption_evalAll_append (ih env) before after)
  | receiver op args _ ih =>
    intro env
    rw [eval, eval]
    exact op.apply_congr env.now (congrArg some (ih env)) rfl
  | argument op r before after _ ih =>
    intro env
    rw [eval, eval]
    exact op.apply_congr env.now rfl (toOption_evalAll_append (ih env) before after)
  | @range e e' q binder body _ ih =>
    intro env
    by_cases hrange : ∃ items, (eval env e).toOption = some (.list items)
    · obtain ⟨items, hitems⟩ := hrange
      rw [toOption_quantified hitems, toOption_quantified (ih env ▸ hitems)]
    · push Not at hrange
      rw [toOption_quantified_of_not_list hrange,
        toOption_quantified_of_not_list fun items => ih env ▸ hrange items]
  | body q binder range _ ih =>
    intro env
    rw [eval, eval]
    split
    · rfl
    · rw [Quantifier.toOption_join, Quantifier.toOption_join, List.map_map, List.map_map]
      congr 2
      exact List.map_congr_left fun v _ => Verdict.of_congr (ih _)
    · rfl

/-- What a filter matches depends on its value up to the error. -/
theorem Rearranged.satisfies_eq {e e' : Expr} (h : Rearranged e e') (m : Memo) (now : Int) :
    satisfies m now e = satisfies m now e' := by
  have hverdict := Verdict.of_congr (h.toOption_eq ⟨m, now, []⟩)
  rw [Bool.eq_iff_iff, satisfies, satisfies, beq_iff_eq, beq_iff_eq, ← Verdict.of_eq_holds_iff,
    ← Verdict.of_eq_holds_iff, hverdict]

/-- **Filters are a strong Kleene logic.** Negations, conjunctions and disjunctions go by the
tables, whatever their operands come to, and so the laws of the tables are theirs; a comprehension
is the junction of what its body comes to for the elements, in any order. Hence rearranging a filter
never changes what it matches. -/
theorem verdict_kleene :
    -- the tables
    (∀ env a b, verdict env (negation a) = (verdict env a).not
      ∧ verdict env (both a b) = (verdict env a).and (verdict env b)
      ∧ verdict env (either a b) = (verdict env a).or (verdict env b))
    -- order and grouping
    ∧ (∀ a b, SameVerdict (both a b) (both b a) ∧ SameVerdict (either a b) (either b a))
    ∧ (∀ a b c, SameVerdict (both (both a b) c) (both a (both b c))
      ∧ SameVerdict (either (either a b) c) (either a (either b c)))
    ∧ (∀ a b c, SameVerdict (both a (either b c)) (either (both a b) (both a c))
      ∧ SameVerdict (either a (both b c)) (both (either a b) (either a c)))
    -- negation
    ∧ (∀ a b, SameVerdict (negation (both a b)) (either (negation a) (negation b))
      ∧ SameVerdict (negation (either a b)) (both (negation a) (negation b)))
    ∧ (∀ a, SameVerdict (negation (negation a)) a)
    -- comprehensions
    ∧ (∀ env q binder range body items, eval env range = .ok (.list items) →
      verdict env (.quantified q binder range body)
        = q.verdict (items.map fun v => verdict (env.bind binder v) body))
    ∧ (∀ env q binder range range' body items items', eval env range = .ok (.list items) →
      eval env range' = .ok (.list items') → items.Perm items' →
      verdict env (.quantified q binder range body)
        = verdict env (.quantified q binder range' body))
    ∧ (∀ binder range body, SameVerdict (negation (.quantified .any binder range body))
      (.quantified .every binder range (negation body)))
    -- filters
    ∧ ∀ e e', Rearranged e e' → ∀ m now, satisfies m now e = satisfies m now e' := by
  refine ⟨fun env a b => ⟨verdict_negation env a, verdict_both env a b, verdict_either env a b⟩,
    fun a b => ⟨fun env => ?_, fun env => ?_⟩, fun a b c => ⟨fun env => ?_, fun env => ?_⟩,
    fun a b c => ⟨fun env => ?_, fun env => ?_⟩, fun a b => ⟨fun env => ?_, fun env => ?_⟩,
    fun a env => ?_, fun env q binder range body items hitems => ?_, ?_,
    sameVerdict_negation_any, fun e e' h => h.satisfies_eq⟩
  · rw [verdict_both, verdict_both, Verdict.and_comm]
  · rw [verdict_either, verdict_either, Verdict.or_comm]
  · simp only [verdict_both, Verdict.and_assoc]
  · simp only [verdict_either, Verdict.or_assoc]
  · simp only [verdict_both, verdict_either, Verdict.and_or_distrib]
  · simp only [verdict_both, verdict_either, Verdict.or_and_distrib]
  · simp only [verdict_negation, verdict_both, verdict_either, Verdict.not_and]
  · simp only [verdict_negation, verdict_both, verdict_either, Verdict.not_or]
  · rw [verdict_negation, verdict_negation, Verdict.not_not]
  · exact verdict_quantified env q binder hitems body
  · intro env q binder range range' body items items' hitems hitems' hperm
    rw [verdict_quantified env q binder hitems, verdict_quantified env q binder hitems',
      q.verdict_perm (hperm.map _)]

/-- A quotient by zero leaves a comprehension that another element decides as it is, before it or
after it. -/
theorem verdict_kleene_quotients :
    let env : Env := ⟨plannedMemo, 0, []⟩
    let quotient : Expr := .call .eq [.call .div [.const (.int 1), .var "n"], .const (.int 1)]
    let zeroFirst : List Expr := [.const (.int 0), .const (.int 1)]
    let oneFirst : List Expr := [.const (.int 1), .const (.int 0)]
    eval env (.list zeroFirst) = .ok (.list [.int 0, .int 1])
      ∧ eval env (.list oneFirst) = .ok (.list [.int 1, .int 0])
      ∧ [Value.int 0, .int 1].Perm [.int 1, .int 0]
      ∧ verdict env (.quantified .any "n" (.list zeroFirst) quotient)
        = Quantifier.any.verdict [.undecided, .holds]
      ∧ verdict env (.quantified .any "n" (.list zeroFirst) quotient)
        = verdict env (.quantified .any "n" (.list oneFirst) quotient)
      ∧ Rearranged (.quantified .any "n" (.list zeroFirst) quotient)
        (.quantified .any "n" (.list oneFirst) quotient)
      ∧ satisfies plannedMemo 0 (.quantified .any "n" (.list zeroFirst) quotient)
        = satisfies plannedMemo 0 (.quantified .any "n" (.list oneFirst) quotient) := by
  intro env quotient zeroFirst oneFirst
  have hzero : eval env (.list zeroFirst) = .ok (.list [.int 0, .int 1]) := rfl
  have hone : eval env (.list oneFirst) = .ok (.list [.int 1, .int 0]) := rfl
  have hperm : [Value.int 0, .int 1].Perm [.int 1, .int 0] := .swap _ _ _
  have hrearranged : Rearranged (.quantified .any "n" (.list zeroFirst) quotient)
      (.quantified .any "n" (.list oneFirst) quotient) := .elements _ _ _ (.swap _ _ _)
  obtain ⟨-, -, -, -, -, -, hfold, horder, -, hfilters⟩ := verdict_kleene
  exact ⟨hzero, hone, hperm, hfold env .any "n" _ quotient _ hzero,
    horder env .any "n" _ _ quotient _ _ hzero hone hperm, hrearranged,
    hfilters _ _ hrearranged plannedMemo 0⟩

end SharedMemos.Filter
