import SharedMemos.Proofs.Filter.Alpha
import SharedMemos.Proofs.Filter.Prefilter

/-!
# The names of bound variables

A comprehension may call its variable by any name that is not in use: the filter is refused for the
same reason, or says the same of every memo.

What stands against it are tag tests, which are told by a name and are written out in terms of
another. So a variable that is called `tag` makes a test on it a test of the memo's tags, and one
that is called `tags` takes the place of the memo's tags in a test. Hence the one condition: where
the variable is called either, no tag test may be in its reach. The name that a written out test
gives to its own variable needs no condition, as nothing of the user's stands inside the test.

## Main results

* `expandTagTests_renameFree` — tag tests are written out before a renaming as after it
* `expand_of_renamesAt` — so that the two filters are alike once that is done
* `checked_rename` — and are refused for the same reason, or say the same
-/

namespace SharedMemos.Filter

open SharedMemos.Text

/-! ### Tag tests in reach of a variable -/

namespace Expr

mutual

/-- Is there a tag test in the expression that no comprehension inside shields from `x`? -/
def reachesTagTest (x : String) : Expr → Bool
  | .const _ | .var _ => false
  | .list items => anyReachesTagTest x items
  | .call .isIn (.var "tag" :: _) => true
  | .call _ args => anyReachesTagTest x args
  | .method _ receiver args => receiver.reachesTagTest x || anyReachesTagTest x args
  | .quantified _ binder range body =>
    range.reachesTagTest x || (binder != x && body.reachesTagTest x)

/-- Is there one in one of the expressions? -/
def anyReachesTagTest (x : String) : List Expr → Bool
  | [] => false
  | e :: es => e.reachesTagTest x || anyReachesTagTest x es

end

end Expr

/-- Does no tag test in the expression hang on what `x` is called? The name on its left and the name
of the memo's tags are the two that it hangs on. -/
def SparesTagTests (x : String) (e : Expr) : Prop :=
  x = tagTestName ∨ x = Attribute.tags.name → e.reachesTagTest x = false

/-! ### Tag tests and renaming -/

section Rename

variable {x y : String}

theorem var_of_renameFree {e : Expr} {n : String} (hn : n ≠ y)
    (h : e.renameFree x y = .var n) : e = .var n := by
  cases e with
  | var k =>
    rw [Expr.renameFree] at h
    split at h
    · exact absurd (Expr.var.inj h).symm hn
    · exact h
  | _ => simp [Expr.renameFree] at h

mutual

theorem renameFree_of_not_mentions : ∀ e : Expr, e.mentions x = false → e.renameFree x y = e
  | .const _, _ => rfl
  | .var n, h => by
    rw [Expr.mentions, beq_eq_false_iff_ne] at h
    rw [Expr.renameFree, if_neg h]
  | .list items, h => by
    rw [Expr.renameFree, renameAllFree_of_not_mentions items h]
  | .call op args, h => by
    rw [Expr.renameFree, renameAllFree_of_not_mentions args h]
  | .method op receiver args, h => by
    rw [Expr.mentions, Bool.or_eq_false_iff] at h
    rw [Expr.renameFree, renameFree_of_not_mentions receiver h.1,
      renameAllFree_of_not_mentions args h.2]
  | .quantified q binder range body, h => by
    rw [Expr.mentions, Bool.or_eq_false_iff, Bool.or_eq_false_iff] at h
    rw [Expr.renameFree, renameFree_of_not_mentions range h.1.2,
      renameFree_of_not_mentions body h.2, ite_self]

theorem renameAllFree_of_not_mentions : ∀ es : List Expr, Expr.anyMentions x es = false →
    Expr.renameAllFree x y es = es
  | [], _ => rfl
  | e :: es, h => by
    rw [Expr.anyMentions, Bool.or_eq_false_iff] at h
    rw [Expr.renameAllFree, renameFree_of_not_mentions e h.1,
      renameAllFree_of_not_mentions es h.2]

end

theorem textLiterals_renameAllFree (items : List Expr) :
    textLiterals (Expr.renameAllFree x y items) = textLiterals items := by
  induction items with
  | nil => rfl
  | cons item items ih =>
    rw [Expr.renameAllFree]
    cases item with
    | const v =>
      cases v with
      | string s => rw [Expr.renameFree, textLiterals, textLiterals, ih]
      | _ => rfl
    | _ => rfl

/-- A written out test mentions no name but that of the memo's tags and that of its own variable. -/
theorem renameFree_tagTest (hx : x ≠ Attribute.tags.name) (tags : List String) :
    (tagTest tags).renameFree x y = tagTest tags := by
  cases tags with
  | nil => rfl
  | cons tag tags =>
    have hrange : (Expr.var "tags").renameFree x y = .var "tags" :=
      renameFree_of_not_mentions _ (beq_eq_false_iff_ne.mpr (Ne.symm hx))
    rw [tagTest, Expr.renameFree, hrange]
    split
    · rfl
    · rename_i hbinder
      rw [renameFree_of_not_mentions]
      rw [Bool.eq_false_iff]
      intro hmentions
      refine hbinder (Eq.symm ?_)
      exact (mentions_orUnderTags hmentions).elim mentions_underTag id

theorem expandTagTest_renameAllFree (hx : x ≠ Attribute.tags.name) (args : List Expr) :
    expandTagTest (Expr.renameAllFree x y args)
      = (expandTagTest args).map (Expr.renameFree x y) := by
  rw [expandTagTest.eq_def (Expr.renameAllFree x y args), expandTagTest.eq_def args]
  cases args with
  | nil => rfl
  | cons arg args =>
    cases arg with
    | list items =>
      show (textLiterals (Expr.renameAllFree x y items)).map tagTest
        = ((textLiterals items).map tagTest).map (Expr.renameFree x y)
      rw [textLiterals_renameAllFree]
      cases textLiterals items with
      | error fault => rfl
      | ok tags => exact congrArg Except.ok (renameFree_tagTest hx tags).symm
    | _ => rfl

mutual

/-- **Tag tests may be written out before a renaming as well as after it**, where none of them hangs
on the old name and the new one makes no further test. -/
theorem expandTagTests_renameFree (hy : y ≠ tagTestName) : ∀ e : Expr, SparesTagTests x e →
    expandTagTests (e.renameFree x y) = (expandTagTests e).map (Expr.renameFree x y)
  | .const _, _ => by
    rw [Expr.renameFree, expandTagTests]
    rfl
  | .var _, _ => by
    rw [Expr.renameFree, expandTagTests, expandTagTests]
    rfl
  | .list items, h => by
    rw [Expr.renameFree, expandTagTests, expandTagTests, expandAll_renameAllFree hy items h]
    cases expandAll items <;> rfl
  | .call op args, h => by
    by_cases htest : ∃ rest, op = .isIn ∧ args = .var "tag" :: rest
    · obtain ⟨rest, rfl, rfl⟩ := htest
      have hx : ¬ (x = tagTestName ∨ x = Attribute.tags.name) := fun hx => by
        have hreach := h hx
        rw [Expr.reachesTagTest] at hreach
        cases hreach
      rw [not_or] at hx
      have hleft : (Expr.var "tag").renameFree x y = .var "tag" :=
        renameFree_of_not_mentions _ (beq_eq_false_iff_ne.mpr (Ne.symm hx.1))
      rw [Expr.renameFree, Expr.renameAllFree, hleft, expandTagTests, expandTagTests,
        expandTagTest_renameAllFree hx.2]
    · have htest' : ¬ ∃ rest, op = .isIn ∧ Expr.renameAllFree x y args = .var "tag" :: rest := by
        rintro ⟨rest, hop, hargs⟩
        cases args with
        | nil => cases hargs
        | cons arg args =>
          rw [Expr.renameAllFree, List.cons.injEq] at hargs
          exact htest ⟨args, hop, congrArg (· :: args) (var_of_renameFree (Ne.symm hy) hargs.1)⟩
      have hargs : x = tagTestName ∨ x = Attribute.tags.name →
          Expr.anyReachesTagTest x args = false := fun hx => by
        have hreach := h hx
        rwa [Expr.reachesTagTest.eq_5 _ _ _ fun rest hop hargs => htest ⟨rest, hop, hargs⟩]
          at hreach
      rw [Expr.renameFree, expandTagTests_call htest, expandTagTests_call htest',
        expandAll_renameAllFree hy args hargs]
      cases expandAll args <;> rfl
  | .method op receiver args, h => by
    simp only [SparesTagTests, Expr.reachesTagTest, Bool.or_eq_false_iff, imp_and] at h
    rw [Expr.renameFree, expandTagTests, expandTagTests,
      expandTagTests_renameFree hy receiver h.1, expandAll_renameAllFree hy args h.2]
    cases expandTagTests receiver with
    | error fault => rfl
    | ok receiver' => cases expandAll args <;> rfl
  | .quantified q binder range body, h => by
    simp only [SparesTagTests, Expr.reachesTagTest, Bool.or_eq_false_iff, imp_and] at h
    rw [Expr.renameFree, expandTagTests, expandTagTests, expandTagTests_renameFree hy range h.1]
    cases expandTagTests range with
    | error fault => rfl
    | ok range' =>
      by_cases hbinder : binder = x
      · rw [if_pos hbinder]
        cases hbody : expandTagTests body with
        | error fault => simp [Except.map]
        | ok body' => simp [Except.map, Expr.renameFree, hbinder]
      · rw [if_neg hbinder, expandTagTests_renameFree hy body fun hx => by
          simpa [hbinder] using h.2 hx]
        cases hbody : expandTagTests body with
        | error fault => simp [Except.map]
        | ok body' => simp [Except.map, Expr.renameFree, hbinder]

theorem expandAll_renameAllFree (hy : y ≠ tagTestName) : ∀ es : List Expr,
    (x = tagTestName ∨ x = Attribute.tags.name → Expr.anyReachesTagTest x es = false) →
    expandAll (Expr.renameAllFree x y es) = (expandAll es).map (Expr.renameAllFree x y)
  | [], _ => rfl
  | e :: es, h => by
    simp only [Expr.anyReachesTagTest, Bool.or_eq_false_iff, imp_and] at h
    rw [Expr.renameAllFree, expandAll, expandAll, expandTagTests_renameFree hy e h.1,
      expandAll_renameAllFree hy es h.2]
    cases expandTagTests e with
    | error fault => rfl
    | ok e' => cases expandAll es <;> rfl

end

end Rename

/-! ### A comprehension renamed

The comprehension may stand anywhere in the filter, in another one too. -/

mutual

/-- One expression is the other with the variable `x` of one comprehension with that body called
`y`. -/
inductive RenamesAt (x y : String) (body : Expr) : Expr → Expr → Prop
  | here (q : Quantifier) (range : Expr) :
    RenamesAt x y body (.quantified q x range body) (.quantified q y range (body.renameFree x y))
  | list {es es'} (h : RenamesAmong x y body es es') : RenamesAt x y body (.list es) (.list es')
  | call {es es'} (op : Op) (h : RenamesAmong x y body es es') :
    RenamesAt x y body (.call op es) (.call op es')
  | receiver {e e'} (op : Op) (args : List Expr) (h : RenamesAt x y body e e') :
    RenamesAt x y body (.method op e args) (.method op e' args)
  | args {es es'} (op : Op) (receiver : Expr) (h : RenamesAmong x y body es es') :
    RenamesAt x y body (.method op receiver es) (.method op receiver es')
  | range {e e'} (q : Quantifier) (binder : String) (inner : Expr) (h : RenamesAt x y body e e') :
    RenamesAt x y body (.quantified q binder e inner) (.quantified q binder e' inner)
  | body {e e'} (q : Quantifier) (binder : String) (range : Expr) (h : RenamesAt x y body e e') :
    RenamesAt x y body (.quantified q binder range e) (.quantified q binder range e')

/-- The same of one of the expressions. -/
inductive RenamesAmong (x y : String) (body : Expr) : List Expr → List Expr → Prop
  | head {e e'} (es : List Expr) (h : RenamesAt x y body e e') :
    RenamesAmong x y body (e :: es) (e' :: es)
  | tail {es es'} (e : Expr) (h : RenamesAmong x y body es es') :
    RenamesAmong x y body (e :: es) (e :: es')

end

/-- May the variable of the comprehension be called `y`? That name is not declared and has no part
in tag tests, and no tag test hangs on the old name. -/
structure MayRename (x y : String) (body : Expr) : Prop where
  undeclared : Attribute.ofName? y = none
  notTagTest : y ≠ tagTestName
  notTagBinder : y ≠ tagBinder
  spares : SparesTagTests x body

/-- Do two outcomes fail alike, or give what the relation holds of? -/
def SameOutcome {α : Type} (R : α → α → Prop) : Except Fault α → Except Fault α → Prop
  | .error fault, .error fault' => fault = fault'
  | .ok a, .ok a' => R a a'
  | _, _ => False

section Outcome

variable {α β : Type} {R : α → α → Prop} {S : β → β → Prop}

theorem SameOutcome.bind {a b : Except Fault α} {f g : α → Except Fault β} (h : SameOutcome R a b)
    (hfg : ∀ x y, R x y → SameOutcome S (f x) (g y)) : SameOutcome S (a.bind f) (b.bind g) := by
  cases a with
  | error fault =>
    cases b with
    | error fault' => exact h
    | ok y => exact h.elim
  | ok x =>
    cases b with
    | error fault' => exact h.elim
    | ok y => exact hfg x y h

theorem SameOutcome.map {a b : Except Fault α} {f g : α → β} (h : SameOutcome R a b)
    (hfg : ∀ x y, R x y → S (f x) (g y)) : SameOutcome S (a.map f) (b.map g) :=
  h.bind (f := fun x => .ok (f x)) (g := fun x => .ok (g x)) hfg

theorem sameOutcome_self (hR : ∀ x, R x x) (a : Except Fault α) : SameOutcome R a a := by
  cases a with
  | error fault => rfl
  | ok x => exact hR x

end Outcome

section Place

variable {x y : String} {body : Expr}

/-- A list that holds a comprehension is no list of text literals, whatever its variable is
called. -/
theorem textLiterals_of_renamesAmong : ∀ {items items' : List Expr},
    RenamesAmong x y body items items' → textLiterals items = textLiterals items'
  | _, _, .head _ h => by cases h <;> rfl
  | _, _, .tail item h => by
    have hrest := textLiterals_of_renamesAmong h
    cases item with
    | const v =>
      cases v with
      | string s => rw [textLiterals, textLiterals, hrest]
      | _ => rfl
    | _ => rfl

theorem expandTagTest_of_renamesAmong {args args' : List Expr}
    (h : RenamesAmong x y body args args') : expandTagTest args = expandTagTest args' := by
  cases h with
  | head args h =>
    cases h with
    | list h => exact congrArg (Except.map tagTest) (textLiterals_of_renamesAmong h)
    | _ => rfl
  | tail arg h => cases arg <;> rfl

theorem Alike.of_refl {R : String → String → Prop} (hR : ∀ n, R n n) (e : Expr) : Alike R e e :=
  alike_self e fun n _ => hR n

theorem AllAlike.of_refl {R : String → String → Prop} (hR : ∀ n, R n n) (es : List Expr) :
    AllAlike R es es :=
  allAlike_self es fun n _ => hR n

/-- Names of the filter and those of written out tests are not the new one. -/
theorem MayRename.not_mentions (hmay : MayRename x y body) {e e' : Expr}
    (he : expandTagTests e = .ok e') (hy : e.mentions y = false) : e'.mentions y = false := by
  rw [Bool.eq_false_iff]
  intro hmentions
  rcases (expands_of_expandTagTests he).mentions hmentions with hmentions | rfl | rfl
  · rw [hy] at hmentions
    cases hmentions
  · have hundeclared := hmay.undeclared
    rw [show Attribute.ofName? "tags" = some .tags from by decide] at hundeclared
    cases hundeclared
  · exact hmay.notTagBinder rfl

/-- The comprehension itself, with its tag tests written out. -/
theorem expand_of_here (hmay : MayRename x y body) (hy : body.mentions y = false)
    {R : String → String → Prop} (hR : ∀ n, R n n) (q : Quantifier) (range : Expr) :
    SameOutcome (Alike R) (expandTagTests (.quantified q x range body))
      (expandTagTests (.quantified q y range (body.renameFree x y))) := by
  rw [expandTagTests, expandTagTests, expandTagTests_renameFree hmay.notTagTest body hmay.spares]
  cases expandTagTests range with
  | error fault => rfl
  | ok range' =>
    cases hbody : expandTagTests body with
    | error fault => rfl
    | ok body' =>
      refine .quantified q (.of_refl hR range') ?_
      exact alike_renameFree body' (hmay.not_mentions hbody hy) (.inl ⟨rfl, rfl⟩)
        fun n hn hn' => .of_ne hn hn' (hR n)

mutual

/-- **Written out, the two filters are alike**, or they fail alike. By induction on where the
comprehension stands; the names around it stand for themselves. -/
theorem expand_of_renamesAt (hmay : MayRename x y body) : ∀ {e e' : Expr},
    RenamesAt x y body e e' → e.mentions y = false →
    ∀ {R : String → String → Prop}, (∀ n, R n n) →
      SameOutcome (Alike R) (expandTagTests e) (expandTagTests e')
  | _, _, .here q range, hy, R, hR => by
    rw [Expr.mentions, Bool.or_eq_false_iff] at hy
    exact expand_of_here hmay hy.2 hR q range
  | _, _, .list h, hy, R, hR => by
    rw [expandTagTests, expandTagTests]
    exact (expandAll_of_renamesAmong hmay h hy hR).map fun _ _ => .list
  | _, _, @RenamesAt.call _ _ _ es es' op h, hy, R, hR => by
    by_cases htest : ∃ rest, op = .isIn ∧ es = .var "tag" :: rest
    · obtain ⟨rest, rfl, rfl⟩ := htest
      cases h with
      | head _ h => cases h
      | tail _ h =>
        rw [expandTagTests, expandTagTests, expandTagTest_of_renamesAmong h]
        exact sameOutcome_self (.of_refl hR) _
    · have htest' : ¬ ∃ rest, op = .isIn ∧ es' = .var "tag" :: rest := by
        rintro ⟨rest, hop, rfl⟩
        cases h with
        | head _ h => cases h
        | tail _ h => exact htest ⟨_, hop, rfl⟩
      rw [expandTagTests_call htest, expandTagTests_call htest']
      exact (expandAll_of_renamesAmong hmay h hy hR).map fun _ _ => .call op
  | _, _, .receiver op args h, hy, R, hR => by
    rw [Expr.mentions, Bool.or_eq_false_iff] at hy
    have hargs := sameOutcome_self (AllAlike.of_refl hR) (expandAll args)
    rw [expandTagTests_method, expandTagTests_method]
    exact (expand_of_renamesAt hmay h hy.1 hR).bind
      fun _ _ hr => hargs.map fun _ _ => .method op hr
  | _, _, .args op receiver h, hy, R, hR => by
    rw [Expr.mentions, Bool.or_eq_false_iff] at hy
    rw [expandTagTests_method, expandTagTests_method]
    exact (sameOutcome_self (Alike.of_refl hR) _).bind fun _ _ hr =>
      (expandAll_of_renamesAmong hmay h hy.2 hR).map fun _ _ => .method op hr
  | _, _, .range q binder inner h, hy, R, hR => by
    rw [Expr.mentions, Bool.or_eq_false_iff, Bool.or_eq_false_iff] at hy
    have hinner := sameOutcome_self (Alike.of_refl (R := Under R binder binder)
      fun n => .refl fun _ => hR n) (expandTagTests inner)
    rw [expandTagTests_quantified, expandTagTests_quantified]
    exact (expand_of_renamesAt hmay h hy.1.2 hR).bind
      fun _ _ hr => hinner.map fun _ _ => .quantified q hr
  | _, _, .body q binder range h, hy, R, hR => by
    rw [Expr.mentions, Bool.or_eq_false_iff] at hy
    rw [expandTagTests_quantified, expandTagTests_quantified]
    exact (sameOutcome_self (Alike.of_refl hR) _).bind fun _ _ hr =>
      (expand_of_renamesAt hmay h hy.2 fun n => Under.refl fun _ => hR n).map
        fun _ _ => .quantified q hr

theorem expandAll_of_renamesAmong (hmay : MayRename x y body) : ∀ {es es' : List Expr},
    RenamesAmong x y body es es' → Expr.anyMentions y es = false →
    ∀ {R : String → String → Prop}, (∀ n, R n n) →
      SameOutcome (AllAlike R) (expandAll es) (expandAll es')
  | _, _, .head es h, hy, R, hR => by
    rw [Expr.anyMentions, Bool.or_eq_false_iff] at hy
    have hrest := sameOutcome_self (AllAlike.of_refl hR) (expandAll es)
    rw [expandAll_cons, expandAll_cons]
    exact (expand_of_renamesAt hmay h hy.1 hR).bind fun _ _ he => hrest.map fun _ _ => .cons he
  | _, _, .tail e h, hy, R, hR => by
    rw [Expr.anyMentions, Bool.or_eq_false_iff] at hy
    rw [expandAll_cons, expandAll_cons]
    exact (sameOutcome_self (Alike.of_refl hR) _).bind fun _ _ he =>
      (expandAll_of_renamesAmong hmay h hy.2 hR).map fun _ _ => .cons he

end

end Place

/-! ### Filters renamed -/

/-- The filter that an expression is ready for use as. -/
def checked (e : Expr) : Except Fault Expr :=
  match expandTagTests e with
  | .error fault => .error fault
  | .ok e' =>
    match checkFilter e' with
    | .error fault => .error (.illTyped fault)
    | .ok () => .ok e'

/-- What a text is compiled to, is what was read, made ready. -/
theorem compile_eq {source : String} {e : Expr} (hblank : trim source ≠ "")
    (h : parse source = .ok e) :
    compile source = (checked e).map (.checked source) := by
  rw [compile, if_neg hblank, expression, h, checked]
  dsimp only
  cases expandTagTests e with
  | error fault => rfl
  | ok e' =>
    dsimp only
    cases checkFilter e' <;> rfl

/-- **The names of bound variables do not matter.** Where the variable of a comprehension of a
filter is given a new name, the filter is refused for the same reason as before, or has the same
value, or the same error, for every memo at every time. The new name is mentioned nowhere, and a
variable that is called `tag` or `tags` has no tag test in its reach. -/
theorem checked_rename {x y : String} {body e e' : Expr} (h : RenamesAt x y body e e')
    (hmay : MayRename x y body) (hy : e.mentions y = false) :
    (∃ fault, checked e = .error fault ∧ checked e' = .error fault)
      ∨ ∃ w w', checked e = .ok w ∧ checked e' = .ok w'
        ∧ ∀ (m : Memo) (now : Int), eval ⟨m, now, []⟩ w = eval ⟨m, now, []⟩ w' := by
  have hexpand := expand_of_renamesAt hmay h hy (R := Eq) fun _ => rfl
  rw [checked, checked]
  cases he : expandTagTests e with
  | error fault =>
    cases he' : expandTagTests e' with
    | error fault' =>
      rw [he, he'] at hexpand
      exact .inl ⟨fault, rfl, congrArg Except.error hexpand.symm⟩
    | ok w' =>
      rw [he, he'] at hexpand
      exact hexpand.elim
  | ok w =>
    cases he' : expandTagTests e' with
    | error fault' =>
      rw [he, he'] at hexpand
      exact hexpand.elim
    | ok w' =>
      rw [he, he'] at hexpand
      have halike : Alike Eq w w' := hexpand
      dsimp only
      rw [← halike.checkFilter_eq]
      cases checkFilter w with
      | error fault => exact .inl ⟨_, rfl, rfl⟩
      | ok _ =>
        refine .inr ⟨w, w', rfl, rfl, fun m now => halike.eval_eq ⟨rfl, ?_⟩⟩
        rintro n - rfl
        rfl

/-- A comprehension inside another one, whose variable it shadows, with a tag test in its body. -/
theorem checked_rename_shadowing :
    let body (x : String) : Expr := .call .or
      [.call .eq [.var x, .const (.string "home")], .call .isIn [.var "tag", .list
        [.const (.string "work")]]]
    let filter (x : String) : Expr := .quantified .every "t" (.var "tags")
      (.call .and [.call .ne [.var "t", .const (.string "")],
        .quantified .any x (.var "tags") (body x)])
    ∃ w w', checked (filter "t") = .ok w ∧ checked (filter "u") = .ok w'
      ∧ eval ⟨plannedMemo, 0, []⟩ w = eval ⟨plannedMemo, 0, []⟩ w'
      ∧ eval ⟨plannedMemo, 0, []⟩ w' = .ok (.bool true) := by
  intro body filter
  have hplace : RenamesAt "t" "u" (body "t") (filter "t") (filter "u") :=
    .body _ _ _ (.call _ (.tail _ (.head _ (.here _ _))))
  have hmay : MayRename "t" "u" (body "t") :=
    ⟨by decide, by decide, by decide, fun h => absurd h (by decide)⟩
  have hmeets : (checked (filter "u")).toOption.map (eval ⟨plannedMemo, 0, []⟩)
      = some (.ok (.bool true)) := rfl
  rcases checked_rename hplace hmay rfl with ⟨fault, -, hfault⟩ | ⟨w, w', hw, hw', heval⟩
  · rw [hfault] at hmeets
    cases hmeets
  · rw [hw'] at hmeets
    exact ⟨w, w', hw, hw', heval plannedMemo 0, Option.some.inj hmeets⟩

/-- Has a filter been read that asks for the tag `work`, by a variable that is called `tag`? -/
def asksForWork : Except SyntaxError Expr → Bool
  | .ok (.quantified .any "tag" (.var "tags")
      (.call .isIn [.var "tag", .list [.const (.string "work")]])) => true
  | _ => false

/-- **A variable that is called `tag` is not like others.** Without the condition on tag tests there
is a filter that changes what it says: a test on such a variable goes by what descends from the
text, and under another name only by the text itself. -/
theorem rename_tag_changes : ¬ ∀ (source x y : String) (body e e' : Expr),
    parse source = .ok e → RenamesAt x y body e e' → e.mentions y = false →
    Attribute.ofName? y = none → y ≠ tagTestName → y ≠ tagBinder →
    (∃ fault, checked e = .error fault ∧ checked e' = .error fault)
      ∨ ∃ w w', checked e = .ok w ∧ checked e' = .ok w'
        ∧ ∀ (m : Memo) (now : Int), eval ⟨m, now, []⟩ w = eval ⟨m, now, []⟩ w' := by
  intro hall
  have hread : asksForWork (parse "tags.exists(tag, tag in [\"work\"])") = true := by
    decide +kernel
  rw [asksForWork.eq_def] at hread
  split at hread
  · rename_i hparse
    rcases hall _ _ "t" _ _ _ hparse (.here _ _) (by decide) (by decide) (by decide) (by decide)
      with ⟨fault, hfault, -⟩ | ⟨w, w', hw, hw', heval⟩
    · cases hfault
    · have hvalue : eval ⟨plannedMemo, 0, []⟩ w = .ok (.bool true) := by
        cases hw
        rfl
      have hvalue' : eval ⟨plannedMemo, 0, []⟩ w' = .ok (.bool false) := by
        cases hw'
        rfl
      rw [heval, hvalue'] at hvalue
      cases hvalue
  · cases hread

end SharedMemos.Filter
