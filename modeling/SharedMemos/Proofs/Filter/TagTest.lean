import SharedMemos.Proofs.Filter.Prefilter

/-!
# Tag tests follow the hierarchy of tags

One rule, that a tag is another one or descends from it, is written down four times: as a test of
two texts (`Tag.isUnder`), as the body of the comprehension that a tag test is short for
(`underTag`), as the options that a prefilter reads off this body, and as the options that it
excludes for the negation. All four agree, so that the prefilters of a tag test and of its negation
are exact. Of other filters they need not be.

What makes them agree is a fact about texts: a tag descends from another one if it starts with that
one and a slash. Nothing is asked of the texts, which may be empty or end in a slash themselves.

## Main results

* `Tag.isUnder_eq` — the hierarchy of tags in terms of prefixes
* `tagOptions?_orUnderTags` — the options that are read off a tag test
* `Prefilter.admits_ofTagOptions_eq` — a constraint on tags admits no more than it has to
* `tagTest_isUnder` — a tag test, its prefilter and that of its negation
-/

namespace SharedMemos

/-! ### The hierarchy of tags -/

theorem Tag.isUnder_eq (tag ancestor : String) :
    isUnder tag ancestor
      = (tag == ancestor || (ancestor ++ "/").toList.isPrefixOf tag.toList) := by
  have hslash : (ancestor ++ "/").toList = ancestor.toList ++ ['/'] := String.toList_append
  rw [isUnder, after?, hslash]
  by_cases hprefix : ancestor.toList <+: tag.toList
  · obtain ⟨rest, hrest⟩ := hprefix
    have hsame : tag = ancestor ↔ rest = [] := by
      rw [← String.toList_inj, ← hrest, List.append_right_eq_self]
    rw [if_pos (List.isPrefixOf_iff_prefix.mpr ⟨rest, hrest⟩), ← hrest, List.drop_left,
      Bool.eq_iff_iff, Bool.or_eq_true, beq_iff_eq, hsame, List.isPrefixOf_iff_prefix,
      List.prefix_append_right_inj]
    cases rest with
    | nil => simp
    | cons c cs => simp [eq_comm (a := c)]
  · have hlonger : ¬ ancestor.toList ++ ['/'] <+: tag.toList := fun h =>
      hprefix ((List.prefix_append _ _).trans h)
    have hother : tag ≠ ancestor := by
      rintro rfl
      exact hprefix List.prefix_rfl
    rw [if_neg (mt List.isPrefixOf_iff_prefix.mp hprefix), eq_comm, Bool.or_eq_false_iff]
    exact ⟨beq_eq_false_iff_ne.mpr hother,
      Bool.eq_false_iff.mpr (mt List.isPrefixOf_iff_prefix.mp hlonger)⟩

/-- Has the memo a tag that is one of the given tags or descends from one? -/
def Memo.hasTagUnder (m : Memo) (tags : List String) : Bool :=
  m.tags.any fun tag => tags.any (Tag.isUnder tag)

theorem Memo.hasTagUnder_eq_decide (m : Memo) (tags : List String) :
    m.hasTagUnder tags
      = decide (∃ tag ∈ m.tags, ∃ ancestor ∈ tags, Tag.isUnder tag ancestor = true) := by
  rw [Bool.eq_iff_iff, decide_eq_true_iff, hasTagUnder]
  simp only [List.any_eq_true]

namespace Filter

/-! ### What is read off a tag test -/

/-- The options that stand for a tag and its descendants. -/
def optionsUnder (tag : String) : List TagOption :=
  [⟨.exact, tag⟩, ⟨.prefixed, tag ++ "/"⟩]

theorem any_optionsUnder (tag ancestor : String) :
    (optionsUnder ancestor).any (·.accepts tag) = Tag.isUnder tag ancestor := by
  rw [Tag.isUnder_eq]
  simp [optionsUnder, TagOption.accepts]

namespace Prefilter

theorem tagOptions?_underTag (tag : String) :
    tagOptions? tagBinder (underTag tag) = some (optionsUnder tag) := by
  simp [underTag, tagOptions?, exactOption?, isVar, optionsUnder]

/-- Every further tag adds its options behind those that are there. -/
theorem tagOptions?_orUnderTags (tags : List String) : ∀ {test : Expr} {options : List TagOption},
    tagOptions? tagBinder test = some options →
    tagOptions? tagBinder (orUnderTags test tags)
      = some (options ++ tags.flatMap optionsUnder) := by
  induction tags with
  | nil =>
    intro test options h
    rw [orUnderTags, h, List.flatMap_nil, List.append_nil]
  | cons tag tags ih =>
    intro test options h
    have hmore : tagOptions? tagBinder (.call .or [test, underTag tag])
        = some (options ++ optionsUnder tag) := by
      rw [tagOptions?, h, tagOptions?_underTag]
    rw [orUnderTags, ih hmore, List.flatMap_cons, List.append_assoc]

/-- A constraint on tags admits no more than it has to. -/
theorem admits_ofTagOptions_eq (m : Memo) (options : List TagOption) (negated : Bool) :
    (ofTagOptions options negated).admits m
      = ((m.tags.any fun tag => options.any (·.accepts tag)) != negated) := by
  rw [ofTagOptions.eq_def]
  split
  · simp [nothing, admits]
  · simp
  · simp [admits, amongWanted, hasWanted, accepts_sortedSet]
  · simp [admits, amongWanted, hasWanted, accepts_sortedSet]

/-- The constraint derived from a comprehension over the tags of the memo, where its body reads as
options. -/
theorem derive_tags {binder : String} {body : Expr} {options : List TagOption}
    (h : tagOptions? binder body = some options) (negated : Bool) :
    derive negated (.quantified .any binder (.var Attribute.tags.name) body)
      = ofTagOptions options negated := by
  rw [derive, if_pos rfl, h, Option.elim_some]

end Prefilter

/-! ### What a tag test says -/

theorem textLiterals_map_const (tags : List String) :
    textLiterals (tags.map fun tag => .const (.string tag)) = .ok tags := by
  induction tags with
  | nil => rfl
  | cons tag tags ih =>
    rw [List.map_cons, textLiterals, ih]
    rfl

/-- A comprehension over the tags of the memo has a truth value, where its body reads as options. -/
theorem eval_tags {binder : String} {body : Expr} {options : List TagOption}
    (h : Prefilter.tagOptions? binder body = some options) (m : Memo) (now : Int) :
    eval ⟨m, now, []⟩ (.quantified .any binder (.var Attribute.tags.name) body)
      = .ok (.bool (m.tags.any fun tag => options.any (·.accepts tag))) := by
  have htags : eval ⟨m, now, []⟩ (.var Attribute.tags.name)
      = .ok (.list (m.tags.map .string)) := rfl
  rw [eval, htags]
  simp only [List.map_map, Function.comp_def, Prefilter.eval_of_tagOptions? h,
    Quantifier.join_any_of_ok]

theorem any_flatMap_optionsUnder (m : Memo) (tags : List String) :
    (m.tags.any fun tag => (tags.flatMap optionsUnder).any (·.accepts tag))
      = m.hasTagUnder tags := by
  simp only [List.any_flatMap, any_optionsUnder, Memo.hasTagUnder]

theorem eval_tagTest (tags : List String) (m : Memo) (now : Int) :
    eval ⟨m, now, []⟩ (tagTest tags) = .ok (.bool (m.hasTagUnder tags)) := by
  rw [← any_flatMap_optionsUnder]
  cases tags with
  | nil => simp [tagTest, eval]
  | cons tag tags =>
    exact eval_tags (Prefilter.tagOptions?_orUnderTags tags (Prefilter.tagOptions?_underTag tag))
      m now

theorem derive_tagTest (tags : List String) (negated : Bool) :
    Prefilter.derive negated (tagTest tags)
      = Prefilter.ofTagOptions (tags.flatMap optionsUnder) negated := by
  cases tags with
  | nil => cases negated <;> rfl
  | cons tag tags =>
    exact Prefilter.derive_tags
      (Prefilter.tagOptions?_orUnderTags tags (Prefilter.tagOptions?_underTag tag)) negated

/-- **The prefilters of a tag test are exact**, in both polarities. -/
theorem admits_derive_tagTest (tags : List String) (m : Memo) (negated : Bool) :
    (Prefilter.derive negated (tagTest tags)).admits m = (m.hasTagUnder tags != negated) := by
  rw [derive_tagTest, Prefilter.admits_ofTagOptions_eq, any_flatMap_optionsUnder]

/-- **A tag test asks for a tag in the hierarchy**, whatever texts it lists. It is written out, has
a truth value for every memo, and the prefilters of the test and of its negation admit the memos
that these are true of and no others. -/
theorem tagTest_isUnder (tags : List String) (m : Memo) (now : Int) :
    ∃ test,
      expandTagTests (.call .isIn
        [.var tagTestName, .list (tags.map fun tag => .const (.string tag))]) = .ok test
      ∧ eval ⟨m, now, []⟩ test = .ok (.bool (decide
          (∃ tag ∈ m.tags, ∃ ancestor ∈ tags, Tag.isUnder tag ancestor = true)))
      ∧ (Prefilter.derive false test).admits m = satisfies m now test
      ∧ (Prefilter.derive false (.call .not [test])).admits m
          = satisfies m now (.call .not [test]) := by
  have hvalue := eval_tagTest tags m now
  have hnegation : eval ⟨m, now, []⟩ (.call .not [tagTest tags])
      = .ok (.bool !m.hasTagUnder tags) := by
    rw [eval, evalAll, evalAll, hvalue]
    rfl
  refine ⟨tagTest tags, ?_, ?_, ?_, ?_⟩
  · rw [tagTestName, expandTagTests, expandTagTest, textLiterals_map_const]
    rfl
  · rw [hvalue, Memo.hasTagUnder_eq_decide]
  · rw [admits_derive_tagTest, satisfies, hvalue]
    cases m.hasTagUnder tags <;> rfl
  · rw [Prefilter.derive, Bool.not_false, admits_derive_tagTest, satisfies, hnegation]
    cases m.hasTagUnder tags <;> rfl

/-- A tag that only starts with the text of another one does not descend from it. -/
example : eval ⟨{ plannedMemo with tags := ["bookshelf", "work/plan"] }, 0, []⟩
    (tagTest ["book", "work/"]) = .ok (.bool false) := by
  decide +kernel

end Filter

end SharedMemos
