import SharedMemos.Filter.Compiled
import SharedMemos.Proofs.Filter.Evaluation

/-!
# Prefilters admit what filters accept

The prefilter derived from an expression may let through more memos than the expression is true of,
never fewer. The two polarities of the derivation are proved together, because a negation exchanges
them and a negated junction turns into the other one.

## Why no typing is needed

The derivation reads names and literals off the expression without looking at types. Where an
expression is ill-typed it has no value, and then nothing has to be admitted; so the statement is
about values alone, and `admits_derive` holds of every tree.

## Main results

* `admits_and`, `admits_or` — the two ways in which prefilters are joined
* `eval_of_tagOptions?` — a body that reads as tag options is worth exactly those options
* `admits_derive` — soundness of the derivation, for both polarities
* `admits_of_satisfies`, with the consequence for compiled filters
-/

namespace SharedMemos

theorem Visibility.ofName?_eq_some_iff {s : String} {v : Visibility} :
    Visibility.ofName? s = some v ↔ v.name = s := by
  constructor
  · intro h
    simpa using List.find?_some h
  · rintro rfl
    cases v <;> rfl

theorem MemoState.ofName?_eq_some_iff {s : String} {v : MemoState} :
    MemoState.ofName? s = some v ↔ v.name = s := by
  constructor
  · intro h
    simpa using List.find?_some h
  · rintro rfl
    cases v <;> rfl

theorem Visibility.mem_all (v : Visibility) : v ∈ Visibility.all := by
  cases v <;> decide

theorem MemoState.mem_all (s : MemoState) : s ∈ MemoState.all := by
  cases s <;> decide

namespace Filter

theorem mem_sortedSet {α : Type} [BEq α] [LawfulBEq α] {order : α → α → Ordering} {items : List α}
    {x : α} : x ∈ sortedSet order items ↔ x ∈ items := by
  rw [sortedSet, List.mem_eraseDups, List.mem_mergeSort]

namespace Prefilter

variable {m : Memo} {p q : Prefilter}

/-! ### Wanted items and flags

An empty list and a missing flag want nothing. That is why `union` gives up as soon as one side is
empty, while `intersect` takes the other side over. -/

section Wanted

variable {α : Type} [BEq α] [LawfulBEq α] {a b : List α} {x : α}

theorem amongWanted_iff : amongWanted a x = true ↔ a = [] ∨ x ∈ a := by
  simp [amongWanted]

/-- An item that both sides want keeps the intersection from being a contradiction. -/
theorem exists_intersect (ha : amongWanted a x) (hb : amongWanted b x) :
    ∃ c, intersect a b = some c ∧ amongWanted c x := by
  rw [intersect]
  rcases amongWanted_iff.mp ha with rfl | hxa
  · exact ⟨b, rfl, hb⟩
  rcases amongWanted_iff.mp hb with rfl | hxb
  · exact ⟨a, by cases a <;> rfl, ha⟩
  have hcommon : x ∈ a.filter b.contains := by simp [hxa, hxb]
  have ha' : a.isEmpty = false := by simpa using List.ne_nil_of_mem hxa
  have hb' : b.isEmpty = false := by simpa using List.ne_nil_of_mem hxb
  have hc' : (a.filter b.contains).isEmpty = false := by simpa using List.ne_nil_of_mem hcommon
  exact ⟨a.filter b.contains, by simp only [ha', hb', hc', Bool.false_eq_true, if_false],
    amongWanted_iff.mpr (.inr hcommon)⟩

theorem amongWanted_union {order : α → α → Ordering} (h : amongWanted a x ∨ amongWanted b x) :
    amongWanted (union order a b) x := by
  rw [union]
  split
  · rfl
  · rename_i hempty
    simp only [Bool.or_eq_true, List.isEmpty_iff, not_or] at hempty
    refine amongWanted_iff.mpr (.inr (mem_sortedSet.mpr (List.mem_append.mpr ?_)))
    rcases h with h | h
    · exact .inl ((amongWanted_iff.mp h).resolve_left hempty.1)
    · exact .inr ((amongWanted_iff.mp h).resolve_left hempty.2)

end Wanted

section Flags

variable {a b : Option Bool} {x : Bool}

theorem hasWanted_unify (ha : hasWanted a x) (hb : hasWanted b x) : hasWanted (unify a b) x := by
  cases a <;> cases b <;> simp_all [hasWanted, unify]

theorem hasWanted_widen (h : hasWanted a x ∨ hasWanted b x) : hasWanted (widen a b) x := by
  cases a with
  | none => simp [widen, hasWanted]
  | some y =>
    cases b with
    | none => simp [widen, hasWanted]
    | some z =>
      by_cases hyz : y = z
      · subst hyz
        simpa [widen, hasWanted] using h
      · simp [widen, hyz, hasWanted]

end Flags

/-! ### Joining prefilters -/

/-- The constraints of a prefilter on a memo, one by one. -/
structure Allows (p : Prefilter) (m : Memo) : Prop where
  satisfiable : p.unsatisfiable = false
  creator : amongWanted p.creators m.creator
  visibility : amongWanted p.visibilities m.visibility
  state : amongWanted p.states m.state
  pinned : hasWanted p.pinned m.pinned
  hasLink : hasWanted p.hasLink m.property.hasLink
  hasTaskList : hasWanted p.hasTaskList m.property.hasTaskList
  hasCode : hasWanted p.hasCode m.property.hasCode
  hasIncompleteTasks : hasWanted p.hasIncompleteTasks m.property.hasIncompleteTasks
  tags : ∀ g ∈ p.tagGroups, g.accepts m.tags
  excluded : ∀ g ∈ p.excludedGroups, g.accepts m.tags = false

theorem admits_iff : p.admits m = true ↔ p.Allows m := by
  constructor
  · intro h
    simp only [admits, Bool.and_eq_true, Bool.not_eq_true', List.all_eq_true,
      List.any_eq_false] at h
    obtain ⟨⟨⟨⟨⟨⟨⟨⟨⟨⟨h₁, h₂⟩, h₃⟩, h₄⟩, h₅⟩, h₆⟩, h₇⟩, h₈⟩, h₉⟩, h₁₀⟩, h₁₁⟩ := h
    exact ⟨h₁, h₂, h₃, h₄, h₅, h₆, h₇, h₈, h₉, h₁₀, fun g hg => by simpa using h₁₁ g hg⟩
  · intro h
    simp only [admits, Bool.and_eq_true, Bool.not_eq_true', List.all_eq_true, List.any_eq_false]
    exact ⟨⟨⟨⟨⟨⟨⟨⟨⟨⟨h.satisfiable, h.creator⟩, h.visibility⟩, h.state⟩, h.pinned⟩, h.hasLink⟩,
      h.hasTaskList⟩, h.hasCode⟩, h.hasIncompleteTasks⟩, h.tags⟩,
      fun g hg => by simp [h.excluded g hg]⟩

@[simp] theorem admits_unconstrained : unconstrained.admits m = true := rfl

/-- A memo that both sides admit is admitted by their conjunction; in particular no contradiction is
found between them. -/
theorem admits_and (hp : p.admits m) (hq : q.admits m) : (p.and q).admits m := by
  rw [admits_iff] at hp hq ⊢
  obtain ⟨creators, hc, hcreators⟩ := exists_intersect hp.creator hq.creator
  obtain ⟨visibilities, hv, hvisibilities⟩ := exists_intersect hp.visibility hq.visibility
  obtain ⟨states, hs, hstates⟩ := exists_intersect hp.state hq.state
  simp only [Prefilter.and, hp.satisfiable, hq.satisfiable, Bool.or_self, Bool.false_eq_true,
    if_false, hc, hv, hs]
  exact
    { satisfiable := rfl
      creator := hcreators
      visibility := hvisibilities
      state := hstates
      pinned := hasWanted_unify hp.pinned hq.pinned
      hasLink := hasWanted_unify hp.hasLink hq.hasLink
      hasTaskList := hasWanted_unify hp.hasTaskList hq.hasTaskList
      hasCode := hasWanted_unify hp.hasCode hq.hasCode
      hasIncompleteTasks := hasWanted_unify hp.hasIncompleteTasks hq.hasIncompleteTasks
      tags := fun g hg =>
        (List.mem_append.mp (mem_sortedSet.mp hg)).elim (hp.tags g) (hq.tags g)
      excluded := fun g hg =>
        (List.mem_append.mp (mem_sortedSet.mp hg)).elim (hp.excluded g) (hq.excluded g) }

/-- A memo that either side admits is admitted by their disjunction. -/
theorem admits_or (h : p.admits m ∨ q.admits m) : (p.or q).admits m := by
  have hunsat : ∀ {r : Prefilter}, r.unsatisfiable = true → r.admits m = false := by
    intro r hr
    simp [admits, hr]
  rw [Prefilter.or]
  split
  · rename_i hp
    simpa [hunsat hp] using h
  split
  · rename_i hq
    simpa [hunsat hq] using h
  simp only [admits_iff] at h ⊢
  exact
    { satisfiable := rfl
      creator := amongWanted_union (h.imp Allows.creator Allows.creator)
      visibility := amongWanted_union (h.imp Allows.visibility Allows.visibility)
      state := amongWanted_union (h.imp Allows.state Allows.state)
      pinned := hasWanted_widen (h.imp Allows.pinned Allows.pinned)
      hasLink := hasWanted_widen (h.imp Allows.hasLink Allows.hasLink)
      hasTaskList := hasWanted_widen (h.imp Allows.hasTaskList Allows.hasTaskList)
      hasCode := hasWanted_widen (h.imp Allows.hasCode Allows.hasCode)
      hasIncompleteTasks :=
        hasWanted_widen (h.imp Allows.hasIncompleteTasks Allows.hasIncompleteTasks)
      tags := fun g hg => by
        simp only [List.mem_filter, List.contains_iff_mem] at hg
        exact h.elim (fun h => h.tags g hg.1) fun h => h.tags g hg.2
      excluded := fun g hg => by
        simp only [List.mem_filter, List.contains_iff_mem] at hg
        exact h.elim (fun h => h.excluded g hg.1) fun h => h.excluded g hg.2 }

/-! ### Leaves

Each leaf is compared with the value of the expression it was read from. A comparison has the truth
value `!negated`, so that both polarities are one statement. -/

theorem admits_flag {name : String} {a : Attribute} {b : Bool}
    (ha : Attribute.ofName? name = some a) (hb : a.value m = .bool b) : (flag name b).admits m := by
  rw [flag]
  rw [ha]
  refine admits_iff.mpr ?_
  cases a <;> cases hb <;> constructor <;> simp [amongWanted, hasWanted]

/-- A member of a closed set that is among the values, or is not, is allowed; so what is allowed is
not empty, and may be left out where it is everything. -/
theorem admits_ofAllowed {α : Type} [BEq α] {all values : List α} {x : α} {negated : Bool}
    {make : List α → Prefilter}
    (hall : x ∈ all) (hx : values.contains x = !negated)
    (hmake : ∀ xs, x ∈ xs → (make xs).admits m) :
    (ofAllowed all make (allowed all values negated)).admits m := by
  have hmem : x ∈ allowed all values negated := by
    rw [allowed, List.mem_filter, hx]
    exact ⟨hall, by cases negated <;> rfl⟩
  rw [ofAllowed]
  split
  · rename_i hempty
    rw [List.isEmpty_iff.mp hempty] at hmem
    cases hmem
  split
  · exact hmake _ hmem
  · exact admits_unconstrained

theorem admits_ofVisibilities {values : List Visibility} {negated : Bool}
    (h : values.contains m.visibility = !negated) : (ofVisibilities values negated).admits m := by
  refine admits_ofAllowed (Visibility.mem_all _) h fun xs hx => admits_iff.mpr ?_
  constructor <;> simp [amongWanted, hasWanted, hx]

theorem admits_ofStates {values : List MemoState} {negated : Bool}
    (h : values.contains m.state = !negated) : (ofStates values negated).admits m := by
  refine admits_ofAllowed (MemoState.mem_all _) h fun xs hx => admits_iff.mpr ?_
  constructor <;> simp [amongWanted, hasWanted, hx]

theorem admits_creators {ids : List UserId} (h : m.creator ∈ ids) :
    ({ creators := ids } : Prefilter).admits m := by
  refine admits_iff.mpr ?_
  constructor <;> simp [amongWanted, hasWanted, h]

/-- Does some tag pass some option? -/
theorem accepts_sortedSet {options : List TagOption} {tags : List String} :
    TagGroup.accepts ⟨sortedSet TagOption.order options⟩ tags
      = tags.any fun tag => options.any (·.accepts tag) := by
  rw [Bool.eq_iff_iff]
  simp only [TagGroup.accepts, List.any_eq_true, mem_sortedSet]

theorem admits_ofTagOptions {options : List TagOption} {negated : Bool}
    (h : (m.tags.any fun tag => options.any (·.accepts tag)) = !negated) :
    (ofTagOptions options negated).admits m := by
  simp only [ofTagOptions]
  split
  · simp at h
  · exact admits_unconstrained
  · refine admits_iff.mpr ?_
    constructor <;> simp [amongWanted, hasWanted, accepts_sortedSet, h]
  · refine admits_iff.mpr ?_
    constructor <;> simp [amongWanted, hasWanted, accepts_sortedSet, h]

/-! ### Comparisons with literals -/

theorem string_beq_string (s t : String) : (Value.string s == .string t) = (s == t) := by
  rw [Bool.eq_iff_iff, beq_iff_eq, beq_iff_eq, Value.string.injEq]

theorem contains_toList_visibility {s : String} {v : Visibility} :
    (Visibility.ofName? s).toList.contains v = (v.name == s) := by
  rw [Bool.eq_iff_iff, List.contains_iff_mem, Option.mem_toList, Visibility.ofName?_eq_some_iff,
    beq_iff_eq]

theorem contains_toList_state {s : String} {v : MemoState} :
    (MemoState.ofName? s).toList.contains v = (v.name == s) := by
  rw [Bool.eq_iff_iff, List.contains_iff_mem, Option.mem_toList, MemoState.ofName?_eq_some_iff,
    beq_iff_eq]

/-- An attribute that equals a literal, or differs from it, passes the constraint that says so. -/
theorem admits_ofComparison {name : String} {a : Attribute} {v : Value} {negated : Bool}
    (ha : Attribute.ofName? name = some a) (hv : (a.value m == v) = !negated) :
    (ofComparison name v negated).admits m := by
  have hflag : ∀ b, v = .bool b → (flag name (b != negated)).admits m := by
    rintro b rfl
    by_cases hbool : ∃ c, a.value m = .bool c
    · obtain ⟨c, hc⟩ := hbool
      have hcb : c = (b != negated) := by
        have hcmp : ((Value.bool c) == .bool b) = !negated := hc ▸ hv
        revert hcmp
        cases c <;> cases b <;> cases negated <;> decide
      exact admits_flag ha (hcb ▸ hc)
    · -- a constraint on something that is no flag is none
      rw [flag]
      rw [ha]
      cases a <;> simp_all [Attribute.value]
  simp only [ofComparison]
  split
  · rename_i n ha'
    cases ha.symm.trans ha'
    split
    · exact admits_unconstrained
    · simp_all [Attribute.value, admits_creators]
  · rename_i s ha'
    cases ha.symm.trans ha'
    refine admits_ofVisibilities ?_
    rw [contains_toList_visibility, ← string_beq_string]
    exact hv
  · rename_i s ha'
    cases ha.symm.trans ha'
    refine admits_ofStates ?_
    rw [contains_toList_state, ← string_beq_string]
    exact hv
  · exact hflag _ rfl
  · exact admits_unconstrained

/-! ### Membership -/

theorem mem_ints {values : List Value} {n : Int} : n ∈ ints values ↔ .int n ∈ values := by
  rw [ints, List.mem_filterMap]
  constructor
  · rintro ⟨v, hv, hn⟩
    cases v <;> simp_all
  · intro h
    exact ⟨_, h, rfl⟩

theorem mem_strings {values : List Value} {s : String} :
    s ∈ strings values ↔ .string s ∈ values := by
  rw [strings, List.mem_filterMap]
  constructor
  · rintro ⟨v, hv, hs⟩
    cases v <;> simp_all
  · intro h
    exact ⟨_, h, rfl⟩

/-- A closed set is found among the texts of the literals by its written names. -/
theorem contains_visibilities {values : List Value} {v : Visibility} :
    ((strings values).filterMap Visibility.ofName?).contains v
      = values.contains (.string v.name) := by
  rw [Bool.eq_iff_iff, List.contains_iff_mem, List.contains_iff_mem, List.mem_filterMap]
  simp only [mem_strings, Visibility.ofName?_eq_some_iff]
  exact ⟨fun ⟨s, hs, hv⟩ => hv ▸ hs, fun h => ⟨_, h, rfl⟩⟩

theorem contains_states {values : List Value} {v : MemoState} :
    ((strings values).filterMap MemoState.ofName?).contains v
      = values.contains (.string v.name) := by
  rw [Bool.eq_iff_iff, List.contains_iff_mem, List.contains_iff_mem, List.mem_filterMap]
  simp only [mem_strings, MemoState.ofName?_eq_some_iff]
  exact ⟨fun ⟨s, hs, hv⟩ => hv ▸ hs, fun h => ⟨_, h, rfl⟩⟩

/-- An attribute that is among literals, or is not, passes the constraint that says so. -/
theorem admits_ofMembers {name : String} {a : Attribute} {values : List Value} {negated : Bool}
    (ha : Attribute.ofName? name = some a) (hv : values.contains (a.value m) = !negated) :
    (ofMembers name values negated).admits m := by
  rw [ofMembers]
  rw [ha]
  cases a with
  | creator =>
    cases negated with
    | true => exact admits_unconstrained
    | false =>
      have hmem : m.creator ∈ ints values := by
        simpa [mem_ints, Attribute.value] using hv
      have hids : (ints values) ≠ [] := List.ne_nil_of_mem hmem
      simp only [Bool.false_eq_true, if_false]
      exact admits_creators (mem_sortedSet.mpr hmem)
  | visibility => exact admits_ofVisibilities (contains_visibilities.trans hv)
  | state => exact admits_ofStates (contains_states.trans hv)
  | _ => exact admits_unconstrained

theorem values_of_literals? {env : Env} : ∀ {items : List Expr} {vs : List Value},
    literals? items = some vs → values (evalAll env items) = .ok vs
  | [], vs, h => by
    cases h
    rfl
  | e :: items, vs, h => by
    cases e with
    | const v =>
      obtain ⟨rest, hrest, rfl⟩ := Option.map_eq_some_iff.mp h
      simp [evalAll, eval, values, values_of_literals? hrest, Except.map]
    | _ => simp [literals?] at h

theorem admits_ofMembership {l r : Expr} {now : Int} {negated : Bool}
    (h : eval ⟨m, now, []⟩ (.call .isIn [l, r]) = .ok (.bool !negated)) :
    (ofMembership l r negated).admits m := by
  obtain ⟨x, items, hx, hitems, hcontains⟩ := eval_isIn h
  simp only [ofMembership]
  split
  · rename_i tag range
    split
    · rename_i hrange
      subst hrange
      -- the range is the memo's own tags
      cases hx
      obtain ⟨a, ha, hvalue⟩ := lookup_of_unbound hitems
      cases (show Attribute.ofName? Attribute.tags.name = some .tags from by decide).symm.trans ha
      cases hvalue
      refine admits_ofTagOptions (hcontains ▸ ?_)
      rw [Bool.eq_iff_iff]
      simp [TagOption.accepts]
    · exact admits_unconstrained
  · rename_i name es
    obtain ⟨a, ha, rfl⟩ := lookup_of_unbound hx
    cases hvs : literals? es with
    | none => exact admits_unconstrained
    | some vs =>
      have heval : values (evalAll ⟨m, now, []⟩ es) = .ok vs := values_of_literals? hvs
      rw [eval, heval] at hitems
      cases hitems
      exact admits_ofMembers ha hcontains
  · exact admits_unconstrained

theorem admits_ofEquality {l r : Expr} {now : Int} {x y : Value} {negated : Bool}
    (hx : eval ⟨m, now, []⟩ l = .ok x) (hy : eval ⟨m, now, []⟩ r = .ok y)
    (h : (x == y) = !negated) : (ofEquality l r negated).admits m := by
  simp only [ofEquality]
  split
  · cases hy
    obtain ⟨a, ha, rfl⟩ := lookup_of_unbound hx
    exact admits_ofComparison ha h
  · cases hx
    obtain ⟨a, ha, rfl⟩ := lookup_of_unbound hy
    exact admits_ofComparison ha (by rw [← h, Bool.beq_comm])
  · exact admits_unconstrained

/-! ### Comprehensions over tags -/

theorem eval_isVar {env : Env} {binder : String} {e : Expr} {v : Value}
    (h : isVar binder e = true) : eval (env.bind binder v) e = .ok v := by
  cases e with
  | var name =>
    cases (beq_iff_eq.mp h : name = binder)
    rw [eval, lookup_bind_self]
  | _ => simp [isVar] at h

theorem eval_of_exactOption? {env : Env} {binder tag : String} {l r : Expr}
    {options : List TagOption} (h : exactOption? binder l r = some options) :
    eval (env.bind binder (.string tag)) (.call .eq [l, r])
      = .ok (.bool (options.any (·.accepts tag))) := by
  simp only [exactOption?] at h
  split at h
  · rename_i s
    split at h
    · rename_i hvar
      cases h
      simp [eval, evalAll, eval_isVar hvar, Op.apply, values, Except.map, Except.bind,
        Op.onValues, string_beq_string, TagOption.accepts]
    · cases h
  · rename_i s _
    split at h
    · rename_i hvar
      cases h
      simp [eval, evalAll, eval_isVar hvar, Op.apply, values, Except.map, Except.bind,
        Op.onValues, string_beq_string, TagOption.accepts, Bool.beq_comm (a := s)]
    · cases h
  · cases h

/-- **A body that reads as options is worth those options.** This is an equality, so it serves both
polarities: nothing in such a body can be without a value. -/
theorem eval_of_tagOptions? {env : Env} {binder tag : String} {body : Expr}
    {options : List TagOption} (h : tagOptions? binder body = some options) :
    eval (env.bind binder (.string tag)) body = .ok (.bool (options.any (·.accepts tag))) := by
  fun_induction tagOptions? binder body generalizing options with
  | case1 =>
    cases h
    rfl
  | case2 l r a b hb ha ihl ihr =>
    cases h
    rw [eval_or, ihl ha, ihr hb, disjunction_ok, List.any_append]
  | case3 => cases h
  | case4 l r => exact eval_of_exactOption? h
  | case5 receiver s hvar =>
    cases h
    simp [eval, evalAll, eval_isVar hvar, Op.apply, values, Except.map, Except.bind,
      Op.onValues, TagOption.accepts]
  | case6 => cases h
  | case7 => cases h

/-! ### The derivation -/

/-- **Soundness of the derivation.** By induction along `derive`, so that each junction brings the
hypotheses of the polarity that it derives its operands with. -/
theorem admits_derive (m : Memo) (now : Int) (negated : Bool) (e : Expr)
    (h : eval ⟨m, now, []⟩ e = .ok (.bool !negated)) : (derive negated e).admits m := by
  fun_induction derive negated e with
  | case1 negated b hb =>
    cases (beq_iff_eq.mp hb : b = negated)
    cases negated <;> cases h
  | case2 => exact admits_unconstrained
  | case3 negated name =>
    obtain ⟨a, ha, hvalue⟩ := lookup_of_unbound h
    exact admits_flag ha hvalue
  | case4 negated x ih => exact ih (eval_not h)
  | case5 l r ihl ihr =>
    rw [eval_and] at h
    exact admits_or ((conjunction_eq_false_iff.mp h).imp ihl ihr)
  | case6 negated l r hneg ihl ihr =>
    cases Bool.not_eq_true _ ▸ hneg
    rw [eval_and] at h
    have hboth := conjunction_eq_true_iff.mp h
    exact admits_and (ihl hboth.1) (ihr hboth.2)
  | case7 l r ihl ihr =>
    rw [eval_or] at h
    have hboth := disjunction_eq_false_iff.mp h
    exact admits_and (ihl hboth.1) (ihr hboth.2)
  | case8 negated l r hneg ihl ihr =>
    cases Bool.not_eq_true _ ▸ hneg
    rw [eval_or] at h
    exact admits_or ((disjunction_eq_true_iff.mp h).imp ihl ihr)
  | case9 negated l r =>
    obtain ⟨x, y, hx, hy, hxy⟩ := eval_eq h
    exact admits_ofEquality hx hy hxy
  | case10 negated l r =>
    obtain ⟨x, y, hx, hy, hxy⟩ := eval_ne h
    refine admits_ofEquality hx hy ?_
    rw [← hxy, bne, Bool.not_not]
  | case11 negated l r => exact admits_ofMembership h
  | case12 negated binder body =>
    cases hoptions : tagOptions? binder body with
    | none => exact admits_unconstrained
    | some options =>
      have htags : eval ⟨m, now, []⟩ (.var Attribute.tags.name)
          = .ok (.list (m.tags.map .string)) := rfl
      rw [eval, htags] at h
      simp only [List.map_map, Function.comp_def, eval_of_tagOptions? hoptions,
        Quantifier.join_any_of_ok, Except.ok.injEq, Value.bool.injEq] at h
      exact admits_ofTagOptions h
  | case13 => exact admits_unconstrained
  | case14 => exact admits_unconstrained

theorem admits_of_satisfies {now : Int} {e : Expr} (h : satisfies m now e) :
    (derive false e).admits m := by
  refine admits_derive m now false e ?_
  rw [← truth?_eq_some_iff]
  exact beq_iff_eq.mp h

end Prefilter

/-! ### Compiled filters -/

theorem Compiled.admits_of_accepts {f : Compiled} {m : Memo} {now : Int} (h : f.accepts m now) :
    f.prefilter.admits m := by
  cases f with
  | everything => exact Prefilter.admits_unconstrained
  | checked source e => exact Prefilter.admits_of_satisfies h

/-- **Prefilters are sound.** Whatever the tree, its prefilter admits the memos that it is true of,
and the prefilter of its negation those that it is false of; hence no memo that a compiled filter
accepts is lost to its prefilter. -/
theorem prefilter_sound (m : Memo) (now : Int) :
    (∀ e : Expr,
      (eval ⟨m, now, []⟩ e = .ok (.bool true) → (Prefilter.derive false e).admits m)
        ∧ (eval ⟨m, now, []⟩ e = .ok (.bool false) → (Prefilter.derive true e).admits m))
      ∧ ∀ (source : String) (f : Compiled), compile source = .ok f → f.accepts m now →
        f.prefilter.admits m := by
  refine ⟨fun e => ⟨?_, ?_⟩, fun source f _ haccepts => Compiled.admits_of_accepts haccepts⟩
  · exact Prefilter.admits_derive m now false e
  · exact Prefilter.admits_derive m now true e

/-- A memo below the tag `work`, not pinned. -/
def plannedMemo : Memo where
  id := 1
  uid := "plan"
  creator := 7
  content := ""
  visibility := .members
  state := .normal
  pinned := false
  created := .epoch
  updated := .epoch
  location := none
  tags := ["work/plan"]
  property := .empty

/-- The left operand of the junction has no value, and yet the junction is false and its negation is
true. -/
theorem prefilter_sound_plannedMemo :
    let undecided : Expr := .call .eq [.call .div [.var "creator_id", .const (.int 0)],
      .const (.int 1)]
    let e : Expr := .call .and [undecided, .var "pinned"]
    let source := "tag in [\"work\"] && !(creator_id == 1)"
    (eval ⟨plannedMemo, 0, []⟩ e = .ok (.bool false) ∧ (Prefilter.derive true e).admits plannedMemo)
      ∧ (eval ⟨plannedMemo, 0, []⟩ (.call .not [e]) = .ok (.bool true)
        ∧ (Prefilter.derive false (.call .not [e])).admits plannedMemo)
      ∧ ∃ f, compile source = .ok f ∧ f.accepts plannedMemo 0 ∧ f.prefilter.admits plannedMemo := by
  intro undecided e source
  have hfalse : eval ⟨plannedMemo, 0, []⟩ e = .ok (.bool false) := rfl
  have htrue : eval ⟨plannedMemo, 0, []⟩ (.call .not [e]) = .ok (.bool true) := rfl
  have haccepts : (compile source).toOption.any (·.accepts plannedMemo 0) = true := by
    decide +kernel
  refine ⟨⟨hfalse, ((prefilter_sound plannedMemo 0).1 e).2 hfalse⟩,
    ⟨htrue, ((prefilter_sound plannedMemo 0).1 _).1 htrue⟩, ?_⟩
  cases hf : compile source with
  | error fault =>
    rw [hf] at haccepts
    cases haccepts
  | ok f =>
    rw [hf] at haccepts
    exact ⟨f, rfl, haccepts, (prefilter_sound plannedMemo 0).2 source f hf haccepts⟩

end Filter

end SharedMemos
