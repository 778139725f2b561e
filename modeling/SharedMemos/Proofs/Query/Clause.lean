import SharedMemos.Proofs.Filter.Prefilter
import SharedMemos.Proofs.Memo.Tag
import SharedMemos.Query.Memo
import Mathlib.Data.List.TakeWhile

/-!
# What the clauses of a query mean

A clause has its values apart from its text, and what a hole is bound to follows from the order of
the holes alone. `holds_append` says that a condition looks at no more values than it has holes;
from it, a conjunction of clauses holds exactly if each clause holds on its own values.

## Texts with a null character

A store measures and cuts texts only up to a null character. A test whether a tag starts with a
text therefore never succeeds for a text that holds one (`IsBlind`), and the clause of a prefilter
is the clause of what a query can see of it (`Prefilter.seen`). That is the one point in which the
clause is narrower than the prefilter.

## Main results

* `Clause.holds_all` — conjunction of clauses
* `visibleTo_holds` — the clause of the visibility rule is the rule
* `admittedBy_holds` — the clause of a prefilter
* `MemoQuery.clause_holds` — the clause of a query
-/

namespace SharedMemos.Query

open SharedMemos.Filter SharedMemos.Text

/-! ### Holes and values -/

theorem TagTest.accepts_append {tag : String} {t : TagTest} {ps rest : List Param}
    (h : t.holes ≤ ps.length) : t.accepts tag (ps ++ rest) = t.accepts tag ps := by
  cases t with
  | equals =>
    cases ps with
    | nil => simp [TagTest.holes] at h
    | cons p ps => rfl
  | startsWith =>
    match ps, h with
    | p :: q :: ps, _ => cases p <;> rfl

theorem TagTest.anyAccepts_append {tag : String} : ∀ {ts : List TagTest} {ps rest : List Param},
    holesOf ts ≤ ps.length → anyAccepts tag ts (ps ++ rest) = anyAccepts tag ts ps
  | [], _, _, _ => rfl
  | t :: ts, ps, rest, h => by
    rw [holesOf] at h
    rw [anyAccepts, anyAccepts, accepts_append (by omega), List.drop_append_of_le_length (by omega),
      anyAccepts_append (by rw [List.length_drop]; omega)]

namespace Condition

mutual

/-- **A condition looks at no more values than it has holes.** -/
theorem holds_append {m : Memo} : ∀ {c : Condition} {ps rest : List Param},
    c.holes ≤ ps.length → c.holds m (ps ++ rest) = c.holds m ps
  | .always, _, _, _ => by rw [holds, holds]
  | .never, _, _, _ => by rw [holds, holds]
  | .equals c, ps, rest, h => by
    cases ps with
    | nil => simp [holes] at h
    | cons p ps => simp [holds]
  | .above c, ps, rest, h => by
    cases ps with
    | nil => simp [holes] at h
    | cons p ps => simp [holds]
  | .atMost c, ps, rest, h => by
    cases ps with
    | nil => simp [holes] at h
    | cons p ps => simp [holds]
  | .among c n, ps, rest, h => by
    rw [holes] at h
    rw [holds, holds, List.take_append_of_le_length h]
  | .anyTag tests, ps, rest, h => by
    rw [holes] at h
    simp only [holds, TagTest.anyAccepts_append h]
  | .not p, ps, rest, h => by
    rw [holes] at h
    rw [holds, holds, holds_append h]
  | .all cs, ps, rest, h => by
    rw [holes] at h
    rw [holds, holds, holdsAll_append h]
  | .any cs, ps, rest, h => by
    rw [holes] at h
    rw [holds, holds, holdsAny_append h]

theorem holdsAll_append {m : Memo} : ∀ {cs : List Condition} {ps rest : List Param},
    holesAll cs ≤ ps.length → holdsAll m cs (ps ++ rest) = holdsAll m cs ps
  | [], _, _, _ => by rw [holdsAll, holdsAll]
  | c :: cs, ps, rest, h => by
    rw [holesAll] at h
    rw [holdsAll, holdsAll, holds_append (by omega), List.drop_append_of_le_length (by omega),
      holdsAll_append (by rw [List.length_drop]; omega)]

theorem holdsAny_append {m : Memo} : ∀ {cs : List Condition} {ps rest : List Param},
    holesAll cs ≤ ps.length → holdsAny m cs (ps ++ rest) = holdsAny m cs ps
  | [], _, _, _ => by rw [holdsAny, holdsAny]
  | c :: cs, ps, rest, h => by
    rw [holesAll] at h
    rw [holdsAny, holdsAny, holds_append (by omega), List.drop_append_of_le_length (by omega),
      holdsAny_append (by rw [List.length_drop]; omega)]

end

end Condition

namespace Clause

/-- Is there one value for each hole? -/
def IsFilled (c : Clause) : Prop := c.params.length = c.condition.holes

theorem holdsAll_of_filled {m : Memo} : ∀ {cs : List Clause}, (∀ c ∈ cs, c.IsFilled) →
    Condition.holdsAll m (cs.map (·.condition)) (cs.flatMap (·.params)) = cs.all (·.holds m)
  | [], _ => by rw [List.map_nil, Condition.holdsAll, List.all_nil]
  | c :: cs, h => by
    have hc : c.IsFilled := h c (by simp)
    rw [List.map_cons, List.flatMap_cons, Condition.holdsAll, List.all_cons,
      Condition.holds_append (Nat.le_of_eq hc.symm), ← hc, List.drop_left,
      holdsAll_of_filled fun d hd => h d (by simp [hd])]
    rfl

/-- A conjunction of clauses holds exactly if each holds on its own values. -/
theorem holds_all {m : Memo} {cs : List Clause} (h : ∀ c ∈ cs, c.IsFilled) :
    (Clause.all cs).holds m = cs.all (·.holds m) := by
  rw [← holdsAll_of_filled h, holds, Clause.all, Condition.holds]

theorem holesAll_of_filled : ∀ {cs : List Clause}, (∀ c ∈ cs, c.IsFilled) →
    (cs.flatMap (·.params)).length = Condition.holesAll (cs.map (·.condition))
  | [], _ => by rw [List.map_nil, Condition.holesAll]; rfl
  | c :: cs, h => by
    have hc : c.IsFilled := h c (by simp)
    rw [List.map_cons, List.flatMap_cons, Condition.holesAll, List.length_append, hc,
      holesAll_of_filled fun d hd => h d (by simp [hd])]

theorem isFilled_all {cs : List Clause} (h : ∀ c ∈ cs, c.IsFilled) : (Clause.all cs).IsFilled := by
  rw [IsFilled, Clause.all, Condition.holes]
  exact holesAll_of_filled h

end Clause

/-! ### The visibility rule -/

theorem visibleTo_isFilled (viewer : Viewer) : (visibleTo viewer).IsFilled := by
  cases viewer <;> rfl

/-- **The clause of the visibility rule is the rule**, for viewers whose number is one of a user. -/
theorem visibleTo_holds {viewer : Viewer} {m : Memo}
    (hviewer : ∀ user, viewer = some user → 0 < user ∧ user ≤ maxInt64) :
    (visibleTo viewer).holds m = m.isVisibleTo viewer := by
  cases viewer with
  | none =>
    have hname : ((some (Cell.text Visibility.everyone.name) : Option Cell)
        == some (.text m.visibility.name)) = (m.visibility == .everyone) := by
      cases m.visibility <;> decide
    rw [Clause.holds, visibleTo, Condition.holds, Memo.isVisibleTo, ← hname]
    rfl
  | some user =>
    obtain ⟨hpos, hmax⟩ := hviewer user rfl
    have htag : (m.tags.any fun tag => (Cell.text (Tag.grant user) == .text tag))
        = m.isCollaborator user := by
      rw [Memo.isCollaborator_eq_contains hpos hmax, Bool.eq_iff_iff]
      simp
    have hwide : (Cell.text Visibility.everyone.name == .text m.visibility.name
          || Cell.text Visibility.members.name == .text m.visibility.name)
        = (m.visibility == .everyone || m.visibility == .members) := by
      cases m.visibility <;> decide
    have hcreator : ((some (Cell.int user) : Option Cell) == some (.int m.creator))
        = (m.creator == user) := by
      rw [Bool.eq_iff_iff]
      simp only [beq_iff_eq, Option.some.injEq, Cell.int.injEq]
      exact eq_comm
    simp only [Clause.holds, visibleTo, Condition.holds, Condition.holdsAny, Condition.holes,
      List.head?_cons, Option.map_some, Param.cell, Column.cell, hcreator, List.take_succ_cons,
      List.take_zero, List.drop_succ_cons, List.drop_zero, List.any_cons, List.any_nil,
      TagTest.anyAccepts, TagTest.accepts, Bool.or_false, htag, hwide, Memo.isVisibleTo]
    simp only [Bool.or_assoc]

/-! ### What a query sees of a prefilter -/

end SharedMemos.Query

namespace SharedMemos.Filter

/-- A test that no tag passes in a store: the start of a tag is cut off before a null character, and
so it never equals a text that holds one. -/
def TagOption.isBlind (o : TagOption) : Bool :=
  o.kind == .prefixed && o.value.toList.contains '\x00'

/-- The options of a group that a store can find a tag by. -/
def TagGroup.seen (g : TagGroup) : TagGroup :=
  ⟨g.options.filter (!·.isBlind)⟩

/-- The prefilter as a store sees it. -/
def Prefilter.seen (p : Prefilter) : Prefilter :=
  { p with tagGroups := p.tagGroups.map .seen, excludedGroups := p.excludedGroups.map .seen }

theorem TagGroup.accepts_of_seen {g : TagGroup} {tags : List String} (h : g.seen.accepts tags) :
    g.accepts tags := by
  simp only [accepts, seen, List.any_eq_true, List.mem_filter] at h ⊢
  obtain ⟨tag, htag, o, ho, haccepts⟩ := h
  exact ⟨tag, htag, o, ho.1, haccepts⟩

/-- What is left out of a group cannot exclude anything. -/
theorem TagGroup.seen_rejects {g : TagGroup} {tags : List String} (h : g.accepts tags = false) :
    g.seen.accepts tags = false := by
  rw [Bool.eq_false_iff] at h ⊢
  exact fun hseen => h (accepts_of_seen hseen)

end SharedMemos.Filter

namespace SharedMemos.Query

open SharedMemos.Filter SharedMemos.Text

theorem beforeNull_of_not_mem {s : String} (h : '\x00' ∉ s.toList) :
    TagTest.beforeNull s = s.toList := by
  rw [TagTest.beforeNull, List.takeWhile_eq_self_iff]
  intro c hc
  simp only [bne_iff_ne, ne_eq]
  rintro rfl
  exact h hc

/-- Comparing the start of a tag as a store does finds a text exactly if the tag starts with it and
it holds no null character. -/
theorem eq_take_beforeNull_iff {s tag : String} :
    s.toList = (TagTest.beforeNull tag).take (TagTest.beforeNull s).length
      ↔ '\x00' ∉ s.toList ∧ s.toList <+: tag.toList := by
  constructor
  · intro h
    have hnull : '\x00' ∉ s.toList := by
      intro hmem
      rw [h] at hmem
      simpa using List.mem_takeWhile_imp (List.mem_of_mem_take hmem)
    rw [beforeNull_of_not_mem hnull] at h
    refine ⟨hnull, ?_⟩
    rw [h]
    exact (List.take_prefix _ _).trans (List.takeWhile_prefix _)
  · rintro ⟨hnull, rest, hrest⟩
    have hseen : TagTest.beforeNull tag = s.toList ++ rest.takeWhile (· != '\x00') := by
      rw [TagTest.beforeNull, ← hrest, List.takeWhile_append_of_pos]
      intro c hc
      simp only [bne_iff_ne, ne_eq]
      rintro rfl
      exact hnull hc
    rw [beforeNull_of_not_mem hnull, hseen, List.take_left]

theorem optionTest_accepts {o : TagOption} {tag : String} {rest : List Param} :
    (optionTest o).accepts tag (optionParams o ++ rest) = (!o.isBlind && o.accepts tag) := by
  obtain ⟨kind, value⟩ := o
  cases kind with
  | exact =>
    rw [Bool.eq_iff_iff]
    simp only [optionTest, optionParams, List.singleton_append, TagTest.accepts, Param.cell,
      beq_iff_eq, Cell.text.injEq, TagOption.isBlind, TagOption.accepts, Bool.and_eq_true,
      Bool.not_eq_true', Bool.and_eq_false_imp, reduceCtorEq, false_imp_iff, true_and]
    exact eq_comm
  | prefixed =>
    rw [Bool.eq_iff_iff]
    simp only [optionTest, optionParams, List.cons_append, TagTest.accepts, Param.cell, beq_iff_eq,
      Cell.text.injEq, TagOption.isBlind, TagOption.accepts, Bool.and_eq_true, Bool.not_eq_true',
      Bool.and_eq_false_imp, forall_const, List.isPrefixOf_iff_prefix]
    rw [← String.toList_inj, String.toList_ofList, eq_take_beforeNull_iff, ← Bool.not_eq_true,
      List.contains_iff_mem]

theorem length_optionParams (o : TagOption) : (optionParams o).length = (optionTest o).holes := by
  rw [optionParams, optionTest]
  cases o.kind <;> rfl

theorem length_flatMap_optionParams : ∀ options : List TagOption,
    (options.flatMap optionParams).length = TagTest.holesOf (options.map optionTest)
  | [] => rfl
  | o :: options => by
    rw [List.flatMap_cons, List.length_append, length_optionParams,
      length_flatMap_optionParams options, List.map_cons, TagTest.holesOf]

theorem anyAccepts_options {tag : String} : ∀ options : List TagOption,
    TagTest.anyAccepts tag (options.map optionTest) (options.flatMap optionParams)
      = options.any fun o => !o.isBlind && o.accepts tag
  | [] => rfl
  | o :: options => by
    rw [List.map_cons, List.flatMap_cons, TagTest.anyAccepts, optionTest_accepts,
      ← length_optionParams, List.drop_left, anyAccepts_options options, List.any_cons]

theorem groupClause_holds {g : TagGroup} {m : Memo} :
    (groupClause g).holds m = g.seen.accepts m.tags := by
  simp only [Clause.holds, groupClause, Condition.holds, anyAccepts_options, TagGroup.accepts,
    TagGroup.seen, List.any_filter]

theorem groupClause_isFilled (g : TagGroup) : (groupClause g).IsFilled := by
  rw [Clause.IsFilled, groupClause, Condition.holes]
  exact length_flatMap_optionParams g.options

theorem excludedClause_holds {g : TagGroup} {m : Memo} :
    (excludedClause g).holds m = !g.seen.accepts m.tags := by
  rw [← groupClause_holds, Clause.holds, Clause.holds, excludedClause, Condition.holds]

theorem excludedClause_isFilled (g : TagGroup) : (excludedClause g).IsFilled := by
  rw [Clause.IsFilled, excludedClause, Condition.holes]
  exact groupClause_isFilled g

/-! ### The clause of a prefilter -/

theorem amongClause_all {α : Type} [BEq α] [LawfulBEq α] {m : Memo} {c : Column} {f : α → Param}
    {wanted : List α} {x : α} (hcell : ∀ a, (f a).cell = c.cell m ↔ a = x) :
    (amongClause c (wanted.map f)).all (·.holds m) = Prefilter.amongWanted wanted x := by
  cases wanted with
  | nil => rfl
  | cons a wanted =>
    have htake : ((a :: wanted).map f).take ((a :: wanted).map f).length = (a :: wanted).map f :=
      List.take_length
    rw [Bool.eq_iff_iff, Prefilter.amongWanted_iff]
    simp only [amongClause, List.map_cons, List.isEmpty_cons, Bool.false_eq_true, if_false,
      List.all_cons, List.all_nil, Bool.and_true, Clause.holds, Condition.holds]
    rw [← List.map_cons, htake, List.any_eq_true]
    simp only [List.mem_map, beq_iff_eq, reduceCtorEq, false_or]
    constructor
    · rintro ⟨-, ⟨b, hb, rfl⟩, hx⟩
      exact (hcell b).mp hx ▸ hb
    · intro hx
      exact ⟨_, ⟨x, hx, rfl⟩, (hcell x).mpr rfl⟩

theorem flagClause_all {m : Memo} {c : Column} {wanted : Option Bool} {b : Bool}
    (hcell : c.cell m = .ofBool b) :
    (flagClause c wanted).all (·.holds m) = Prefilter.hasWanted wanted b := by
  cases wanted with
  | none => rfl
  | some a =>
    simp only [flagClause, Option.toList_some, List.map_cons, List.map_nil, List.all_cons,
      List.all_nil, Bool.and_true, Clause.holds, Condition.holds, List.head?_cons, Option.map_some,
      Param.cell, hcell, Prefilter.hasWanted, Option.all_some]
    cases a <;> cases b <;> decide

/-- What a clause of a constraint looks like. -/
theorem mem_constraintClauses {p : Prefilter} {d : Clause} (hd : d ∈ constraintClauses p) :
    (∃ c values, values ≠ [] ∧ d = ⟨.among c values.length, values⟩)
      ∨ (∃ c b, d = ⟨.equals c, [.bool b]⟩) ∨ (∃ g, d = groupClause g)
      ∨ ∃ g, d = excludedClause g := by
  have hamong : ∀ {c values}, d ∈ amongClause c values →
      ∃ c values, values ≠ [] ∧ d = ⟨.among c values.length, values⟩ := by
    intro c values hd
    rw [amongClause] at hd
    split at hd
    · cases hd
    · rename_i hvalues
      exact ⟨c, values, by simpa using hvalues, List.mem_singleton.mp hd⟩
  have hflag : ∀ {c wanted}, d ∈ flagClause c wanted → ∃ c b, d = ⟨.equals c, [.bool b]⟩ := by
    intro c wanted hd
    obtain ⟨b, -, rfl⟩ := List.mem_map.mp hd
    exact ⟨c, b, rfl⟩
  simp only [constraintClauses, List.mem_append, or_assoc] at hd
  rcases hd with h | h | h | h | h | h | h | h | h | h
  · exact .inl (hamong h)
  · exact .inl (hamong h)
  · exact .inl (hamong h)
  · exact .inr (.inl (hflag h))
  · exact .inr (.inl (hflag h))
  · exact .inr (.inl (hflag h))
  · exact .inr (.inl (hflag h))
  · exact .inr (.inl (hflag h))
  · obtain ⟨g, -, rfl⟩ := List.mem_map.mp h
    exact .inr (.inr (.inl ⟨g, rfl⟩))
  · obtain ⟨g, -, rfl⟩ := List.mem_map.mp h
    exact .inr (.inr (.inr ⟨g, rfl⟩))

theorem constraintClauses_isFilled (p : Prefilter) : ∀ d ∈ constraintClauses p, d.IsFilled := by
  intro d hd
  rcases mem_constraintClauses hd with ⟨c, values, -, rfl⟩ | ⟨c, b, rfl⟩ | ⟨g, rfl⟩ | ⟨g, rfl⟩
  · rw [Clause.IsFilled, Condition.holes]
  · rw [Clause.IsFilled, Condition.holes]
    rfl
  · exact groupClause_isFilled g
  · exact excludedClause_isFilled g

/-- The clauses of the constraints hold of a memo exactly if what a store sees of the prefilter
admits it. -/
theorem constraintClauses_holds {p : Prefilter} {m : Memo} (hsat : p.unsatisfiable = false) :
    (Clause.all (constraintClauses p)).holds m = p.seen.admits m := by
  have hvisibility : ∀ v : Visibility,
      (Param.string v.name).cell = Column.visibility.cell m ↔ v = m.visibility := by
    intro v
    cases v <;> cases hm : m.visibility <;> simp [Param.cell, Column.cell, hm, Visibility.name]
  have hstate : ∀ s : MemoState,
      (Param.string s.name).cell = Column.state.cell m ↔ s = m.state := by
    intro s
    cases s <;> cases hm : m.state <;> simp [Param.cell, Column.cell, hm, MemoState.name]
  have hcreator : ∀ n : Int, (Param.int n).cell = Column.creator.cell m ↔ n = m.creator := by
    intro n
    simp [Param.cell, Column.cell]
  have hgroups : (p.tagGroups.map groupClause).all (·.holds m)
      = p.seen.tagGroups.all (·.accepts m.tags) := by
    simp [Prefilter.seen, List.all_map, Function.comp_def, groupClause_holds]
  have hexcluded : (p.excludedGroups.map excludedClause).all (·.holds m)
      = !p.seen.excludedGroups.any (·.accepts m.tags) := by
    simp [Prefilter.seen, List.any_map, Function.comp_def, excludedClause_holds,
      List.all_eq_not_any_not]
  rw [Clause.holds_all (constraintClauses_isFilled p)]
  simp only [constraintClauses, List.all_append, amongClause_all hcreator,
    amongClause_all hvisibility, amongClause_all hstate, hgroups, hexcluded,
    flagClause_all (m := m) (c := .pinned) rfl, flagClause_all (m := m) (c := .hasLink) rfl,
    flagClause_all (m := m) (c := .hasTaskList) rfl, flagClause_all (m := m) (c := .hasCode) rfl,
    flagClause_all (m := m) (c := .hasIncompleteTasks) rfl, Prefilter.admits, Prefilter.seen, hsat,
    Bool.not_false, Bool.true_and]

/-- Does the prefilter bind more values than a query may? -/
def isOversized (p : Prefilter) : Bool :=
  decide (maxBound < (Clause.all (constraintClauses p)).params.length)

/-- **The clause of a prefilter.** -/
theorem admittedBy_holds {p : Prefilter} {m : Memo} :
    (admittedBy p).holds m = (!p.unsatisfiable && (isOversized p || p.seen.admits m)) := by
  rw [admittedBy, isOversized]
  cases hsat : p.unsatisfiable with
  | true => rfl
  | false =>
    simp only [Bool.false_eq_true, if_false, Bool.not_false, Bool.true_and]
    split
    · rename_i hbound
      rw [decide_eq_true hbound]
      rfl
    · rename_i hbound
      rw [decide_eq_false hbound, Bool.false_or]
      exact constraintClauses_holds hsat

theorem admittedBy_isFilled (p : Prefilter) : (admittedBy p).IsFilled := by
  rw [admittedBy]
  split
  · rfl
  · dsimp only
    split
    · rfl
    · exact Clause.isFilled_all (constraintClauses_isFilled p)

/-! ### The clause of a query -/

/-- Was a memo updated in a window? -/
def inWindow (m : Memo) : Option (Instant × Instant) → Bool
  | none => true
  | some (after, upTo) => decide (after < m.updated) && decide (m.updated ≤ upTo)

theorem windowClauses_all (m : Memo) (window : Option (Instant × Instant)) :
    (MemoQuery.windowClauses window).all (·.holds m) = inWindow m window := by
  rcases window with - | ⟨after, upTo⟩
  · rfl
  · simp [MemoQuery.windowClauses, inWindow, Clause.holds, Condition.holds, Condition.compareInt,
      Column.cell]
    rfl

theorem windowClauses_isFilled (window : Option (Instant × Instant)) :
    ∀ c ∈ MemoQuery.windowClauses window, c.IsFilled := by
  rcases window with - | ⟨after, upTo⟩
  · exact fun c hc => absurd hc List.not_mem_nil
  · intro c hc
    rcases List.mem_cons.mp hc with rfl | hc
    · rfl
    · rcases List.mem_singleton.mp hc with rfl
      rfl

theorem stateClause_holds (m : Memo) (s : MemoState) :
    Clause.holds ⟨.equals .state, [.string s.name]⟩ m = (m.state == s) := by
  cases hm : m.state <;> cases s <;>
    simp [Clause.holds, Condition.holds, Param.cell, Column.cell, MemoState.name, hm]

/-- **The clause of a query** holds of the memos that are visible, in the state, updated in the
window and admitted by the store. -/
theorem MemoQuery.clause_holds {q : MemoQuery} {m : Memo}
    (hviewer : ∀ user, q.viewer = some user → 0 < user ∧ user ≤ maxInt64) :
    q.clause.holds m
      = (m.isVisibleTo q.viewer && m.state == q.state && inWindow m q.window
        && (admittedBy q.prefilter).holds m) := by
  have hfilled : ∀ c ∈ [visibleTo q.viewer, ⟨.equals .state, [.string q.state.name]⟩]
      ++ windowClauses q.window ++ [admittedBy q.prefilter], c.IsFilled := by
    simp only [List.mem_append, List.mem_cons, List.not_mem_nil, or_false]
    rintro c (((rfl | rfl) | hc) | rfl)
    · exact visibleTo_isFilled q.viewer
    · rfl
    · exact windowClauses_isFilled q.window c hc
    · exact admittedBy_isFilled q.prefilter
  rw [clause, Clause.holds_all hfilled, List.all_append, List.all_append, windowClauses_all]
  simp only [List.all_cons, List.all_nil, Bool.and_true, visibleTo_holds hviewer, stateClause_holds]

end SharedMemos.Query
