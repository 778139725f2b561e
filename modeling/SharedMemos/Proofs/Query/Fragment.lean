import SharedMemos.Proofs.Query.Clause
import SharedMemos.Proofs.Query.Reading
import Mathlib

/-!
# The fragment of a prefilter

What a query sends to the store for a prefilter is a text with holes and the values for the holes.
Three things can go wrong between the two. There may be a hole too many or too few, the text may
say something else than the clause that it was written from, and the clause may say something else
than the prefilter.

The count goes by the constructors of conditions. The text is read back (`Sql.read?`), and so what
it says is what the clause says, except that nothing at all is written as a conjunction with one
member. What the clause says is known from `admittedBy_holds`.

A prefilter that would bind too many values is not cut down but dropped. Values are counted on the
prefilter (`Prefilter.bindings`), where a test of the start of a tag counts twice.

## Main results

* `holesIn_sql` — the holes of a text are the holes of its condition
* `length_params` — the values are as many as the prefilter binds
* `says?_admittedBy` — the text of a prefilter says what its clause says
* `fragment_says` — and what the prefilter admits
-/

namespace SharedMemos.Filter

/-- How many values a test of a tag binds. -/
def TagOption.bindings (o : TagOption) : Nat :=
  match o.kind with
  | .exact => 1
  | .prefixed => 2

/-- How many values the tests of a group bind. -/
def TagGroup.bindings (g : TagGroup) : Nat :=
  (g.options.map TagOption.bindings).sum

namespace Prefilter

/-- The flags that are wanted. -/
def flags (p : Prefilter) : List Bool :=
  p.pinned.toList ++ p.hasLink.toList ++ p.hasTaskList.toList ++ p.hasCode.toList
    ++ p.hasIncompleteTasks.toList

/-- How many values a prefilter binds. -/
def bindings (p : Prefilter) : Nat :=
  p.creators.length + p.visibilities.length + p.states.length + p.flags.length
    + (p.tagGroups.map TagGroup.bindings).sum + (p.excludedGroups.map TagGroup.bindings).sum

/-- Can a store find tags by all tests of the prefilter? It can by texts without a null
character. -/
def IsSeen (p : Prefilter) : Prop :=
  ∀ g ∈ p.tagGroups ++ p.excludedGroups, ∀ o ∈ g.options, o.isBlind = false

theorem IsSeen.seen_eq {p : Prefilter} (h : p.IsSeen) : p.seen = p := by
  have hgroup : ∀ g ∈ p.tagGroups ++ p.excludedGroups, g.seen = g := by
    intro g hg
    have hoptions : g.options.filter (!·.isBlind) = g.options :=
      List.filter_eq_self.mpr fun o ho => by rw [h g hg o ho]; rfl
    rw [TagGroup.seen, hoptions]
  have hgroups : ∀ gs ⊆ p.tagGroups ++ p.excludedGroups, gs.map TagGroup.seen = gs := by
    intro gs hgs
    rw [List.map_congr_left fun g hg => hgroup g (hgs hg), List.map_id']
  rw [seen, hgroups _ (List.subset_append_left _ _), hgroups _ (List.subset_append_right _ _)]

end Prefilter

end SharedMemos.Filter

namespace SharedMemos.Query

open SharedMemos.Filter

/-! ### Holes -/

/-- How many holes a text has. -/
def holesIn (text : String) : Nat :=
  text.toList.count '?'

theorem holesIn_append (s t : String) : holesIn (s ++ t) = holesIn s + holesIn t := by
  rw [holesIn, String.toList_append, List.count_append]
  rfl

/-- A separator without holes adds none. -/
theorem holesIn_intercalate {sep : String} (hsep : holesIn sep = 0) :
    ∀ texts : List String, holesIn (sep.intercalate texts) = (texts.map holesIn).sum
  | [] => rfl
  | [text] => by simp [holesIn]
  | text :: next :: texts => by
    have hmore := holesIn_intercalate hsep (next :: texts)
    rw [holesIn, String.toList_intercalate] at hmore ⊢
    rw [List.map_cons, List.map_cons, List.intercalate_cons_cons, List.count_append,
      List.count_append, ← List.map_cons, hmore, List.map_cons, List.sum_cons]
    rw [holesIn] at hsep
    rw [hsep]
    rfl

theorem holesIn_tests : ∀ tests : List TagTest,
    ((tests.map TagTest.sql).map holesIn).sum = TagTest.holesOf tests
  | [] => rfl
  | t :: tests => by
    have ht : holesIn t.sql = t.holes := by cases t <;> decide
    rw [List.map_cons, List.map_cons, List.sum_cons, ht, holesIn_tests tests, TagTest.holesOf]

mutual

/-- **The holes of a text are the holes of its condition.** -/
theorem holesIn_sql : ∀ c : Condition, holesIn c.sql = c.holes
  | .always | .never => by
    rw [Condition.holes]
    decide
  | .equals c | .above c | .atMost c => by
    rw [Condition.holes]
    cases c <;> decide
  | .among c n => by
    have hname : holesIn c.name = 0 := by cases c <;> decide
    rw [Condition.sql_among, holesIn_append, holesIn_append, holesIn_append, hname,
      holesIn_intercalate (by decide), List.map_replicate, List.sum_replicate_nat, Condition.holes]
    have hhole : holesIn "?" = 1 := by decide
    have hopen : holesIn " IN (" = 0 := by decide
    have hclose : holesIn ")" = 0 := by decide
    rw [hhole, hopen, hclose]
    omega
  | .anyTag tests => by
    have hopen : holesIn "EXISTS (SELECT 1 FROM json_each(m.tags) jt WHERE " = 0 := by decide
    have hclose : holesIn ")" = 0 := by decide
    rw [Condition.sql_anyTag, holesIn_append, holesIn_append, hopen, hclose, Condition.holes]
    split
    · rename_i hempty
      rw [List.isEmpty_iff.mp hempty]
      decide
    · rw [holesIn_intercalate (by decide), holesIn_tests]
      omega
  | .not p => by
    have hnot : holesIn "NOT " = 0 := by decide
    rw [Condition.sql_not, holesIn_append, hnot, holesIn_sql p, Condition.holes, Nat.zero_add]
  | .all cs => by
    rw [Condition.sql_all, Condition.holes, ← sum_holesIn cs]
    split
    · rename_i hempty
      rw [List.isEmpty_iff.mp hempty]
      decide
    · exact holesIn_intercalate (by decide) _
  | .any cs => by
    have hopen : holesIn "(" = 0 := by decide
    have hclose : holesIn ")" = 0 := by decide
    rw [Condition.sql_any, Condition.holes, ← sum_holesIn cs]
    split
    · rename_i hempty
      rw [List.isEmpty_iff.mp hempty]
      decide
    · rw [holesIn_append, holesIn_append, hopen, hclose, holesIn_intercalate (by decide)]
      omega

theorem sum_holesIn : ∀ cs : List Condition,
    ((cs.map Condition.sql).map holesIn).sum = Condition.holesAll cs
  | [] => by rw [Condition.holesAll]; rfl
  | c :: cs => by
    rw [List.map_cons, List.map_cons, List.sum_cons, holesIn_sql c, sum_holesIn cs,
      Condition.holesAll]

end

/-! ### Values -/

theorem length_optionParams_eq (o : TagOption) : (optionParams o).length = o.bindings := by
  rw [optionParams, TagOption.bindings]
  cases o.kind <;> rfl

theorem length_groupParams (g : TagGroup) : (groupClause g).params.length = g.bindings := by
  rw [groupClause, List.length_flatMap, TagGroup.bindings]
  simp only [length_optionParams_eq]

/-- **The values are as many as the prefilter binds.** -/
theorem length_params (p : Prefilter) :
    (Clause.all (constraintClauses p)).params.length = p.bindings := by
  have hamong : ∀ c values, ((amongClause c values).flatMap (·.params)).length = values.length := by
    intro c values
    rw [amongClause]
    split
    · rename_i hempty
      rw [List.isEmpty_iff.mp hempty]
      rfl
    · simp
  have hflag : ∀ c wanted, ((flagClause c wanted).flatMap (·.params)).length
      = wanted.toList.length := by
    intro c wanted
    cases wanted <;> rfl
  have hgroups : ∀ clause : TagGroup → Clause, (∀ g, (clause g).params.length = g.bindings) →
      ∀ gs : List TagGroup, ((gs.map clause).flatMap (·.params)).length
        = (gs.map TagGroup.bindings).sum := by
    intro clause hclause gs
    rw [List.length_flatMap, List.map_map]
    exact congrArg List.sum (List.map_congr_left fun g _ => hclause g)
  have hexcluded := hgroups excludedClause length_groupParams
  simp only [Clause.all, constraintClauses, List.flatMap_append, List.length_append, hamong, hflag,
    hgroups groupClause length_groupParams, hexcluded, List.length_map, Prefilter.bindings,
    Prefilter.flags]
  omega

theorem isOversized_eq (p : Prefilter) : isOversized p = decide (maxBound < p.bindings) := by
  rw [isOversized, length_params]

/-! ### What the text says -/

/-- What a text says of the row of a memo, with values bound to its holes in order. -/
def says? (text : String) (params : List Param) (m : Memo) : Option Bool :=
  (Sql.read? text).map fun c => c.holds m params

theorem isReadable_clause {p : Prefilter} {d : Clause} (hd : d ∈ constraintClauses p) :
    Sql.IsReadable d.condition := by
  rcases mem_constraintClauses hd with ⟨c, values, hvalues, rfl⟩ | ⟨c, b, rfl⟩ | ⟨g, rfl⟩ | ⟨g, rfl⟩
  · exact Sql.isReadable_among c (by simpa using hvalues)
  · exact Sql.isReadable_equals c
  · exact Sql.isReadable_anyTag _
  · exact (Sql.isReadable_anyTag _).not

/-- **The text of a prefilter says what its clause says.** -/
theorem says?_admittedBy (p : Prefilter) (m : Memo) :
    says? (admittedBy p).condition.sql (admittedBy p).params m = some ((admittedBy p).holds m) := by
  have hconstant : ∀ c : Condition, c = .always ∨ c = .never → ∀ ps,
      says? c.sql ps m = some (c.holds m ps) := by
    rintro c (rfl | rfl) ps
    · have hread : Sql.read? Condition.always.sql = some (.all [.always]) := by rfl
      rw [says?, hread]
      simp [Condition.holds, Condition.holdsAll]
    · have hread : Sql.read? Condition.never.sql = some (.all [.never]) := by rfl
      rw [says?, hread]
      simp [Condition.holds, Condition.holdsAll]
  rw [admittedBy]
  split
  · exact hconstant _ (.inr rfl) _
  · dsimp only
    split
    · exact hconstant _ (.inl rfl) _
    · by_cases hcs : constraintClauses p = []
      · -- a conjunction without members is written as a condition
        rw [hcs]
        have halways : says? Condition.always.sql [] m = some (Condition.always.holds m []) :=
          hconstant _ (.inl rfl) _
        exact halways.trans (by rw [Condition.holds]; rfl)
      · have hread : Sql.read? (Clause.all (constraintClauses p)).condition.sql
            = some (Clause.all (constraintClauses p)).condition := by
          refine Sql.read?_all (by simpa using hcs) fun c hc => ?_
          obtain ⟨d, hd, rfl⟩ := List.mem_map.mp hc
          exact isReadable_clause hd
        rw [says?, hread]
        rfl

/-- A prefilter that is contradictory or not too large admits what its clause holds of, where a
store finds tags by all of its tests. -/
theorem admittedBy_holds_of_isSeen {p : Prefilter} (hseen : p.IsSeen)
    (hsize : p.unsatisfiable = true ∨ p.bindings ≤ maxBound) (m : Memo) :
    (admittedBy p).holds m = p.admits m := by
  rw [admittedBy_holds, isOversized_eq, hseen.seen_eq]
  rcases hsize with hsat | hsize
  · rw [hsat, Prefilter.admits, hsat]
    rfl
  · rw [decide_eq_false (Nat.not_lt.mpr hsize), Bool.false_or, Prefilter.admits]
    cases p.unsatisfiable <;> rfl

/-- What a prefilter admits, its clause holds of, whatever its size. -/
theorem admittedBy_holds_of_admits {p : Prefilter} (hseen : p.IsSeen) {m : Memo}
    (h : p.admits m = true) : (admittedBy p).holds m = true := by
  have hsat : p.unsatisfiable = false := by
    cases hsat : p.unsatisfiable with
    | false => rfl
    | true =>
      rw [Prefilter.admits, hsat] at h
      cases h
  rw [admittedBy_holds, hseen.seen_eq, h, hsat, Bool.or_true]
  rfl

/-- **The fragment of a prefilter means what the prefilter admits.** It has a hole for each value,
and with the values bound in order the text is true of the row of a memo exactly if the prefilter
admits the memo, where that is contradictory or binds no more values than a query may. Otherwise
the text is `1` and binds nothing. So no memo that is admitted is lost to the text. -/
theorem fragment_says {p : Prefilter} (hseen : p.IsSeen) :
    holesIn (admittedBy p).condition.sql = (admittedBy p).params.length
      ∧ (p.unsatisfiable = true ∨ p.bindings ≤ maxBound → ∀ m : Memo,
          says? (admittedBy p).condition.sql (admittedBy p).params m = some (p.admits m))
      ∧ (p.unsatisfiable = false → maxBound < p.bindings →
          (admittedBy p).condition.sql = "1" ∧ (admittedBy p).params = [])
      ∧ ∀ m : Memo, p.admits m = true →
          says? (admittedBy p).condition.sql (admittedBy p).params m = some true := by
  refine ⟨?_, fun hsize m => ?_, fun hsat hsize => ?_, fun m hadmits => ?_⟩
  · rw [holesIn_sql]
    exact (admittedBy_isFilled p).symm
  · rw [says?_admittedBy, admittedBy_holds_of_isSeen hseen hsize]
  · have hlength : maxBound < (Clause.all (constraintClauses p)).params.length := by
      rwa [length_params]
    have hclause : admittedBy p = ⟨.always, []⟩ := by
      rw [admittedBy, if_neg (by simp [hsat])]
      exact if_pos hlength
    rw [hclause]
    exact ⟨rfl, rfl⟩
  · rw [says?_admittedBy, admittedBy_holds_of_admits hseen hadmits]

/-- Values that are wanted twice, tests of both kinds in one group, and a group without tests, which
excludes nothing. -/
theorem fragment_says_mixed :
    let p : Prefilter :=
      { creators := [7, 7, 9]
        visibilities := [.members]
        pinned := some false
        tagGroups := [⟨[⟨.exact, "home"⟩, ⟨.prefixed, "work/"⟩, ⟨.exact, "home"⟩]⟩]
        excludedGroups := [⟨[]⟩, ⟨[⟨.prefixed, "home/"⟩, ⟨.exact, "work"⟩]⟩] }
    p.IsSeen ∧ p.bindings ≤ maxBound ∧ holesIn (admittedBy p).condition.sql = 12
      ∧ says? (admittedBy p).condition.sql (admittedBy p).params plannedMemo = some true := by
  intro p
  have hseen : p.IsSeen := by
    unfold Prefilter.IsSeen
    decide
  have hsize : p.bindings ≤ maxBound := by decide
  have hadmits : p.admits plannedMemo = true := by decide
  have hparams : (admittedBy p).params.length = 12 := by decide
  obtain ⟨hholes, -, -, hadmitted⟩ := fragment_says hseen
  exact ⟨hseen, hsize, hholes.trans hparams, hadmitted plannedMemo hadmits⟩

end SharedMemos.Query
