import SharedMemos.Proofs.Query.Clause

/-!
# The two forms of the visibility rule

Who may see a memo is decided twice. A query compares texts: the number of the user, the two wide
visibilities, and the one tag that would grant the user access, each bound to a hole of the clause.
The rule itself reads every tag as the number of a user. A tag that the rule took for a grant and
that is written in any other way than the clause writes it, with a sign, a zero in front or
something behind, would be a memo that one of the two shows and the other hides.

So the two agree on every row exactly because a tag is a grant in one written form only, and that
form is pinned down here for every text and every number, those that no user has included.

## Main results

* `Tag.grantee?_eq_some` — which texts grant whom access
* `visibleTo_agrees` — the clause is filled, and holds of the memos that are visible
-/

namespace SharedMemos

open SharedMemos.Text

namespace Tag

/-- A tag grants access to nobody but a user whose number is positive and fits in a word. -/
theorem grantee?_range {tag : String} {user : Int} (h : grantee? tag = some user) :
    0 < user ∧ user ≤ maxInt64 := by
  simp only [grantee?, Option.bind_eq_bind, Option.bind_eq_some_iff] at h
  obtain ⟨rest, -, found, hfound, hif⟩ := h
  split at hif
  · rename_i hgrant
    cases hif
    exact ⟨hgrant.1, int64?_le_maxInt64 hfound⟩
  · cases hif

/-- **Which texts grant whom access**, over all texts and all numbers. -/
theorem grantee?_eq_some {tag : String} {user : Int} :
    grantee? tag = some user ↔ (0 < user ∧ user ≤ maxInt64) ∧ tag = grant user := by
  constructor
  · intro h
    obtain ⟨hpos, hmax⟩ := grantee?_range h
    exact ⟨⟨hpos, hmax⟩, (grantee?_eq_some_iff hpos hmax).mp h⟩
  · rintro ⟨⟨hpos, hmax⟩, htag⟩
    exact (grantee?_eq_some_iff hpos hmax).mpr htag

end Tag

namespace Query

/-- **The clause of the visibility rule is the rule.** There is one value for each hole of the
clause, a row satisfies it with those values exactly if the memo is visible, and the tag that the
clause looks for is the only one that the rule takes for a grant. -/
theorem visibleTo_agrees {viewer : Viewer}
    (hviewer : ∀ user, viewer = some user → 0 < user ∧ user ≤ maxInt64) :
    (visibleTo viewer).IsFilled
      ∧ (∀ m : Memo, (visibleTo viewer).holds m = true ↔ m.isVisibleTo viewer = true)
      ∧ ∀ (tag : String) (user : Int),
          Tag.grantee? tag = some user ↔ (0 < user ∧ user ≤ maxInt64) ∧ tag = Tag.grant user := by
  refine ⟨visibleTo_isFilled viewer, fun m => ?_, fun tag user => Tag.grantee?_eq_some⟩
  rw [visibleTo_holds hviewer]

/-- A collaborator finds the memo through the clause. -/
theorem visibleTo_agrees_collaborator :
    (∀ user, (some 7 : Viewer) = some user → 0 < user ∧ user ≤ maxInt64)
      ∧ (visibleTo (some 7)).holds
          ⟨1, "u", 3, "text", .restricted, .normal, false, ⟨0⟩, ⟨0⟩, none, ["collab/7"],
            default⟩ = true := by
  have hviewer : ∀ user, (some 7 : Viewer) = some user → 0 < user ∧ user ≤ maxInt64 := by
    rintro user ⟨⟩
    decide
  exact ⟨hviewer, ((visibleTo_agrees hviewer).2.1 _).mpr (by decide)⟩

end Query

end SharedMemos
