import SharedMemos.Memo.Basic
import SharedMemos.Proofs.Text.Numeral
import Mathlib.Tactic.Common

/-!
# Tags that grant access

A tag grants access to a user only in the one form that `grant` writes. So looking for that text
among the tags, as a query does, is the same as reading every tag, as the visibility rule does.

## Main results

* `grantee?_eq_some_iff` — what a tag must be to grant a user access
* `mem_revoked` — who loses access when tags change
* `Memo.isCollaborator_eq_contains` — access as membership of a text
* `Memo.canModify_iff_grant` — who may change a memo
-/

namespace SharedMemos

open SharedMemos.Text

namespace Tag

theorem after?_append (start rest : List Char) : after? start (start ++ rest) = some rest := by
  have hprefix : start.isPrefixOf (start ++ rest) = true := by
    rw [List.isPrefixOf_iff_prefix]
    exact List.prefix_append start rest
  rw [after?, if_pos hprefix, List.drop_left]

theorem after?_eq_none {start text : List Char} (h : ¬ start <+: text) :
    after? start text = none := by
  rw [← List.isPrefixOf_iff_prefix] at h
  rw [after?, if_neg h]

/-- A tag grants a user access exactly if it is written the way such tags are. The numbers of users
are positive and fit in a word. -/
theorem grantee?_eq_some_iff {tag : String} {user : Int} (hpos : 0 < user)
    (hmax : user ≤ maxInt64) : grantee? tag = some user ↔ tag = grant user := by
  constructor
  · intro h
    simp only [grantee?, Option.bind_eq_bind, Option.bind_eq_some_iff] at h
    obtain ⟨rest, -, found, -, hif⟩ := h
    split at hif
    · rename_i hfound
      cases hif
      exact hfound.2.symm
    · cases hif
  · rintro rfl
    have hlow : minInt64 ≤ user := by
      simp only [minInt64]
      omega
    have hrest : after? grantMark.toList (grant user).toList = some (showInt user).toList := by
      rw [grant, String.toList_append, after?_append]
    simp only [grantee?, hrest, Option.bind_eq_bind, Option.bind_some, String.ofList_toList,
      int64?_showInt hlow hmax]
    exact if_pos ⟨hpos, trivial⟩

@[simp] theorem mem_sortedIds {ids : List Int} {user : Int} :
    user ∈ sortedIds ids ↔ user ∈ ids := by
  rw [sortedIds, List.mem_eraseDups, List.mem_mergeSort]

/-- The users who lose access are those whose grant is gone. -/
theorem mem_revoked {old new : List String} {user : Int} :
    user ∈ revoked old new ↔ user ∈ grantees old ∧ user ∉ grantees new := by
  rw [revoked, mem_sortedIds, List.mem_filter, Bool.not_eq_true', ← Bool.not_eq_true,
    List.contains_iff_mem]

end Tag

namespace Memo

variable {m : Memo} {user : UserId}

theorem isCollaborator_eq_contains (hpos : 0 < user) (hmax : user ≤ maxInt64) :
    m.isCollaborator user = m.tags.contains (Tag.grant user) := by
  rw [Bool.eq_iff_iff, isCollaborator, List.contains_iff_mem, List.contains_iff_mem,
    Tag.grantees, List.mem_filterMap]
  simp only [Tag.grantee?_eq_some_iff hpos hmax, exists_eq_right]

theorem canModify_iff : m.canModify user ↔ m.creator = user ∨ user ∈ Tag.grantees m.tags := by
  rw [canModify, isCollaborator, Bool.or_eq_true, beq_iff_eq, List.contains_iff_mem]

theorem canModify_iff_grant (hpos : 0 < user) (hmax : user ≤ maxInt64) :
    m.canModify user ↔ m.creator = user ∨ Tag.grant user ∈ m.tags := by
  rw [canModify, isCollaborator_eq_contains hpos hmax, Bool.or_eq_true, beq_iff_eq,
    List.contains_iff_mem]

/-- The creator and the collaborators are those who may change a memo. -/
theorem mem_canModify_iff :
    user ∈ Tag.sortedIds (m.creator :: m.collaborators) ↔ m.canModify user := by
  rw [Tag.mem_sortedIds, List.mem_cons, collaborators, Tag.mem_sortedIds, canModify_iff, eq_comm]

/-- The users who lose their grant, apart from the creator, are those who could change the memo as
it was and cannot change it any more. -/
theorem mem_revoked_iff {m' : Memo} (hcreator : m'.creator = m.creator) :
    user ∈ (Tag.revoked m.tags m'.tags).filter (· != m'.creator)
      ↔ m.canModify user ∧ ¬ m'.canModify user := by
  rw [List.mem_filter, Tag.mem_revoked, bne_iff_ne, canModify_iff, canModify_iff, hcreator]
  constructor
  · rintro ⟨⟨hheld, hlost⟩, hother⟩
    refine ⟨.inr hheld, ?_⟩
    rintro (hcreates | hholds)
    · exact hother hcreates.symm
    · exact hlost hholds
  · rintro ⟨hcould, hcannot⟩
    rw [not_or] at hcannot
    exact ⟨⟨hcould.resolve_left hcannot.1, hcannot.2⟩, fun hcreates => hcannot.1 hcreates.symm⟩

/-- Whoever may change a memo sees it. -/
theorem isVisibleTo_of_canModify (h : m.canModify user) : m.isVisibleTo (some user) := by
  rw [canModify] at h
  rw [isVisibleTo]
  rcases (Bool.or_eq_true _ _).mp h with hcreator | hgrant
  · rw [hcreator, Bool.true_or, Bool.true_or, Bool.true_or]
  · rw [hgrant, Bool.or_true]

end Memo

end SharedMemos
