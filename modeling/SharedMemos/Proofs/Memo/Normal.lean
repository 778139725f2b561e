import Mathlib.Data.List.DropRight
import Mathlib.Data.List.Nodup
import SharedMemos.Memo.Tag

/-!
# The normal form of tags

Tags are brought into their normal form one by one, and each may see those before it. So what holds
of the tags so far is the invariant of the whole run; and tags that have the form already are all
taken over.

## Main results

* `trim_trim` — a trimmed text is not trimmed any further
* `Tag.isNormal_normalize` — what the normal form is
* `Tag.IsNormal.normalize_eq`, `Tag.normalize_normalize` — it is brought about once and for all
-/

namespace SharedMemos

open SharedMemos.Text

/-- The first character that is kept is no blank, and it is kept from the other end as well. -/
theorem trim_trim (s : String) : trim (trim s) = trim s := by
  have hright : ∀ cs : List Char, trimRight cs = cs.rdropWhile isBlank := fun _ => rfl
  have hleft : ∀ cs : List Char, trimLeft (trimRight (trimLeft cs)) = trimRight (trimLeft cs) := by
    intro cs
    rw [trimLeft, List.dropWhile_eq_self_iff]
    intro hpos hblank
    have hprefix : trimRight (trimLeft cs) <+: trimLeft cs := by
      rw [hright]
      exact List.rdropWhile_prefix isBlank _
    have hpos' : 0 < (trimLeft cs).length := lt_of_lt_of_le hpos hprefix.length_le
    have hfirst := (List.dropWhile_eq_self_iff (p := isBlank) (l := trimLeft cs)).mp
      (List.dropWhile_idempotent isBlank cs) hpos'
    rw [List.IsPrefix.getElem hprefix hpos] at hblank
    exact hfirst hblank
  rw [trim, trim, String.toList_ofList, hleft, hright (trimLeft s.toList), hright,
    List.rdropWhile_idempotent]

namespace Tag

variable {tags acc : List String} {tag : String}

/-- Tags that are trimmed, not empty, and pairwise distinct. -/
structure IsNormal (tags : List String) : Prop where
  trimmed : ∀ tag ∈ tags, trim tag = tag
  nonempty : ∀ tag ∈ tags, tag ≠ ""
  distinct : tags.Nodup

theorem IsNormal.nil : IsNormal [] :=
  ⟨by simp, by simp, List.nodup_nil⟩

/-- One more tag. -/
theorem IsNormal.addNormalized (h : IsNormal tags) (tag : String) :
    IsNormal (addNormalized tags tag) := by
  rw [Tag.addNormalized]
  split
  · exact h
  · rename_i hnew
    rw [not_or] at hnew
    refine ⟨?_, ?_, ?_⟩
    · rw [List.forall_mem_append, List.forall_mem_singleton]
      exact ⟨h.trimmed, trim_trim tag⟩
    · rw [List.forall_mem_append, List.forall_mem_singleton]
      exact ⟨h.nonempty, hnew.1⟩
    · rw [← List.concat_eq_append]
      exact List.Nodup.concat hnew.2 h.distinct

/-- **What is in normal form is trimmed, not empty, and pairwise distinct.** -/
theorem isNormal_normalize (tags : List String) : IsNormal (normalize tags) :=
  List.foldlRecOn tags addNormalized IsNormal.nil fun _ h tag _ => h.addNormalized tag

/-- Tags in normal form are taken over behind those that are there. -/
theorem foldl_addNormalized (htrimmed : ∀ tag ∈ tags, trim tag = tag)
    (hnonempty : ∀ tag ∈ tags, tag ≠ "") (hdistinct : (acc ++ tags).Nodup) :
    tags.foldl addNormalized acc = acc ++ tags := by
  induction tags generalizing acc with
  | nil => rw [List.foldl_nil, List.append_nil]
  | cons tag tags ih =>
    rw [List.forall_mem_cons] at htrimmed hnonempty
    have hnew : tag ∉ acc := fun hmem =>
      (List.nodup_append.mp hdistinct).2.2 tag hmem tag (List.mem_cons_self ..) rfl
    have hadd : addNormalized acc tag = acc ++ [tag] := by
      rw [addNormalized, htrimmed.1, if_neg (not_or.mpr ⟨hnonempty.1, hnew⟩)]
    rw [← List.singleton_append, ← List.append_assoc] at hdistinct ⊢
    rw [List.singleton_append, List.foldl_cons, hadd]
    exact ih htrimmed.2 hnonempty.2 hdistinct

theorem IsNormal.normalize_eq (h : IsNormal tags) : normalize tags = tags :=
  foldl_addNormalized h.trimmed h.nonempty h.distinct

/-- **The normal form of tags in normal form is theirs.** -/
theorem normalize_normalize (tags : List String) : normalize (normalize tags) = normalize tags :=
  (isNormal_normalize tags).normalize_eq

end Tag

end SharedMemos
