import SharedMemos.Text.Blank
import Mathlib.Tactic.Common

/-!
# Pieces of a text between separators

What is put behind a text without a separator in it goes to the last piece, and what is put behind
a text and a separator makes pieces of its own. With separators between them the pieces are the text
again (`intercalate_splitAt`), and so different texts have different pieces.
-/

namespace SharedMemos.Text

variable {sep : Char}

theorem splitAt_cons_of_ne {c : Char} {cs piece : List Char} {pieces : List (List Char)}
    (hc : c ≠ sep) (h : splitAt sep cs = piece :: pieces) :
    splitAt sep (c :: cs) = (c :: piece) :: pieces := by
  rw [splitAt, if_neg hc, h]

theorem splitAt_of_not_mem {cs : List Char} (h : sep ∉ cs) : splitAt sep cs = [cs] := by
  induction cs with
  | nil => rfl
  | cons c cs ih =>
    obtain ⟨hc, hcs⟩ := not_or.mp fun hmem => h (List.mem_cons.mpr hmem)
    exact splitAt_cons_of_ne (Ne.symm hc) (ih hcs)

theorem splitAt_append_sep {cs : List Char} (h : sep ∉ cs) (ds : List Char) :
    splitAt sep (cs ++ sep :: ds) = cs :: splitAt sep ds := by
  induction cs with
  | nil => rw [List.nil_append, splitAt, if_pos rfl]
  | cons c cs ih =>
    obtain ⟨hc, hcs⟩ := not_or.mp fun hmem => h (List.mem_cons.mpr hmem)
    exact splitAt_cons_of_ne (Ne.symm hc) (ih hcs)

theorem splitAt_ne_nil (sep : Char) (cs : List Char) : splitAt sep cs ≠ [] := by
  cases cs with
  | nil => exact List.cons_ne_nil _ _
  | cons c cs =>
    rw [splitAt]
    split
    · exact List.cons_ne_nil _ _
    · split <;> exact List.cons_ne_nil _ _

/-- **Pieces are put together again** with separators between them. -/
theorem intercalate_splitAt (sep : Char) (cs : List Char) :
    [sep].intercalate (splitAt sep cs) = cs := by
  induction cs with
  | nil => rfl
  | cons c cs ih =>
    rw [splitAt]
    split
    · rename_i hc
      rw [List.intercalate_cons_of_ne_nil (splitAt_ne_nil sep cs), ih, hc]
      rfl
    · cases hcs : splitAt sep cs with
      | nil => exact absurd hcs (splitAt_ne_nil sep cs)
      | cons piece pieces =>
        rw [hcs] at ih
        dsimp only
        cases pieces with
        | nil =>
          rw [List.intercalate_singleton] at ih ⊢
          rw [ih]
        | cons next pieces =>
          rw [List.intercalate_cons_cons] at ih ⊢
          rw [List.cons_append, List.cons_append, ih]

/-- Nothing but separators is lost. -/
theorem exists_mem_splitAt {c : Char} (hc : c ≠ sep) {cs : List Char} (h : c ∈ cs) :
    ∃ piece ∈ splitAt sep cs, c ∈ piece := by
  induction cs with
  | nil => cases h
  | cons d cs ih =>
    rw [splitAt]
    split
    · rename_i hd
      rcases List.mem_cons.mp h with rfl | h
      · exact absurd hd hc
      · obtain ⟨piece, hpiece, hmem⟩ := ih h
        exact ⟨piece, List.mem_cons_of_mem _ hpiece, hmem⟩
    · cases hcs : splitAt sep cs with
      | nil => exact absurd hcs (splitAt_ne_nil sep cs)
      | cons first pieces =>
        dsimp only
        rcases List.mem_cons.mp h with rfl | h
        · exact ⟨_, List.mem_cons_self, List.mem_cons_self⟩
        · obtain ⟨piece, hpiece, hmem⟩ := ih h
          rw [hcs] at hpiece
          rcases List.mem_cons.mp hpiece with rfl | hpiece
          · exact ⟨_, List.mem_cons_self, List.mem_cons_of_mem _ hmem⟩
          · exact ⟨piece, List.mem_cons_of_mem _ hpiece, hmem⟩

/-- Pieces hold what the text holds, but no separator. -/
theorem mem_of_mem_splitAt {c : Char} {cs piece : List Char} (h : piece ∈ splitAt sep cs)
    (hc : c ∈ piece) : c ∈ cs ∧ c ≠ sep := by
  induction cs generalizing piece with
  | nil =>
    rw [splitAt, List.mem_singleton] at h
    subst h
    cases hc
  | cons d cs ih =>
    have hrest : ∀ {more}, more ∈ splitAt sep cs → c ∈ more → c ∈ d :: cs ∧ c ≠ sep :=
      fun hmore hmem => (ih hmore hmem).imp_left (List.mem_cons_of_mem d)
    by_cases hd : d = sep
    · rw [splitAt, if_pos hd] at h
      rcases List.mem_cons.mp h with rfl | h
      · cases hc
      · exact hrest h hc
    · obtain ⟨first, pieces, hcs⟩ := List.exists_cons_of_ne_nil (splitAt_ne_nil sep cs)
      rw [splitAt_cons_of_ne hd hcs] at h
      rw [hcs] at hrest
      rcases List.mem_cons.mp h with rfl | h
      · rcases List.mem_cons.mp hc with rfl | hc
        · exact ⟨List.mem_cons_self, hd⟩
        · exact hrest List.mem_cons_self hc
      · exact hrest (List.mem_cons_of_mem _ h) hc

/-- The pieces of two texts with a separator between them are those of one and of the other. -/
theorem splitAt_append_cons (sep : Char) (cs ds : List Char) :
    splitAt sep (cs ++ sep :: ds) = splitAt sep cs ++ splitAt sep ds := by
  induction cs with
  | nil => exact if_pos rfl
  | cons c cs ih =>
    by_cases hc : c = sep
    · rw [List.cons_append, splitAt, if_pos hc, ih, splitAt, if_pos hc, List.cons_append]
    · obtain ⟨first, pieces, hcs⟩ := List.exists_cons_of_ne_nil (splitAt_ne_nil sep cs)
      rw [hcs] at ih
      rw [splitAt_cons_of_ne hc hcs]
      exact splitAt_cons_of_ne hc ih

theorem splitOnChar_injective {sep : Char} {s t : String}
    (h : splitOnChar sep s = splitOnChar sep t) : s = t := by
  have hpieces : splitAt sep s.toList = splitAt sep t.toList :=
    List.map_inj_right (fun _ _ hsame => String.ofList_inj.mp hsame) |>.mp h
  rw [← String.toList_inj, ← intercalate_splitAt sep s.toList, hpieces, intercalate_splitAt]

/-- **What is put behind a text goes to its last piece.** -/
theorem splitAt_append_of_not_mem {ds : List Char} (h : sep ∉ ds) (cs : List Char) :
    ∃ init last,
      splitAt sep cs = init ++ [last] ∧ splitAt sep (cs ++ ds) = init ++ [last ++ ds] := by
  induction cs with
  | nil => exact ⟨[], [], rfl, splitAt_of_not_mem h⟩
  | cons c cs ih =>
    obtain ⟨init, last, hcs, happend⟩ := ih
    by_cases hc : c = sep
    · refine ⟨[] :: init, last, ?_, ?_⟩
      · rw [splitAt, if_pos hc, hcs, List.cons_append]
      · rw [List.cons_append, splitAt, if_pos hc, happend, List.cons_append]
    · cases init with
      | nil =>
        refine ⟨[], c :: last, ?_, ?_⟩
        · exact splitAt_cons_of_ne hc hcs
        · exact splitAt_cons_of_ne hc happend
      | cons piece init =>
        refine ⟨(c :: piece) :: init, last, ?_, ?_⟩
        · exact splitAt_cons_of_ne hc hcs
        · exact splitAt_cons_of_ne hc happend

end SharedMemos.Text
