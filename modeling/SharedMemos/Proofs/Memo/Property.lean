import SharedMemos.Proofs.Memo.Line
import Mathlib.Algebra.Group.Nat.Even
import Mathlib.Data.Nat.Bits

/-!
# Flags of contents

The scan of a content carries one bit from line to line: whether it is inside a block of code. That
bit tells whether an odd number of fences has been passed, so the flags of lines and more lines are
those of both, the second with the bit that the first leave behind (`ofLines_append`).

Lines inside a block are passed over, and the flags of a content are not changed by what they say.

## Main definitions

* `SameOutside` — lines that differ in nothing but what stands inside blocks

## Main results

* `ofLines_append` — the flags of lines and more lines
* `ofLines_congr` — what stands inside blocks makes no difference
* `ofContent_blocks` — flags ignore blocks and compose
-/

namespace SharedMemos.Property

open SharedMemos.Text

/-! ### Flags of either -/

theorem empty_or (p : Property) : empty.or p = p := by
  cases p
  simp [or, empty]

theorem or_assoc (p q r : Property) : (p.or q).or r = p.or (q.or r) := by
  simp only [or, Bool.or_assoc]

/-! ### Lines and more lines -/

variable {xs ys : List (List Char)} {line : List Char} {inBlock : Bool}

theorem ofLines_fence (h : isFence line = true) :
    ofLines inBlock (line :: xs) = { empty with hasCode := true }.or (ofLines (!inBlock) xs) := by
  rw [ofLines, if_pos h]

theorem ofLines_inside (h : isFence line = false) : ofLines true (line :: xs) = ofLines true xs := by
  rw [ofLines, if_neg (by rw [h]; decide), if_pos rfl]

theorem ofLines_outside (h : isFence line = false) :
    ofLines false (line :: xs) = (ofLine line).or (ofLines false xs) := by
  rw [ofLines, if_neg (by rw [h]; decide), if_neg (by decide)]

/-- The bit that a fence leaves behind is that of one line more. -/
theorem bodd_countP_cons (b : Bool) (line : List Char) (xs : List (List Char)) :
    (b ^^ ((line :: xs).countP isFence).bodd)
      = ((b ^^ isFence line) ^^ (xs.countP isFence).bodd) := by
  rw [List.countP_cons, Nat.bodd_add]
  cases isFence line <;> cases b <;> cases (xs.countP isFence).bodd <;> rfl

/-- **The flags of lines and more lines** are those of both; the second are inside a block if an odd
number of fences stands among the first. -/
theorem ofLines_append (inBlock : Bool) (xs ys : List (List Char)) : ofLines inBlock (xs ++ ys)
    = (ofLines inBlock xs).or (ofLines (inBlock ^^ (xs.countP isFence).bodd) ys) := by
  induction xs generalizing inBlock with
  | nil => rw [List.nil_append, ofLines, empty_or, List.countP_nil, Nat.bodd_zero, Bool.xor_false]
  | cons line xs ih =>
    rw [bodd_countP_cons, List.cons_append]
    cases hfence : isFence line with
    | true => rw [ofLines_fence hfence, ofLines_fence hfence, ih, or_assoc, Bool.xor_true]
    | false =>
      rw [Bool.xor_false]
      cases inBlock with
      | true => rw [ofLines_inside hfence, ofLines_inside hfence, ih]
      | false => rw [ofLines_outside hfence, ofLines_outside hfence, ih, or_assoc]

/-! ### Inside blocks -/

/-- Lines that differ in nothing but what stands inside blocks of code: behind an odd number of
fences. -/
structure SameOutside (xs ys : List (List Char)) : Prop where
  length_eq : xs.length = ys.length
  isFence_eq : ∀ (i : ℕ) (hx : i < xs.length) (hy : i < ys.length), isFence xs[i] = isFence ys[i]
  getElem_eq : ∀ (i : ℕ) (hx : i < xs.length) (hy : i < ys.length), isFence xs[i] = false →
    Even ((xs.take i).countP isFence) → xs[i] = ys[i]

instance : Decidable (SameOutside xs ys) :=
  decidable_of_iff (xs.length = ys.length
    ∧ (∀ (i : ℕ) (hx : i < xs.length) (hy : i < ys.length), isFence xs[i] = isFence ys[i])
    ∧ ∀ (i : ℕ) (hx : i < xs.length) (hy : i < ys.length), isFence xs[i] = false →
      Even ((xs.take i).countP isFence) → xs[i] = ys[i])
    ⟨fun ⟨hlength, hfence, hline⟩ => ⟨hlength, hfence, hline⟩,
      fun ⟨hlength, hfence, hline⟩ => ⟨hlength, hfence, hline⟩⟩

/-- **What stands inside blocks makes no difference**, whether the lines start inside one or not. -/
theorem ofLines_congr (hlength : xs.length = ys.length)
    (hfence : ∀ (i : ℕ) (hx : i < xs.length) (hy : i < ys.length), isFence xs[i] = isFence ys[i])
    (hline : ∀ (i : ℕ) (hx : i < xs.length) (hy : i < ys.length), isFence xs[i] = false →
      (inBlock ^^ ((xs.take i).countP isFence).bodd) = false → xs[i] = ys[i]) :
    ofLines inBlock xs = ofLines inBlock ys := by
  induction xs generalizing inBlock ys with
  | nil => rw [List.eq_nil_of_length_eq_zero hlength.symm]
  | cons x xs ih =>
    obtain ⟨y, ys, rfl⟩ := List.exists_cons_of_length_eq_add_one hlength.symm
    have hfirst : isFence x = isFence y := hfence 0 (Nat.succ_pos _) (Nat.succ_pos _)
    have hrest : ofLines (inBlock ^^ isFence x) xs = ofLines (inBlock ^^ isFence x) ys := by
      refine ih (Nat.succ.inj hlength)
        (fun i hx hy => hfence (i + 1) (Nat.succ_lt_succ hx) (Nat.succ_lt_succ hy))
        fun i hx hy hplain heven =>
          hline (i + 1) (Nat.succ_lt_succ hx) (Nat.succ_lt_succ hy) hplain ?_
      rw [List.take_succ_cons, bodd_countP_cons]
      exact heven
    cases hx : isFence x with
    | true =>
      rw [hx, Bool.xor_true] at hrest
      rw [ofLines_fence hx, ofLines_fence (hfirst.symm.trans hx), hrest]
    | false =>
      rw [hx, Bool.xor_false] at hrest
      cases inBlock with
      | true => rw [ofLines_inside hx, ofLines_inside (hfirst.symm.trans hx), hrest]
      | false =>
        have hsame : x = y := hline 0 (Nat.succ_pos _) (Nat.succ_pos _) hx (by simp)
        rw [ofLines_outside hx, ofLines_outside (hfirst.symm.trans hx), hsame, hrest]

/-- An even number leaves no bit. -/
theorem bodd_eq_false_iff {n : ℕ} : n.bodd = false ↔ Even n := by
  rw [Nat.even_iff, Nat.mod_two_of_bodd]
  cases n.bodd <;> decide

/-! ### Lines of a content -/

/-- All pieces of a text but the last are lines, and the last is one unless it is empty. -/
theorem lines_eq {cs last : List Char} {init : List (List Char)}
    (h : splitAt '\n' cs = init ++ [last]) :
    lines cs = init.map dropReturn ++ if last.isEmpty then [] else [last] := by
  rw [lines, h, List.getLast?_concat, List.dropLast_concat]
  dsimp only
  split <;> simp

theorem exists_concat_pieces (cs : List Char) :
    ∃ init last, splitAt '\n' cs = init ++ [last] := by
  obtain ⟨init, last, h⟩ := (List.eq_nil_or_concat (splitAt '\n' cs)).resolve_left
    (splitAt_ne_nil _ cs)
  exact ⟨init, last, h.trans List.concat_eq_append⟩

/-- A newline ends the last line of the text before it. -/
theorem lines_append_cons (cs ds : List Char) :
    lines (cs ++ '\n' :: ds) = (splitAt '\n' cs).map dropReturn ++ lines ds := by
  obtain ⟨init, last, hds⟩ := exists_concat_pieces ds
  have hboth : splitAt '\n' (cs ++ '\n' :: ds) = (splitAt '\n' cs ++ init) ++ [last] := by
    rw [splitAt_append_cons, hds, List.append_assoc]
  rw [lines_eq hboth, lines_eq hds, List.map_append, List.append_assoc]

/-- **Ending the last line makes no difference**: the line is empty, or a carriage return may be
dropped from it. -/
theorem ofLines_ended (inBlock : Bool) (cs : List Char) :
    ofLines inBlock ((splitAt '\n' cs).map dropReturn) = ofLines inBlock (lines cs)
      ∧ ((splitAt '\n' cs).map dropReturn).countP isFence = (lines cs).countP isFence := by
  obtain ⟨init, last, hcs⟩ := exists_concat_pieces cs
  have hlast : (∀ b, ofLines b [dropReturn last] = ofLines b (if last.isEmpty then [] else [last]))
      ∧ [dropReturn last].countP isFence
        = (if last.isEmpty then [] else [last]).countP isFence := by
    split
    · rename_i hempty
      rw [List.isEmpty_iff.mp hempty]
      exact ⟨by decide, by decide⟩
    · refine ⟨fun b => ?_, ?_⟩
      · simp only [ofLines, isFence_dropReturn, ofLine_dropReturn]
      · rw [List.countP_singleton, List.countP_singleton, isFence_dropReturn]
  rw [lines_eq hcs, hcs, List.map_append, List.map_singleton, ofLines_append, ofLines_append,
    List.countP_append, List.countP_append, hlast.1, hlast.2]
  exact ⟨rfl, rfl⟩

/-! ### Contents -/

/-- Contents that differ in nothing but what stands inside blocks have the same flags. -/
theorem ofContent_congr {c d : String} (h : SameOutside (lines c.toList) (lines d.toList)) :
    ofContent c = ofContent d :=
  ofLines_congr h.length_eq h.isFence_eq fun i hx hy hplain heven =>
    h.getElem_eq i hx hy hplain (bodd_eq_false_iff.mp ((Bool.false_xor _).symm.trans heven))

/-- A content in which every block is closed, and another behind it on new lines, have the flags of
both. -/
theorem ofContent_append {c : String} (h : Even ((lines c.toList).countP isFence)) (d : String) :
    ofContent (c ++ "\n" ++ d) = (ofContent c).or (ofContent d) := by
  have htext : (c ++ "\n" ++ d).toList = c.toList ++ '\n' :: d.toList := by
    rw [String.toList_append, String.toList_append, List.append_assoc]
    rfl
  obtain ⟨hflags, hcount⟩ := ofLines_ended false c.toList
  rw [ofContent, htext, lines_append_cons, ofLines_append, hflags, hcount, bodd_eq_false_iff.mpr h]
  rfl

/-- Only a task list has a task that is not done. -/
theorem hasTaskList_of_hasIncompleteTasks (inBlock : Bool) (xs : List (List Char))
    (h : (ofLines inBlock xs).hasIncompleteTasks = true) :
    (ofLines inBlock xs).hasTaskList = true := by
  induction xs generalizing inBlock with
  | nil => cases h
  | cons line xs ih =>
    cases hfence : isFence line with
    | true =>
      rw [ofLines_fence hfence] at h ⊢
      exact ih _ h
    | false =>
      cases inBlock with
      | true =>
        rw [ofLines_inside hfence] at h ⊢
        exact ih _ h
      | false =>
        rw [ofLines_outside hfence] at h ⊢
        refine Bool.or_eq_true_iff.mpr ((Bool.or_eq_true_iff.mp h).imp (fun hline => ?_) (ih _))
        exact Option.isSome_of_eq_some (beq_iff_eq.mp hline)

/-- A fence is code. -/
theorem hasCode_of_isFence (inBlock : Bool) (h : line ∈ xs) (hfence : isFence line = true) :
    (ofLines inBlock xs).hasCode = true := by
  obtain ⟨before, after, rfl⟩ := List.append_of_mem h
  rw [ofLines_append, ofLines_fence hfence]
  exact Bool.or_eq_true_iff.mpr (.inr rfl)

/-- **Flags ignore blocks of code and compose.** Contents that differ in nothing but what stands
inside blocks have the same flags. Where every block of the first is closed, one content behind
another on new lines has the flags of either. A task that is not done is in a task list, and a fence
is code. -/
theorem ofContent_blocks :
    (∀ c d : String, SameOutside (lines c.toList) (lines d.toList) → ofContent c = ofContent d)
      ∧ (∀ c d : String, Even ((lines c.toList).countP isFence) →
        ofContent (c ++ "\n" ++ d) = (ofContent c).or (ofContent d))
      ∧ (∀ c : String, (ofContent c).hasIncompleteTasks = true → (ofContent c).hasTaskList = true)
      ∧ ∀ (c : String) (line : List Char), line ∈ lines c.toList → isFence line = true →
        (ofContent c).hasCode = true :=
  ⟨fun _ _ => ofContent_congr, fun _ d h => ofContent_append h d,
    fun c => hasTaskList_of_hasIncompleteTasks false (lines c.toList),
    fun _ _ => hasCode_of_isFence false⟩

/-- A closed block with other text in it and other line endings around it, and a task list behind
it. -/
theorem ofContent_blocks_tasks :
    ofContent "see\n~~~\n- [ ] a\n~~~\n" = ofContent "see\r\n~~~\r\nhttps://a\r\n~~~"
      ∧ ofContent ("see\n~~~\n- [ ] a\n~~~\n" ++ "\n" ++ "- [ ] b")
        = (ofContent "see\n~~~\n- [ ] a\n~~~\n").or (ofContent "- [ ] b")
      ∧ (ofContent "- [ ] b").hasTaskList = true
      ∧ (ofContent "see\n~~~\n- [ ] a\n~~~\n").hasCode = true :=
  ⟨ofContent_blocks.1 _ _ (by decide +kernel), ofContent_blocks.2.1 _ _ (by decide +kernel),
    ofContent_blocks.2.2.1 _ (by decide +kernel),
    ofContent_blocks.2.2.2 _ "~~~".toList (by decide +kernel) (by decide +kernel)⟩

end SharedMemos.Property
