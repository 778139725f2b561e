import SharedMemos.Proofs.Upload.Part
import Mathlib.Data.List.Basic
import Mathlib.Order.Bounds.Basic

/-!
# The longest run of parts

The parts that count go up to the last number before the first that is missing, and of parts with
the same number the first is the one that counts. Nothing else about the list matters: sorting moves
parts with different numbers past each other and leaves those with the same number in their order.
So parts may come in any order, as long as the first with each number stays the first.

## Main definitions

* `first?` — the first part with a number
* `IsReordered` — the same parts, where only parts with different numbers have changed places

## Main results

* `first?_mergeSort` — sorting leaves the first part with a number the first
* `map_some_contiguous` — the parts that count, number by number
* `contiguous_congr` — only the first part with each number matters
* `contiguous_isLongest` — which parts count, and how much they are
-/

namespace SharedMemos.Upload

open SharedMemos.Text

variable {parts others : List Part} {p : Part} {next : Int}

/-- The first part of a list that has a number. -/
def first? (number : Int) (parts : List Part) : Option Part :=
  parts.find? fun p => p.number = number

/-- The other list has the same parts, and those with the same number in the same order. -/
structure IsReordered (parts others : List Part) : Prop where
  perm : parts.Perm others
  filter_eq : ∀ number : Int,
    parts.filter (fun p => p.number = number) = others.filter fun p => p.number = number

theorem first?_eq_head?_filter (number : Int) (parts : List Part) :
    first? number parts = (parts.filter fun p => p.number = number).head? :=
  (List.head?_filter).symm

theorem IsReordered.first?_eq (h : IsReordered parts others) (number : Int) :
    first? number parts = first? number others := by
  rw [first?_eq_head?_filter, first?_eq_head?_filter, h.filter_eq]

theorem isSome_first?_iff {number : Int} :
    (first? number parts).isSome = true ↔ ∃ p ∈ parts, p.number = number := by
  simp only [first?, List.find?_isSome, decide_eq_true_eq]

/-! ### Sorting -/

/-- **Sorting leaves the first part with a number the first.** All parts with the number are a
sorted list, and sorting is stable. -/
theorem first?_mergeSort (number : Int) (parts : List Part) :
    first? number (parts.mergeSort fun p q => decide (p.number ≤ q.number))
      = first? number parts := by
  set sorted := parts.mergeSort fun p q => decide (p.number ≤ q.number)
  have hnumber : ∀ p ∈ parts.filter (fun p => p.number = number), p.number = number :=
    fun p hp => of_decide_eq_true (List.mem_filter.mp hp).2
  have hpairwise : (parts.filter fun p => p.number = number).Pairwise
      fun p q => decide (p.number ≤ q.number) = true :=
    List.pairwise_of_forall_mem_list fun p hp q hq =>
      decide_eq_true (Int.le_of_eq ((hnumber p hp).trans (hnumber q hq).symm))
  have hsub : (parts.filter fun p => p.number = number).Sublist sorted :=
    List.sublist_mergeSort numbered_trans numbered_total hpairwise List.filter_sublist
  have hsame : parts.filter (fun p => p.number = number)
      = sorted.filter fun p => p.number = number := by
    refine List.Sublist.eq_of_length ?_ ?_
    · have hfilter := hsub.filter fun p => decide (p.number = number)
      simpa only [List.filter_filter, Bool.and_self] using hfilter
    · exact ((List.mergeSort_perm parts _).filter _).length_eq.symm
  rw [first?_eq_head?_filter, first?_eq_head?_filter, hsame]

/-! ### The parts that count -/

theorem le_number_of_mem_runFrom (h : p ∈ runFrom next parts) : next ≤ p.number := by
  have hmem := List.mem_map_of_mem (f := (·.number)) h
  rw [runFrom_numbers, List.mem_map] at hmem
  obtain ⟨i, -, hi⟩ := hmem
  omega

/-- A part that is taken is the first with its number: after it, the next number is looked for. -/
theorem first?_of_mem_runFrom (h : p ∈ runFrom next parts) : first? p.number parts = some p := by
  fun_induction runFrom next parts with
  | case1 => cases h
  | case2 next q parts hless ih =>
    have hle := le_number_of_mem_runFrom h
    rw [first?, List.find?_cons_of_neg (by simp only [decide_eq_true_eq]; omega)]
    exact ih h
  | case3 => cases h
  | case4 next q parts _ _ ih =>
    rcases List.mem_cons.mp h with rfl | h
    · exact List.find?_cons_of_pos (decide_eq_true rfl)
    · have hle := le_number_of_mem_runFrom h
      rw [first?, List.find?_cons_of_neg (by simp only [decide_eq_true_eq]; omega)]
      exact ih h

theorem first?_of_mem_contiguous (h : p ∈ contiguous parts) : first? p.number parts = some p := by
  rw [← first?_mergeSort]
  exact first?_of_mem_runFrom h

/-- **The parts that count, number by number.** -/
theorem map_some_contiguous (parts : List Part) :
    (contiguous parts).map some
      = (List.range (contiguous parts).length).map fun i : Nat => first? (1 + i) parts := by
  calc (contiguous parts).map some
      = (contiguous parts).map fun p => first? p.number parts :=
        List.map_congr_left fun p hp => (first?_of_mem_contiguous hp).symm
    _ = ((contiguous parts).map (·.number)).map fun number => first? number parts := by
        rw [List.map_map]
        rfl
    _ = (List.range (contiguous parts).length).map fun i : Nat => first? (1 + i) parts := by
        rw [(contiguous_isRun parts).numbers, List.map_map]
        rfl

/-- The numbers up to which no part is missing. -/
def unbroken (parts : List Part) : Set Nat :=
  {k | ∀ i : Nat, 1 ≤ i → i ≤ k → ∃ p ∈ parts, p.number = i}

/-- **No longer run is there.** -/
theorem isGreatest_length_contiguous (parts : List Part) :
    IsGreatest (unbroken parts) (contiguous parts).length := by
  refine ⟨fun i hi hle => ?_, fun k hk => ?_⟩
  · have hmem : (i : Int) ∈ (contiguous parts).map (·.number) := by
      rw [(contiguous_isRun parts).numbers, List.mem_map]
      exact ⟨i - 1, List.mem_range.mpr (by omega), by omega⟩
    obtain ⟨p, hp, hnumber⟩ := List.mem_map.mp hmem
    exact ⟨p, (contiguous_isRun parts).among p hp, hnumber⟩
  · by_contra hlong
    obtain ⟨p, hp, hnumber⟩ := hk ((contiguous parts).length + 1) (by omega) (by omega)
    exact (contiguous_isRun parts).ends p hp (by omega)

/-- **Only the first part with each number matters.** -/
theorem contiguous_congr (h : ∀ number, first? number parts = first? number others) :
    contiguous parts = contiguous others := by
  have hunbroken : unbroken parts = unbroken others := by
    simp only [unbroken, ← isSome_first?_iff, h]
  have hlength : (contiguous parts).length = (contiguous others).length :=
    (isGreatest_length_contiguous parts).unique
      (hunbroken ▸ isGreatest_length_contiguous others)
  refine List.map_injective_iff.mpr (Option.some_injective Part) ?_
  rw [map_some_contiguous, map_some_contiguous, hlength]
  exact List.map_congr_left fun i _ => h _

/-- **The parts that count are the longest run from number one.** Each is the first with its number,
their size is exact where it fits in a word, and parts with different numbers may come in any
order. -/
theorem contiguous_isLongest (parts : List Part) :
    (∃ k : Nat, IsGreatest (unbroken parts) k
      ∧ (contiguous parts).map (·.number) = (List.range k).map fun i : Nat => 1 + (i : Int))
      ∧ (∀ p ∈ contiguous parts, first? p.number parts = some p)
      ∧ (isInt64 (sizeSum (contiguous parts)) →
        totalSize (contiguous parts) = sizeSum (contiguous parts))
      ∧ ∀ others, IsReordered parts others →
        contiguous others = contiguous parts
          ∧ totalSize (contiguous others) = totalSize (contiguous parts) := by
  refine ⟨⟨_, isGreatest_length_contiguous parts, (contiguous_isRun parts).numbers⟩,
    fun p => first?_of_mem_contiguous, totalSize_of_fits, fun others hothers => ?_⟩
  have hsame : contiguous others = contiguous parts :=
    (contiguous_congr hothers.first?_eq).symm
  exact ⟨hsame, congrArg totalSize hsame⟩

/-- Parts in no order, with one sent twice, a gap, and numbers that no part should have. -/
def shuffled : List Part :=
  [⟨3, 5, "c"⟩, ⟨1, 4, "a"⟩, ⟨-1, 9, "x"⟩, ⟨1, 8, "b"⟩, ⟨2, -2, "d"⟩, ⟨0, 9, "y"⟩, ⟨5, 9, "z"⟩]

/-- The same parts in ascending order. -/
def ascending : List Part :=
  [⟨-1, 9, "x"⟩, ⟨0, 9, "y"⟩, ⟨1, 4, "a"⟩, ⟨1, 8, "b"⟩, ⟨2, -2, "d"⟩, ⟨3, 5, "c"⟩, ⟨5, 9, "z"⟩]

theorem isReordered_shuffled : IsReordered shuffled ascending where
  perm := by decide
  filter_eq number := by
    simp only [shuffled, ascending, List.filter_cons, List.filter_nil]
    grind

theorem contiguous_isLongest_shuffled :
    (∃ k : Nat, IsGreatest (unbroken shuffled) k
      ∧ (contiguous shuffled).map (·.number) = (List.range k).map fun i : Nat => 1 + (i : Int))
      ∧ first? 1 shuffled = some ⟨1, 4, "a"⟩
      ∧ isInt64 (sizeSum (contiguous shuffled))
      ∧ totalSize (contiguous shuffled) = 7
      ∧ IsReordered shuffled ascending
      ∧ contiguous ascending = contiguous shuffled := by
  obtain ⟨hrun, hfirst, hsize, hreordered⟩ := contiguous_isLongest shuffled
  have hsame : contiguous ascending = contiguous shuffled :=
    (hreordered _ isReordered_shuffled).1
  have hcounted : contiguous shuffled = [⟨1, 4, "a"⟩, ⟨2, -2, "d"⟩, ⟨3, 5, "c"⟩] := by
    rw [← hsame, contiguous, List.mergeSort_of_pairwise (by decide)]
    decide
  have hfits : isInt64 (sizeSum (contiguous shuffled)) := by
    rw [hcounted]
    decide
  have htotal : totalSize (contiguous shuffled) = 7 := by
    rw [hsize hfits, hcounted]
    decide
  refine ⟨hrun, hfirst ⟨1, 4, "a"⟩ ?_, hfits, htotal, isReordered_shuffled, hsame⟩
  rw [hcounted]
  exact List.mem_cons_self

end SharedMemos.Upload
