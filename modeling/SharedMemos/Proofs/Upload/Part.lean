import SharedMemos.Upload.Part
import Mathlib.Algebra.Order.BigOperators.Group.List
import Mathlib.Algebra.Order.Ring.Int

/-!
# What has been received in parts

The parts that count are numbered from one without a gap, whatever else the store reports. Their
size is counted in a 64-bit word, which is exact as long as the exact size fits in one.

## Main results

* `contiguous_isRun` — the parts that count are a run, and none is missing
* `totalSize_of_fits` — their size is exact where it fits
* `wrapInt64_of_gt` — a sum past the end of a word comes out negative
-/

namespace SharedMemos.Upload

open SharedMemos.Text

variable {n : Int} {parts : List Part}

/-- The size of parts together. -/
def sizeSum (parts : List Part) : Int :=
  (parts.map (·.size)).sum

theorem isInt64_iff : isInt64 n ↔ minInt64 ≤ n ∧ n ≤ maxInt64 := by
  rw [isInt64, Bool.and_eq_true, decide_eq_true_iff, decide_eq_true_iff]

theorem wrapInt64_of_isInt64 (h : isInt64 n) : wrapInt64 n = n := by
  have hrange := isInt64_iff.mp h
  simp only [minInt64, maxInt64] at hrange
  exact Int.bmod_eq_of_le (by simp only [wordCount64]; omega) (by simp only [wordCount64]; omega)

theorem isInt64_wrapInt64 (n : Int) : isInt64 (wrapInt64 n) := by
  have hle := Int.le_bmod (x := n) (m := wordCount64) (by decide)
  have hlt := Int.bmod_lt (x := n) (m := wordCount64) (by decide)
  rw [isInt64_iff]
  simp only [wrapInt64, wordCount64, minInt64, maxInt64] at *
  omega

/-- **A sum past the end of a word comes out negative.** -/
theorem wrapInt64_of_gt {m : Int} (hm : isInt64 m) (hn : isInt64 n)
    (hover : maxInt64 < m + n) : wrapInt64 (m + n) < 0 := by
  have hm := isInt64_iff.mp hm
  have hn := isInt64_iff.mp hn
  simp only [minInt64, maxInt64] at hm hn hover
  have hwrap : wrapInt64 (m + n) = m + n - wordCount64 := by
    rw [wrapInt64, ← Int.sub_bmod_right]
    refine Int.bmod_eq_of_le ?_ ?_ <;> · simp only [wordCount64]; omega
  rw [hwrap]
  simp only [wordCount64]
  omega

/-- Counting round at each part comes to counting round once. -/
theorem totalSize_eq (parts : List Part) : totalSize parts = wrapInt64 (sizeSum parts) := by
  have hfrom : ∀ start : Int, parts.foldl (fun n p => wrapInt64 (n + p.size)) (wrapInt64 start)
      = wrapInt64 (start + sizeSum parts) := by
    induction parts with
    | nil =>
      intro start
      rw [sizeSum, List.map_nil, List.sum_nil, Int.add_zero]
      rfl
    | cons p parts ih =>
      intro start
      have hstep : wrapInt64 (wrapInt64 start + p.size) = wrapInt64 (start + p.size) :=
        Int.bmod_add_bmod
      rw [List.foldl_cons, hstep, ih, sizeSum, sizeSum, List.map_cons, List.sum_cons, Int.add_assoc]
  have hzero := hfrom 0
  rwa [Int.zero_add] at hzero

/-- **The size of parts is exact where it fits in a word.** -/
theorem totalSize_of_fits (h : isInt64 (sizeSum parts)) : totalSize parts = sizeSum parts := by
  rw [totalSize_eq, wrapInt64_of_isInt64 h]

theorem isInt64_totalSize (parts : List Part) : isInt64 (totalSize parts) := by
  rw [totalSize_eq]
  exact isInt64_wrapInt64 _

/-! ### The parts that count -/

/-- A run of parts: they are numbered from one without a gap, and the next number is missing. -/
structure IsRun (parts run : List Part) : Prop where
  among : ∀ p ∈ run, p ∈ parts
  numbers : run.map (·.number) = (List.range run.length).map fun (i : Nat) => 1 + (i : Int)
  ends : ∀ p ∈ parts, p.number ≠ 1 + (run.length : Int)

theorem runFrom_sublist (parts : List Part) (next : Int) : (runFrom next parts).Sublist parts := by
  fun_induction runFrom next parts with
  | case1 => exact .slnil
  | case2 _ p parts _ ih => exact ih.cons p
  | case3 => exact List.nil_sublist _
  | case4 _ p parts _ _ ih => exact ih.cons_cons p

theorem runFrom_numbers (parts : List Part) (next : Int) :
    (runFrom next parts).map (·.number)
      = (List.range (runFrom next parts).length).map fun (i : Nat) => next + (i : Int) := by
  fun_induction runFrom next parts with
  | case1 => rfl
  | case2 _ _ _ _ ih => exact ih
  | case3 => rfl
  | case4 next p parts hle hge ih =>
    have hnumber : p.number = next := by omega
    rw [List.map_cons, ih, List.length_cons, List.range_succ_eq_map, List.map_cons, List.map_map,
      hnumber]
    refine congrArg₂ _ (Int.add_zero next).symm (List.map_congr_left fun i _ => ?_)
    show next + 1 + (i : Int) = next + ((i + 1 : Nat) : Int)
    omega

/-- Where a list in ascending order has no more parts for the run, no part has the next number. -/
theorem runFrom_ends (next : Int) (h : parts.Pairwise fun p q => p.number ≤ q.number) :
    ∀ p ∈ parts, p.number ≠ next + ((runFrom next parts).length : Int) := by
  fun_induction runFrom next parts with
  | case1 => exact fun p hp => absurd hp List.not_mem_nil
  | case2 next p parts hless ih =>
    intro q hq
    rcases List.mem_cons.mp hq with rfl | hq
    · omega
    · exact ih h.of_cons q hq
  | case3 next p parts _ hgap =>
    intro q hq
    have hle : p.number ≤ q.number := by
      rcases List.mem_cons.mp hq with rfl | hq
      · exact Int.le_refl _
      · exact List.rel_of_pairwise_cons h hq
    rw [List.length_nil]
    omega
  | case4 next p parts _ _ ih =>
    intro q hq
    rw [List.length_cons]
    rcases List.mem_cons.mp hq with rfl | hq
    · omega
    · have hne := ih h.of_cons q hq
      omega

theorem numbered_trans (p q r : Part) (hpq : decide (p.number ≤ q.number) = true)
    (hqr : decide (q.number ≤ r.number) = true) : decide (p.number ≤ r.number) = true :=
  decide_eq_true (Int.le_trans (of_decide_eq_true hpq) (of_decide_eq_true hqr))

theorem numbered_total (p q : Part) :
    (decide (p.number ≤ q.number) || decide (q.number ≤ p.number)) = true := by
  rw [Bool.or_eq_true, decide_eq_true_iff, decide_eq_true_iff]
  exact Int.le_total _ _

/-- **The parts that count are a run.** -/
theorem contiguous_isRun (parts : List Part) : IsRun parts (contiguous parts) where
  among p hp := List.mem_mergeSort.mp ((runFrom_sublist _ 1).subset hp)
  numbers := runFrom_numbers _ 1
  ends p hp := by
    refine runFrom_ends 1 ?_ p (List.mem_mergeSort.mpr hp)
    exact (List.pairwise_mergeSort numbered_trans numbered_total parts).imp of_decide_eq_true

end SharedMemos.Upload
