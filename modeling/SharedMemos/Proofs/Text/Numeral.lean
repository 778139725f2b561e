import SharedMemos.Text.Numeral

/-!
# Numerals read back

A written integer is read back as itself, wherever it lies in the range of the reader. The only
point to see is that a numeral without a sign starts with a digit, so that no sign is mistaken.

## Main results

* `digitsValue?_eq` — what decimal digits are worth
* `nat64?_showNat`, `int64?_showInt` — the two round trips
* `showPadded_injective` — zeros in front do not matter
-/

namespace SharedMemos.Text

theorem digitsValue?_eq {digits : List Char} (hne : digits ≠ [])
    (hdigits : ∀ c ∈ digits, c.isDigit = true) :
    digitsValue? digits = some (Nat.ofDigitChars 10 digits 0) := by
  rw [digitsValue?, List.isEmpty_eq_false_iff.mpr hne, List.all_eq_true.mpr hdigits,
    Nat.ofDigitChars_eq_foldl]
  rfl

theorem digitsValue?_toDigits (n : Nat) : digitsValue? (Nat.toDigits 10 n) = some n := by
  rw [digitsValue?_eq Nat.toDigits_ne_nil fun c hc =>
    Nat.isDigit_of_mem_toDigits (by decide) (by decide) hc, Nat.ofDigitChars_ten_toDigits]

/-- The first digit is no sign. -/
theorem exists_toDigits_eq_cons (n : Nat) :
    ∃ c cs, Nat.toDigits 10 n = c :: cs ∧ c ≠ '+' ∧ c ≠ '-' := by
  cases h : Nat.toDigits 10 n with
  | nil => exact absurd h Nat.toDigits_ne_nil
  | cons c cs =>
    have hc : c.isDigit = true :=
      Nat.isDigit_of_mem_toDigits (n := n) (b := 10) (by decide) (by decide) (by simp [h])
    refine ⟨c, cs, rfl, ?_, ?_⟩ <;> rintro rfl <;> revert hc <;> decide

/-- No numeral but that of zero starts with a zero. -/
theorem head?_toDigits_ne_zero : ∀ {n : Nat}, n ≠ 0 → (Nat.toDigits 10 n).head? ≠ some '0' := by
  intro n
  induction n using Nat.strongRecOn with
  | _ n ih =>
    intro hn
    rcases Nat.lt_or_ge n 10 with hlt | hge
    · have hsmall : ∀ k < 10, k ≠ 0 → some (Nat.digitChar k) ≠ some '0' := by decide
      rw [Nat.toDigits_of_lt_base hlt, List.head?_cons]
      exact hsmall n hlt hn
    · obtain ⟨c, cs, hcs, -⟩ := exists_toDigits_eq_cons (n / 10)
      have hshorter := ih (n / 10) (by omega) (by omega)
      rw [hcs, List.head?_cons] at hshorter
      rwa [Nat.toDigits_of_base_le (by decide) hge, hcs, List.cons_append, List.head?_cons]

theorem natural?_showNat {bound n : Nat} (h : n ≤ bound) : natural? bound (showNat n) = some n := by
  obtain ⟨c, cs, hcs, hplus, -⟩ := exists_toDigits_eq_cons n
  have hvalue := digitsValue?_toDigits n
  rw [hcs] at hvalue
  simp only [natural?, showNat, String.toList_ofList, hcs]
  split
  · simp_all
  · rw [hvalue]
    simp [h]

theorem nat64?_showNat {n : Nat} (h : n ≤ maxNat64) : nat64? (showNat n) = some n :=
  natural?_showNat h

theorem showNat_ne_empty (n : Nat) : showNat n ≠ "" := by
  intro h
  have hdigits := congrArg String.toList h
  rw [showNat, String.toList_ofList] at hdigits
  exact Nat.toDigits_ne_nil hdigits

/-- Digits are read as the number they are worth, zeros in front of it or not. -/
theorem int64?_ofList {digits : List Char} (hne : digits ≠ [])
    (hdigits : ∀ c ∈ digits, c.isDigit = true)
    (hvalue : Nat.ofDigitChars 10 digits 0 ≤ maxInt64) :
    int64? (String.ofList digits) = some (Nat.ofDigitChars 10 digits 0 : Int) := by
  rw [int64?, integer?, String.toList_ofList]
  split
  · exact absurd (hdigits '-' List.mem_cons_self) (by decide)
  · exact absurd (hdigits '+' List.mem_cons_self) (by decide)
  · rw [digitsValue?_eq hne hdigits, Option.filter_some_pos (by simpa using hvalue)]
    rfl

theorem int64?_showInt {n : Int} (hlow : minInt64 ≤ n) (hhigh : n ≤ maxInt64) :
    int64? (showInt n) = some n := by
  cases n with
  | ofNat k =>
    have hread := int64?_ofList (Nat.toDigits_ne_nil (n := k) (b := 10))
      (fun c hc => Nat.isDigit_of_mem_toDigits (by decide) (by decide) hc)
    rw [Nat.ofDigitChars_ten_toDigits] at hread
    exact hread (Int.ofNat_le.mp hhigh)
  | negSucc k =>
    have hk : k ≤ maxInt64 := by
      simp only [minInt64, maxInt64] at hlow ⊢
      omega
    simp only [int64?, integer?, showInt, String.toList_ofList, digitsValue?_toDigits]
    rw [Option.filter_some_pos (by simpa using hk)]
    rfl

theorem int64?_le_maxInt64 {s : String} {n : Int} (h : int64? s = some n) : n ≤ maxInt64 := by
  have hunsigned : ∀ {digits : List Char},
      ((digitsValue? digits).filter (· ≤ maxInt64)).map Int.ofNat = some n → n ≤ maxInt64 := by
    intro digits hn
    obtain ⟨k, hk, rfl⟩ := Option.map_eq_some_iff.mp hn
    exact Int.ofNat_le.mpr (of_decide_eq_true (Option.filter_eq_some_iff.mp hk).2)
  rw [int64?, integer?] at h
  split at h
  · obtain ⟨i, hi, rfl⟩ := Option.map_eq_some_iff.mp h
    obtain ⟨k, -, hk⟩ := Option.bind_eq_some_iff.mp hi
    cases hk
    omega
  · exact hunsigned h
  · exact hunsigned h

/-! ### Numerals of a fixed width -/

/-- Zeros in front do not change what a numeral is worth. -/
theorem ofDigitChars_showPadded (width n : Nat) :
    Nat.ofDigitChars 10 (showPadded width n).toList 0 = n := by
  rw [showPadded, String.toList_ofList, Nat.ofDigitChars_append, Nat.ofDigitChars_replicate_zero,
    Nat.mul_zero, Nat.ofDigitChars_ten_toDigits]

theorem showPadded_injective {width m n : Nat} (h : showPadded width m = showPadded width n) :
    m = n := by
  have hworth := ofDigitChars_showPadded width m
  rw [h, ofDigitChars_showPadded] at hworth
  exact hworth.symm

theorem showPadded_ne_empty (width n : Nat) : showPadded width n ≠ "" := by
  intro h
  have hdigits := congrArg String.toList h
  rw [showPadded, String.toList_ofList] at hdigits
  exact Nat.toDigits_ne_nil (List.append_eq_nil_iff.mp hdigits).2

theorem isDigit_of_mem_showPadded {width n : Nat} {c : Char} (h : c ∈ (showPadded width n).toList) :
    c.isDigit = true := by
  rw [showPadded, String.toList_ofList, List.mem_append] at h
  rcases h with hzero | hdigit
  · rw [List.eq_of_mem_replicate hzero]
    rfl
  · exact Nat.isDigit_of_mem_toDigits (by decide) (by decide) hdigit

end SharedMemos.Text
