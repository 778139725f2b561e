import Mathlib.Tactic.IntervalCases
import SharedMemos.Decimal.Shortest
import SharedMemos.Proofs.Decimal.Rounding

/-!
# The shortest text of a number stays below round bounds

The shortest decimal number that reads back as a given one can be larger than it. But it is found
among the neighbours of the number on a grid of multiples of a power of ten, and so it is not beyond
a bound that is on the grid (`Basin.onGrid_le`). A bound of ninety is on all grids that are looked
at; a bound of a hundred and eighty is not on that of the hundreds, where the upper neighbour would
be two hundred. That one is too far away to be a text of a number below the bound
(`upper_lt_200`).

## Main results

* `Ratio.leadingExponent_le` — the leading digit is not above the number
* `shortest_le` — the shortest text of a number of degrees
* `exists_positional` — what positional notation looks like, and what it is worth
-/

namespace SharedMemos.Decimal

/-! ### The leading digit -/

section

variable {n : Nat}

theorem lt_pow_length_toDigits (n : Nat) : n < 10 ^ (Nat.toDigits 10 n).length :=
  (Nat.length_toDigits_le_iff (by decide) Nat.length_toDigits_pos).mp (Nat.le_refl _)

theorem pow_length_toDigits_le (hn : n ≠ 0) : 10 ^ (Nat.toDigits 10 n).length ≤ 10 * n := by
  rcases hlength : (Nat.toDigits 10 n).length with _ | k
  · omega
  · rw [Nat.pow_succ, Nat.mul_comm]
    refine Nat.mul_le_mul_left 10 ?_
    rcases Nat.eq_zero_or_pos k with rfl | hk
    · exact Nat.one_le_iff_ne_zero.mpr hn
    · refine not_lt.mp fun hlt => ?_
      have hshort := (Nat.length_toDigits_le_iff (by decide) hk).mpr hlt
      omega

end

/-- The leading digit is not above the number. -/
theorem Ratio.leadingExponent_le {x : Ratio} (hn : x.num ≠ 0) (hx : 0 < x.den) :
    (10 : ℚ) ^ x.leadingExponent ≤ x.value := by
  rw [leadingExponent]
  split
  · rename_i hle
    have h := (le_iff (den_scaled_pos 1 (by decide) _) hx).mp hle
    rw [value_scaled] at h
    simpa using h
  · have hnum : (10 : ℚ) ^ ((Nat.toDigits 10 x.num).length : Int) ≤ 10 * x.num := by
      rw [zpow_natCast]
      exact_mod_cast pow_length_toDigits_le hn
    have hden : (x.den : ℚ) ≤ (10 : ℚ) ^ ((Nat.toDigits 10 x.den).length : Int) := by
      rw [zpow_natCast]
      exact_mod_cast (lt_pow_length_toDigits x.den).le
    have hpos : (0 : ℚ) < (10 : ℚ) ^ ((Nat.toDigits 10 x.den).length : Int) :=
      zpow_pos (by norm_num) _
    rw [value, le_div_iff₀ (Nat.cast_pos.mpr hx), zpow_sub_one₀ (by norm_num),
      zpow_sub₀ (by norm_num), mul_assoc, div_mul_eq_mul_div, div_le_iff₀ hpos]
    have hten : (0 : ℚ) ≤ x.num := Nat.cast_nonneg _
    calc (10 : ℚ) ^ ((Nat.toDigits 10 x.num).length : Int) * (10⁻¹ * x.den)
        = (10 : ℚ) ^ ((Nat.toDigits 10 x.num).length : Int) / 10 * x.den := by ring
      _ ≤ x.num * x.den := by
          refine mul_le_mul_of_nonneg_right ?_ (Nat.cast_nonneg _)
          rw [div_le_iff₀ (by norm_num), mul_comm]
          exact hnum
      _ ≤ x.num * (10 : ℚ) ^ ((Nat.toDigits 10 x.den).length : Int) :=
          mul_le_mul_of_nonneg_left hden hten

/-! ### Neighbours on a grid -/

theorem Scientific.value_value (d : Scientific) :
    d.value.value = d.digits * (10 : ℚ) ^ d.exponent := by
  rw [Scientific.value, Ratio.value_scaled, Nat.cast_ofNat]

theorem nearerAbove_iff {x : Ratio} (hx : 0 < x.den) (c : Nat) (e : Int) :
    nearerAbove x c e ↔ (2 * c + 1) * (10 : ℚ) ^ e ≤ 2 * x.value := by
  have hdouble : 0 < (Ratio.mk (2 * x.num) x.den).den := hx
  rw [nearerAbove, Ratio.le_iff (Ratio.den_scaled_pos _ (by decide) _) hdouble,
    Ratio.value_scaled, Ratio.value, Ratio.value, Nat.cast_mul, mul_div_assoc]
  push_cast
  rfl

/-- The number that an interval is about lies inside. -/
structure Basin.IsSound (b : Basin) : Prop where
  center : 0 < b.center.den
  lower : 0 < b.lower.den
  upper : 0 < b.upper.den
  above : b.lower.value < b.center.value
  below : b.center.value < b.upper.value

namespace Basin

variable {b : Basin} {x : Ratio} {d : Scientific} {bound : ℚ} {e : Int}

theorem contains_of_eq (hb : b.IsSound) (hx : 0 < x.den) (h : x.value = b.center.value) :
    b.contains x := by
  rw [contains]
  split
  · rw [Bool.and_eq_true, Ratio.le_iff hb.lower hx, Ratio.le_iff hx hb.upper, h]
    exact ⟨hb.above.le, hb.below.le⟩
  · rw [Bool.and_eq_true, Ratio.lt_iff hb.lower hx, Ratio.lt_iff hx hb.upper, h]
    exact ⟨hb.above, hb.below⟩

theorem le_upper_of_contains (hb : b.IsSound) (hx : 0 < x.den) (h : b.contains x) :
    x.value ≤ b.upper.value := by
  rw [contains] at h
  split at h
  · exact (Ratio.le_iff hx hb.upper).mp (Bool.and_eq_true_iff.mp h).2
  · exact ((Ratio.lt_iff hx hb.upper).mp (Bool.and_eq_true_iff.mp h).2).le

theorem floor_le (hb : b.IsSound) (e : Int) :
    (Scientific.mk (b.center.floorAt 10 e) e).value.value ≤ b.center.value := by
  rw [Scientific.value_value]
  exact Ratio.floorAt_le hb.center (by decide)

/-- **A neighbour is not beyond a bound that is on the grid.** -/
theorem onGrid_le (hb : b.IsSound) (h : b.center.value ≤ bound) {n : Nat}
    (hgrid : bound = n * (10 : ℚ) ^ e) (hd : b.onGrid e = some d) : d.value.value ≤ bound := by
  have hbelow := (floor_le hb e).trans h
  have hstep : (0 : ℚ) < (10 : ℚ) ^ e := zpow_pos (by norm_num) e
  have hle : b.center.floorAt 10 e ≤ n := by
    rw [Scientific.value_value, hgrid] at hbelow
    exact_mod_cast le_of_mul_le_mul_right hbelow hstep
  rcases Nat.lt_or_eq_of_le hle with hlt | heq
  · have habove : (Scientific.mk (b.center.floorAt 10 e + 1) e).value.value ≤ bound := by
      rw [Scientific.value_value, hgrid]
      refine mul_le_mul_of_nonneg_right ?_ hstep.le
      exact_mod_cast hlt
    rw [onGrid] at hd
    split at hd
    · cases hd
      split
      · exact habove
      · exact hbelow
    · cases hd
      exact hbelow
    · cases hd
      exact habove
    · cases hd
  · -- the number is the bound, which is on the grid, and the upper neighbour is farther away
    have hcenter : (Scientific.mk (b.center.floorAt 10 e) e).value.value = b.center.value := by
      refine le_antisymm (floor_le hb e) (h.trans (le_of_eq ?_))
      rw [Scientific.value_value, heq, hgrid]
    have hcontains : b.contains (Scientific.mk (b.center.floorAt 10 e) e).value = true :=
      contains_of_eq hb (Ratio.den_scaled_pos _ (by decide) _) hcenter
    have hnearer : nearerAbove b.center (b.center.floorAt 10 e) e = false := by
      refine Bool.eq_false_iff.mpr fun hnearer => ?_
      rw [nearerAbove_iff hb.center, ← hcenter, Scientific.value_value] at hnearer
      linarith
    rw [onGrid, hcontains] at hd
    split at hd
    · cases hd
      rw [if_neg (ne_true_of_eq_false hnearer)]
      exact hbelow
    · cases hd
      exact hbelow
    · rename_i hnot _
      cases hnot
    · cases hd

/-- Where the upper neighbour is too far away, the number itself is the bound. -/
theorem onGrid_le_of_not_contains (hb : b.IsSound)
    (hfar : b.contains (Scientific.mk (b.center.floorAt 10 e + 1) e).value = false)
    (hd : b.onGrid e = some d) : d.value.value ≤ b.center.value := by
  rw [onGrid, hfar] at hd
  split at hd
  · rename_i hnot
    cases hnot
  · cases hd
    exact floor_le hb e
  · rename_i hnot
    cases hnot
  · cases hd

/-- No grid goes beyond a bound that is on all of them. -/
theorem firstGrid_le (hb : b.IsSound) (h : b.center.value ≤ bound) (steps : Nat) :
    ∀ e : Int, (∀ e' ≤ e, ∃ n : Nat, bound = n * (10 : ℚ) ^ e') →
      (b.firstGrid steps e).value.value ≤ bound := by
  induction steps with
  | zero => exact fun e _ => (floor_le hb e).trans h
  | succ steps ih =>
    intro e hgrids
    rw [firstGrid]
    cases hd : b.onGrid e with
    | some d =>
      obtain ⟨n, hgrid⟩ := hgrids e (le_refl e)
      exact onGrid_le hb h hgrid hd
    | none => exact ih (e - 1) fun e' he' => hgrids e' (he'.trans (Int.sub_le_self e (by decide)))

end Basin

/-! ### Degrees -/

section

variable {m : Nat} {q : Int}

theorem value_center (m : Nat) (q : Int) : (Basin.around m q).center.value = m * (2 : ℚ) ^ q := by
  show (Ratio.scaled (4 * m) 2 (q - 2)).value = _
  rw [Ratio.value_scaled, zpow_sub₀ (by norm_num)]
  push_cast
  ring

theorem value_upper (m : Nat) (q : Int) :
    (Basin.around m q).upper.value = m * (2 : ℚ) ^ q + (2 : ℚ) ^ (q - 1) := by
  show (Ratio.scaled (4 * m + 2) 2 (q - 2)).value = _
  rw [Ratio.value_scaled, zpow_sub₀ (by norm_num), zpow_sub_one₀ two_ne_zero]
  push_cast
  ring

theorem around_isSound (hm : 0 < m) (q : Int) : (Basin.around m q).IsSound := by
  refine ⟨Ratio.den_scaled_pos _ two_pos _, Ratio.den_scaled_pos _ two_pos _,
    Ratio.den_scaled_pos _ two_pos _, ?_, ?_⟩
  · have hstep : 0 < if m = Binary64.leadingDigit && decide (Binary64.minExponent < q)
        then 1 else 2 := by
      split <;> decide
    show (Ratio.scaled (4 * m - _) 2 (q - 2)).value < (Ratio.scaled (4 * m) 2 (q - 2)).value
    rw [Ratio.value_scaled, Ratio.value_scaled]
    refine mul_lt_mul_of_pos_right ?_ (zpow_pos (by norm_num) _)
    exact_mod_cast Nat.sub_lt (by omega) hstep
  · rw [value_center, value_upper]
    exact lt_add_of_pos_right _ (zpow_pos two_pos _)

/-- Two hundred is too far from a number between a hundred and a hundred and eighty. -/
theorem upper_lt_200 (hm : 0 < m) (hlow : 100 ≤ m * (2 : ℚ) ^ q)
    (hhigh : m * (2 : ℚ) ^ q ≤ 180) : (Basin.around m q).upper.value < 200 := by
  have hm' : (1 : ℚ) ≤ m := Nat.one_le_cast.mpr hm
  rw [value_upper]
  rcases Int.lt_or_le q 6 with hq | hq
  · have hstep : (2 : ℚ) ^ (q - 1) ≤ (2 : ℚ) ^ (4 : Int) :=
      zpow_le_zpow_right₀ one_le_two (by omega)
    norm_num at hstep
    linarith
  · rcases Int.lt_or_le q 8 with hq' | hq'
    · have hcases : q = 6 ∨ q = 7 := by omega
      rcases hcases with rfl | rfl
      · have hlow' : (100 : ℚ) ≤ ((m * 64 : Nat) : ℚ) := by
          push_cast
          norm_num at hlow
          exact hlow
        have hhigh' : ((m * 64 : Nat) : ℚ) ≤ 180 := by
          push_cast
          norm_num at hhigh
          exact hhigh
        have hlow'' : 100 ≤ m * 64 := by exact_mod_cast hlow'
        have hhigh'' : m * 64 ≤ 180 := by exact_mod_cast hhigh'
        obtain rfl : m = 2 := by omega
        norm_num
      · have hhigh' : ((m * 128 : Nat) : ℚ) ≤ 180 := by
          push_cast
          norm_num at hhigh
          exact hhigh
        have hhigh'' : m * 128 ≤ 180 := by exact_mod_cast hhigh'
        obtain rfl : m = 1 := by omega
        norm_num
    · have hlarge : (2 : ℚ) ^ (8 : Int) ≤ (2 : ℚ) ^ q := zpow_le_zpow_right₀ one_le_two hq'
      have hmore : (2 : ℚ) ^ q ≤ m * (2 : ℚ) ^ q :=
        le_mul_of_one_le_left (zpow_pos two_pos q).le hm'
      norm_num at hlarge
      linarith

/-- Ninety and a hundred and eighty are multiples of ten, and so on all finer grids. -/
theorem degrees_on_grid {bound : ℚ} (hbound : bound = 90 ∨ bound = 180) {e : Int} (he : e ≤ 1) :
    ∃ n : Nat, bound = n * (10 : ℚ) ^ e := by
  obtain ⟨k, hk⟩ := Int.le.dest he
  have hten : (10 : ℚ) = (10 : ℚ) ^ k * (10 : ℚ) ^ e := by
    rw [← zpow_natCast, ← zpow_add₀ (by norm_num), add_comm, hk, zpow_one]
  rcases hbound with rfl | rfl
  · refine ⟨9 * 10 ^ k, ?_⟩
    push_cast
    linarith
  · refine ⟨18 * 10 ^ k, ?_⟩
    push_cast
    linarith

/-- Between one hundred and two hundred there is one hundred. -/
theorem floorAt_hundreds {x : Ratio} (hx : 0 < x.den) (hlow : 100 ≤ x.value)
    (hhigh : x.value < 200) : x.floorAt 10 2 = 1 := by
  have hfloor := Ratio.floorAt_le (b := 10) (e := 2) hx (by decide)
  have hnext := Ratio.lt_floorAt (b := 10) (e := 2) hx (by decide)
  norm_num at hfloor hnext
  have hless : (x.floorAt 10 2 : ℚ) < 2 := by linarith
  have hmore : (0 : ℚ) < x.floorAt 10 2 := by linarith
  have hless' : x.floorAt 10 2 < 2 := by exact_mod_cast hless
  have hmore' : 0 < x.floorAt 10 2 := by exact_mod_cast hmore
  omega

theorem degrees_le_180 {bound : ℚ} (hbound : bound = 90 ∨ bound = 180) : bound ≤ 180 := by
  rcases hbound with rfl | rfl
  · norm_num
  · exact le_refl _

/-- On the grid of the hundreds, a number of degrees gives one hundred or nothing. -/
theorem firstGrid_hundreds_le {bound : ℚ} (hbound : bound = 90 ∨ bound = 180) (hm : 0 < m)
    (hlow : 100 ≤ m * (2 : ℚ) ^ q) (h : m * (2 : ℚ) ^ q ≤ bound) :
    ((Basin.around m q).firstGrid 17 2).value.value ≤ bound := by
  have hb := around_isSound hm q
  have hcenter : (Basin.around m q).center.value ≤ bound := by
    rw [value_center]
    exact h
  have hfar := upper_lt_200 hm hlow (h.trans (degrees_le_180 hbound))
  have hone : (Basin.around m q).center.floorAt 10 2 = 1 := by
    refine floorAt_hundreds hb.center ?_ (hb.below.trans hfar)
    rw [value_center]
    exact hlow
  rw [Basin.firstGrid]
  cases hd : (Basin.around m q).onGrid 2 with
  | none => exact Basin.firstGrid_le hb hcenter 16 _ fun e' he' => degrees_on_grid hbound he'
  | some d =>
    refine (Basin.onGrid_le_of_not_contains hb ?_ hd).trans hcenter
    rw [hone]
    refine Bool.eq_false_iff.mpr fun hcontains => ?_
    have hden : 0 < (Scientific.mk (1 + 1) 2).value.den := Ratio.den_scaled_pos _ (by decide) _
    have hupper := Basin.le_upper_of_contains hb hden hcontains
    rw [Scientific.value_value] at hupper
    norm_num at hupper
    linarith

/-- **The shortest text of a number of degrees is within the same bound.** -/
theorem shortest_le {bound : ℚ} (hbound : bound = 90 ∨ bound = 180) (hm : 0 < m)
    (h : m * (2 : ℚ) ^ q ≤ bound) : (shortest m q).value.value ≤ bound := by
  have hb := around_isSound hm q
  have hpos : 0 < (Basin.around m q).center.value := by
    rw [value_center]
    exact mul_pos (Nat.cast_pos.mpr hm) (zpow_pos two_pos q)
  have hnum : (Basin.around m q).center.num ≠ 0 := by
    intro hzero
    rw [Ratio.value, hzero, Nat.cast_zero, zero_div] at hpos
    exact lt_irrefl _ hpos
  have hleading := Ratio.leadingExponent_le hnum hb.center
  rw [value_center] at hleading
  rw [shortest]
  generalize (Basin.around m q).center.leadingExponent = e at hleading
  rcases Int.lt_or_le e 2 with he | he
  · refine Basin.firstGrid_le hb ?_ 17 e
      fun e' he' => degrees_on_grid hbound (he'.trans (Int.lt_add_one_iff.mp he))
    rw [value_center]
    exact h
  · obtain rfl : e = 2 := by
      have hmost := degrees_le_180 hbound
      have hlt : (10 : ℚ) ^ e < (10 : ℚ) ^ (3 : Int) := by
        norm_num
        linarith
      have hlt' := (zpow_lt_zpow_iff_right₀ (by norm_num)).mp hlt
      omega
    norm_num at hleading
    exact firstGrid_hundreds_le hbound hm hleading h

end

/-! ### Positional notation -/

section

/-- The decimal digits of a number, and zeros before or after them. -/
theorem isDigit_of_mem_append_replicate {n k : Nat} {c : Char}
    (h : c ∈ Nat.toDigits 10 n ∨ c ∈ List.replicate k '0') : c.isDigit = true := by
  rcases h with hdigit | hzero
  · exact Nat.isDigit_of_mem_toDigits (by decide) (by decide) hdigit
  · rw [List.eq_of_mem_replicate hzero]
    rfl

/-- Zeros at the end of a text are left out. -/
theorem exists_dropZeros (cs : List Char) :
    ∃ k, cs = (cs.reverse.dropWhile (· == '0')).reverse ++ List.replicate k '0' := by
  refine ⟨(cs.reverse.takeWhile (· == '0')).length, ?_⟩
  have hzeros : cs.reverse.takeWhile (· == '0')
      = List.replicate (cs.reverse.takeWhile (· == '0')).length '0' := by
    refine List.eq_replicate_iff.mpr ⟨rfl, fun c hc => ?_⟩
    exact eq_of_beq (List.all_eq_true.mp List.all_takeWhile c hc)
  rw [← List.reverse_replicate, ← List.reverse_append, ← hzeros, List.takeWhile_append_dropWhile,
    List.reverse_reverse]

/-- **Positional notation is a whole number and a fraction, which together are worth the number.**
-/
theorem exists_positional (d : Scientific) : ∃ ws fs : List Char, ws ≠ []
    ∧ (∀ c ∈ ws ++ fs, c.isDigit = true)
    ∧ (Nat.ofDigitChars 10 (ws ++ fs) 0 : ℚ) = d.value.value * 10 ^ fs.length
    ∧ d.positional = String.ofList (if fs.isEmpty then ws else ws ++ '.' :: fs) := by
  obtain ⟨digits, exponent⟩ := d
  rw [Scientific.value_value]
  cases exponent with
  | ofNat k =>
    refine ⟨Nat.toDigits 10 digits ++ List.replicate k '0', [], ?_, ?_, ?_, rfl⟩
    · simp
    · intro c hc
      rw [List.append_nil, List.mem_append] at hc
      exact isDigit_of_mem_append_replicate hc
    · rw [List.append_nil, Nat.ofDigitChars_append, Nat.ofDigitChars_replicate_zero,
        Nat.ofDigitChars_ten_toDigits]
      simp [mul_comm]
  | negSucc k =>
    let padded := List.replicate (k + 1 + 1 - (Nat.toDigits 10 digits).length) '0'
      ++ Nat.toDigits 10 digits
    have hlength : k + 1 < padded.length := by
      rw [List.length_append, List.length_replicate]
      omega
    let whole := padded.take (padded.length - (k + 1))
    let rest := padded.drop (padded.length - (k + 1))
    let fraction := (rest.reverse.dropWhile (· == '0')).reverse
    obtain ⟨zeros, hzeros⟩ : ∃ zeros, rest = fraction ++ List.replicate zeros '0' :=
      exists_dropZeros rest
    have hpadded : padded = whole ++ fraction ++ List.replicate zeros '0' := by
      rw [List.append_assoc, ← hzeros, List.take_append_drop]
    have hplaces : fraction.length + zeros = k + 1 := by
      have hrest := congrArg List.length hzeros
      rw [List.length_append, List.length_replicate, List.length_drop] at hrest
      omega
    have hworth : digits = Nat.ofDigitChars 10 (whole ++ fraction) 0 * 10 ^ zeros := by
      have hall : Nat.ofDigitChars 10 padded 0 = digits := by
        rw [Nat.ofDigitChars_append, Nat.ofDigitChars_replicate_zero, Nat.mul_zero,
          Nat.ofDigitChars_ten_toDigits]
      rw [← hall, hpadded, Nat.ofDigitChars_append, Nat.ofDigitChars_replicate_zero, Nat.mul_comm]
    refine ⟨whole, fraction, ?_, fun c hc => ?_, ?_, ?_⟩
    · refine List.ne_nil_of_length_pos ?_
      rw [List.length_take]
      omega
    · have hmem : c ∈ padded := by
        rw [hpadded]
        exact List.mem_append_left _ hc
      exact isDigit_of_mem_append_replicate (List.mem_append.mp hmem).symm
    · rw [hworth, Int.negSucc_eq, zpow_neg]
      have hpower : (10 : ℚ) ^ ((k : Int) + 1) = 10 ^ fraction.length * 10 ^ zeros := by
        rw [← pow_add, hplaces]
        norm_cast
      rw [hpower]
      push_cast
      field_simp
    · rw [Scientific.positional]
      exact (apply_ite String.ofList _ _ _).symm

end

end SharedMemos.Decimal
