import Mathlib.Algebra.Order.Field.Power
import Mathlib.Data.Rat.Cast.Order
import Mathlib.Tactic.FieldSimp
import Mathlib.Tactic.Linarith
import Mathlib.Tactic.Positivity
import Mathlib.Tactic.Ring
import SharedMemos.Decimal.Binary64

/-!
# Rounding stays below the numbers of the format

To round a number to the format is to take a neighbour of it on a grid of multiples of a power of
two. So a number is never rounded past one of the format that it lies below: with fifty-three binary
digits that number lies on the grid itself, since the grid around a smaller number is as fine or
finer (`Binary64.ofRatio_atMost`). Nothing else about rounding is needed to bound what a chain of
rounded operations gives, however far its result may be from the exact one.

Quotients are compared as rational numbers, where the powers of the grid can be taken apart.

## Main definitions

* `Ratio.value` — a quotient as a rational number
* `Binary64.AtMost` — a number is finite and its magnitude is bounded
* `Binary64.IsOfFormat` — a number of the format that bounds others

## Main results

* `Ratio.floorAt_le`, `Ratio.lt_floorAt` — the whole part on a grid
* `Binary64.nearestMultiple_le`, `Binary64.gridExponent_le` — a bound that is on the grid
* `Binary64.ofRatio_atMost` — rounding does not pass a number of the format
* `Binary64.mulRatio_atMost`, `Binary64.divTen_atMost` — neither do rounded products and quotients
* `Binary64.value_tenPower`, `Binary64.le_value_tenPower` — powers of ten as they are rounded
-/

namespace SharedMemos.Decimal

namespace Ratio

variable {x y : Ratio} {b : Nat} {e : Int}

/-- The rational number. -/
def value (x : Ratio) : ℚ :=
  x.num / x.den

theorem value_nonneg (x : Ratio) : 0 ≤ x.value :=
  div_nonneg (Nat.cast_nonneg _) (Nat.cast_nonneg _)

theorem den_scaled_pos (n : Nat) (hb : 0 < b) (e : Int) : 0 < (scaled n b e).den := by
  cases e with
  | ofNat k => exact Nat.one_pos
  | negSucc k => exact Nat.pow_pos hb

theorem value_scaled (n b : Nat) (e : Int) : (scaled n b e).value = n * (b : ℚ) ^ e := by
  cases e with
  | ofNat k =>
    show ((n * b ^ k : Nat) : ℚ) / ((1 : Nat) : ℚ) = _
    rw [Int.ofNat_eq_natCast, zpow_natCast]
    push_cast
    ring
  | negSucc k =>
    show (n : ℚ) / ((b ^ (k + 1) : Nat) : ℚ) = _
    rw [zpow_negSucc]
    push_cast
    rfl

theorem le_iff (hx : 0 < x.den) (hy : 0 < y.den) : x.le y ↔ x.value ≤ y.value := by
  rw [le, decide_eq_true_eq, value, value, div_le_div_iff₀ (Nat.cast_pos.mpr hx)
    (Nat.cast_pos.mpr hy)]
  exact_mod_cast Iff.rfl

theorem lt_iff (hx : 0 < x.den) (hy : 0 < y.den) : x.lt y ↔ x.value < y.value := by
  rw [lt, decide_eq_true_eq, value, value, div_lt_div_iff₀ (Nat.cast_pos.mpr hx)
    (Nat.cast_pos.mpr hy)]
  exact_mod_cast Iff.rfl

theorem value_mul (x y : Ratio) : (x.mul y).value = x.value * y.value := by
  rw [mul, value, value, value]
  push_cast
  exact (div_mul_div_comm _ _ _ _).symm

theorem value_inverse (y : Ratio) : (Ratio.div ⟨1, 1⟩ y).value = y.value⁻¹ := by
  rw [div, value, value, inv_div]
  push_cast
  ring

/-- The whole part on a grid is below the number. -/
theorem floorAt_le (hx : 0 < x.den) (hb : 0 < b) : (x.floorAt b e : ℚ) * (b : ℚ) ^ e ≤ x.value := by
  have hx' : (0 : ℚ) < x.den := Nat.cast_pos.mpr hx
  have hb' : (0 : ℚ) < b := Nat.cast_pos.mpr hb
  rw [value, le_div_iff₀ hx']
  cases e with
  | ofNat k =>
    rw [Int.ofNat_eq_natCast, zpow_natCast]
    have h : x.num / (x.den * b ^ k) * (x.den * b ^ k) ≤ x.num := Nat.div_mul_le_self _ _
    calc ((x.num / (x.den * b ^ k) : Nat) : ℚ) * (b : ℚ) ^ k * x.den
        = ((x.num / (x.den * b ^ k) * (x.den * b ^ k) : Nat) : ℚ) := by push_cast; ring
      _ ≤ x.num := Nat.cast_le.mpr h
  | negSucc k =>
    rw [zpow_negSucc, mul_assoc, mul_comm, mul_assoc, inv_mul_le_iff₀ (pow_pos hb' _)]
    have h : x.num * b ^ (k + 1) / x.den * x.den ≤ x.num * b ^ (k + 1) := Nat.div_mul_le_self _ _
    calc (x.den : ℚ) * ((x.num * b ^ (k + 1) / x.den : Nat) : ℚ)
        = ((x.num * b ^ (k + 1) / x.den * x.den : Nat) : ℚ) := by push_cast; ring
      _ ≤ ((x.num * b ^ (k + 1) : Nat) : ℚ) := Nat.cast_le.mpr h
      _ = (b : ℚ) ^ (k + 1) * x.num := by push_cast; ring

/-- The number is below the next point of the grid. -/
theorem lt_floorAt (hx : 0 < x.den) (hb : 0 < b) :
    x.value < ((x.floorAt b e : ℚ) + 1) * (b : ℚ) ^ e := by
  have hx' : (0 : ℚ) < x.den := Nat.cast_pos.mpr hx
  have hb' : (0 : ℚ) < b := Nat.cast_pos.mpr hb
  rw [value, div_lt_iff₀ hx']
  cases e with
  | ofNat k =>
    rw [Int.ofNat_eq_natCast, zpow_natCast]
    have h : x.num < x.den * b ^ k * (x.num / (x.den * b ^ k) + 1) :=
      Nat.lt_mul_div_succ _ (Nat.mul_pos hx (Nat.pow_pos hb))
    calc (x.num : ℚ) < ((x.den * b ^ k * (x.num / (x.den * b ^ k) + 1) : Nat) : ℚ) :=
          Nat.cast_lt.mpr h
      _ = (((x.num / (x.den * b ^ k) : Nat) : ℚ) + 1) * (b : ℚ) ^ k * x.den := by push_cast; ring
  | negSucc k =>
    have h : x.num * b ^ (k + 1) < x.den * (x.num * b ^ (k + 1) / x.den + 1) :=
      Nat.lt_mul_div_succ _ hx
    have h' : (x.num : ℚ) * (b : ℚ) ^ (k + 1)
        < x.den * (((x.num * b ^ (k + 1) / x.den : Nat) : ℚ) + 1) := by
      exact_mod_cast h
    rw [zpow_negSucc, mul_right_comm, ← div_eq_mul_inv, lt_div_iff₀ (pow_pos hb' _)]
    calc (x.num : ℚ) * (b : ℚ) ^ (k + 1)
        < x.den * (((x.num * b ^ (k + 1) / x.den : Nat) : ℚ) + 1) := h'
      _ = (((x.num * b ^ (k + 1) / x.den : Nat) : ℚ) + 1) * x.den := mul_comm _ _

end Ratio

namespace Binary64

variable {x : Ratio} {y : Binary64} {e f : Int} {n : Nat} {bound : ℚ}

/-! ### One rounding -/

theorem floorAt_two_le (hx : 0 < x.den) (e : Int) :
    (x.floorAt 2 e : ℚ) * (2 : ℚ) ^ e ≤ x.value :=
  Ratio.floorAt_le hx two_pos

theorem roundEven_le (q : Nat) (order : Ordering) : roundEven q order ≤ q + 1 := by
  cases order with
  | lt => exact Nat.le_succ q
  | gt => exact Nat.le_refl _
  | eq =>
    rw [roundEven]
    split
    · exact Nat.le_succ q
    · exact Nat.le_refl _

/-- What is rounded on a grid does not pass a bound that is on it. -/
theorem nearestMultiple_le (hx : 0 < x.den) (h : x.value ≤ n * (2 : ℚ) ^ e) :
    nearestMultiple x e ≤ n := by
  have hgrid : (0 : ℚ) < (2 : ℚ) ^ e := zpow_pos two_pos e
  have hfloor := floorAt_two_le hx e
  have hle : x.floorAt 2 e ≤ n := by
    exact_mod_cast le_of_mul_le_mul_right (hfloor.trans h) hgrid
  rcases Nat.lt_or_eq_of_le hle with hlt | heq
  · exact (roundEven_le _ _).trans hlt
  · -- the number is the bound, and nearer to it than the middle to the next point
    have hhalf : compare (x.num * (Ratio.scaled (2 * x.floorAt 2 e + 1) 2 (e - 1)).den)
        ((Ratio.scaled (2 * x.floorAt 2 e + 1) 2 (e - 1)).num * x.den) = .lt := by
      have hbelow : x.lt (Ratio.scaled (2 * x.floorAt 2 e + 1) 2 (e - 1)) := by
        rw [Ratio.lt_iff hx (Ratio.den_scaled_pos _ two_pos _), Ratio.value_scaled, heq]
        have hstep : ((2 : Nat) : ℚ) ^ e = ((2 : Nat) : ℚ) ^ (e - 1) * 2 := by
          rw [zpow_sub_one₀ (by norm_num)]
          push_cast
          ring
        have hpos : (0 : ℚ) < ((2 : Nat) : ℚ) ^ (e - 1) := zpow_pos (by norm_num) _
        calc x.value ≤ n * (2 : ℚ) ^ e := h
          _ = (2 * n : ℚ) * ((2 : Nat) : ℚ) ^ (e - 1) := by
              rw [show (2 : ℚ) = ((2 : Nat) : ℚ) by norm_num, hstep]
              push_cast
              ring
          _ < ((2 * n + 1 : Nat) : ℚ) * ((2 : Nat) : ℚ) ^ (e - 1) := by
              refine mul_lt_mul_of_pos_right ?_ hpos
              push_cast
              linarith
      exact Nat.compare_eq_lt.mpr (of_decide_eq_true hbelow)
    rw [nearestMultiple, hhalf]
    exact hle

/-- A positive number has fifty-three binary digits on the grid around it, unless it is among the
smallest. -/
theorem gridExponent_spec (hn : x.num ≠ 0) (hx : 0 < x.den) :
    gridExponent x = minExponent ∨ (leadingDigit : ℚ) * (2 : ℚ) ^ gridExponent x ≤ x.value := by
  have hden' : (0 : ℚ) < x.den := Nat.cast_pos.mpr hx
  have hfar : (2 : ℚ) ^ ((Nat.log2 x.num : Int) - Nat.log2 x.den - 1) ≤ x.value := by
    have hnum : (2 : ℚ) ^ (Nat.log2 x.num : Int) ≤ x.num := by
      rw [zpow_natCast]
      exact_mod_cast Nat.log2_self_le hn
    have hden : (x.den : ℚ) ≤ (2 : ℚ) ^ ((Nat.log2 x.den : Int) + 1) := by
      rw [← Int.natCast_succ, zpow_natCast]
      exact_mod_cast (Nat.lt_log2_self (n := x.den)).le
    rw [Ratio.value, le_div_iff₀ hden', sub_sub, zpow_sub₀ two_ne_zero, div_mul_eq_mul_div,
      div_le_iff₀ (zpow_pos two_pos _)]
    calc (2 : ℚ) ^ (Nat.log2 x.num : Int) * x.den
        ≤ x.num * x.den := mul_le_mul_of_nonneg_right hnum hden'.le
      _ ≤ x.num * (2 : ℚ) ^ ((Nat.log2 x.den : Int) + 1) :=
          mul_le_mul_of_nonneg_left hden (Nat.cast_nonneg _)
  have hleading : (leadingDigit : ℚ) = (2 : ℚ) ^ (52 : Int) := by
    norm_num [leadingDigit]
  have hspec : ∀ guess : Int, guess = (Nat.log2 x.num : Int) - Nat.log2 x.den - 52 →
      (leadingDigit : ℚ) * (2 : ℚ) ^ (if x.floorAt 2 guess < leadingDigit then guess - 1 else guess)
        ≤ x.value := by
    intro guess hguess
    split
    · rw [hleading, ← zpow_add₀ two_ne_zero, hguess]
      convert hfar using 2
      ring
    · rename_i hfull
      have hdigits : (leadingDigit : ℚ) ≤ x.floorAt 2 guess := by exact_mod_cast not_lt.mp hfull
      exact (mul_le_mul_of_nonneg_right hdigits (zpow_pos two_pos _).le).trans
        (floorAt_two_le hx guess)
  rw [gridExponent]
  rcases max_choice (if x.floorAt 2 ((Nat.log2 x.num : Int) - Nat.log2 x.den - 52) < leadingDigit
      then (Nat.log2 x.num : Int) - Nat.log2 x.den - 52 - 1
      else (Nat.log2 x.num : Int) - Nat.log2 x.den - 52) minExponent with hmax | hmax
  · right
    rw [hmax]
    exact hspec _ rfl
  · exact .inl hmax

/-- The grid around a number is no coarser than that of a bound in fifty-three digits. -/
theorem gridExponent_le (hn : x.num ≠ 0) (hx : 0 < x.den) (hf : minExponent ≤ f)
    (h : x.value < 2 * leadingDigit * (2 : ℚ) ^ f) : gridExponent x ≤ f := by
  rcases gridExponent_spec hn hx with hmin | hfull
  · rw [hmin]
    exact hf
  · have hpos : (0 : ℚ) < leadingDigit := by norm_num [leadingDigit]
    have hlt : (2 : ℚ) ^ gridExponent x < (2 : ℚ) ^ (f + 1) := by
      refine lt_of_mul_lt_mul_left ?_ hpos.le
      calc (leadingDigit : ℚ) * (2 : ℚ) ^ gridExponent x ≤ x.value := hfull
        _ < 2 * leadingDigit * (2 : ℚ) ^ f := h
        _ = leadingDigit * (2 : ℚ) ^ (f + 1) := by
            rw [zpow_add_one₀ two_ne_zero]
            ring
    exact Int.lt_add_one_iff.mp ((zpow_lt_zpow_iff_right₀ one_lt_two).mp hlt)

/-- Is the number finite, and its magnitude at most a bound? -/
def AtMost (bound : ℚ) : Binary64 → Prop
  | finite _ m e => m * (2 : ℚ) ^ e ≤ bound
  | _ => False

theorem value_magnitude (m : Nat) (e : Int) : (magnitude m e).value = m * (2 : ℚ) ^ e :=
  Ratio.value_scaled m 2 e

theorem isWithin_iff (n : Nat) (y : Binary64) : y.isWithin n ↔ y.AtMost n := by
  cases y with
  | nan => simp [isWithin, AtMost]
  | infinite negative => simp [isWithin, AtMost]
  | finite negative m e =>
    have hden : 0 < (magnitude m e).den := Ratio.den_scaled_pos _ two_pos _
    rw [isWithin, Ratio.le_iff hden Nat.one_pos, value_magnitude, AtMost, Ratio.value]
    simp

theorem atMost_zero (negative : Bool) (e : Int) (h : 0 ≤ bound) :
    (finite negative 0 e).AtMost bound := by
  rw [AtMost, Nat.cast_zero, zero_mul]
  exact h

theorem AtMost.mono (h : y.AtMost bound) {more : ℚ} (hmore : bound ≤ more) : y.AtMost more := by
  cases y with
  | finite negative m e => exact le_trans h hmore
  | _ => exact h

theorem AtMost.neg (h : y.AtMost bound) : y.neg.AtMost bound := by
  cases y with
  | finite negative m e => exact h
  | _ => exact h

/-- A number of the format that is neither too small nor too large for a grid. -/
structure IsOfFormat (n : Nat) (f : Int) : Prop where
  digits : n < 2 * leadingDigit
  small : minExponent ≤ f
  large : f < maxExponent

/-- **Rounding does not pass a number of the format.** -/
theorem ofRatio_atMost (negative : Bool) (hx : 0 < x.den) (hn : IsOfFormat n f)
    (h : x.value ≤ n * (2 : ℚ) ^ f) : (ofRatio negative x).AtMost (n * (2 : ℚ) ^ f) := by
  have hbound : (0 : ℚ) ≤ n * (2 : ℚ) ^ f :=
    mul_nonneg (Nat.cast_nonneg _) (zpow_pos two_pos _).le
  rw [ofRatio]
  split
  · exact atMost_zero _ _ hbound
  · rename_i hnum
    have hdigits : (n : ℚ) < 2 * leadingDigit := by exact_mod_cast hn.digits
    have hgrid : gridExponent x ≤ f := by
      refine gridExponent_le hnum hx hn.small (h.trans_lt ?_)
      exact mul_lt_mul_of_pos_right hdigits (zpow_pos two_pos _)
    -- the bound is on the grid of the number
    obtain ⟨k, rfl⟩ := Int.le.dest hgrid
    have hscale : (n : ℚ) * (2 : ℚ) ^ (gridExponent x + k)
        = (n * 2 ^ k : Nat) * (2 : ℚ) ^ gridExponent x := by
      rw [zpow_add₀ two_ne_zero, zpow_natCast]
      push_cast
      ring
    have hnearest : (nearestMultiple x (gridExponent x) : ℚ) * (2 : ℚ) ^ gridExponent x
        ≤ n * (2 : ℚ) ^ (gridExponent x + k) := by
      rw [hscale] at h ⊢
      refine mul_le_mul_of_nonneg_right ?_ (zpow_pos two_pos _).le
      exact_mod_cast nearestMultiple_le hx h
    have hfinite : gridExponent x < maxExponent :=
      lt_of_le_of_lt hgrid hn.large
    dsimp only
    split
    · rename_i hcarry
      rw [if_neg (not_lt.mpr (Int.add_one_le_iff.mpr hfinite)), AtMost]
      refine le_trans (le_of_eq ?_) hnearest
      rw [hcarry, zpow_add_one₀ two_ne_zero]
      push_cast
      ring
    · rw [if_neg (not_lt.mpr hfinite.le)]
      exact hnearest

/-- A natural number is not rounded past a number of the format. -/
theorem ofNat_atMost {k : Nat} (hn : IsOfFormat n f) (h : (k : ℚ) ≤ n * (2 : ℚ) ^ f) :
    (ofNat k).AtMost (n * (2 : ℚ) ^ f) := by
  refine ofRatio_atMost false Nat.one_pos hn ?_
  rw [Ratio.value, Nat.cast_one, div_one]
  exact h

/-- Neither is a product. -/
theorem mulRatio_atMost (hx : 0 < x.den) (hy : y.AtMost bound) (hn : IsOfFormat n f)
    (h : bound * x.value ≤ n * (2 : ℚ) ^ f) : (y.mulRatio x).AtMost (n * (2 : ℚ) ^ f) := by
  cases y with
  | finite negative m e =>
    refine ofRatio_atMost negative (Nat.mul_pos (Ratio.den_scaled_pos m two_pos e) hx) hn ?_
    rw [Ratio.value_mul, value_magnitude]
    exact (mul_le_mul_of_nonneg_right hy x.value_nonneg).trans h
  | _ => exact hy.elim

/-! ### Powers of ten -/

section

variable {k : Nat}

/-- The first powers of ten are numbers of the format. -/
theorem tenPower_exact : ∀ k < 20, 0 < (tenPower k).den
    ∧ (tenPower k).num = 10 ^ k * (tenPower k).den := by
  decide +kernel

/-- The others are large, as they are rounded. -/
theorem tenPower_large : ∀ k < 309, 20 ≤ k → 0 < (tenPower k).den
    ∧ 2 ^ 64 * (tenPower k).den ≤ (tenPower k).num := by
  decide +kernel

theorem value_tenPower (hk : k < 20) : (tenPower k).value = 10 ^ k := by
  obtain ⟨hden, hnum⟩ := tenPower_exact k hk
  have hden' : ((tenPower k).den : ℚ) ≠ 0 := Nat.cast_ne_zero.mpr hden.ne'
  rw [Ratio.value, hnum, Nat.cast_mul, mul_div_cancel_right₀ _ hden']
  norm_num

theorem le_value_tenPower (hk : 20 ≤ k) (hmax : k ≤ 308) : 2 ^ 64 ≤ (tenPower k).value := by
  obtain ⟨hden, hnum⟩ := tenPower_large k (Nat.lt_succ_of_le hmax) hk
  rw [Ratio.value, le_div_iff₀ (Nat.cast_pos.mpr hden)]
  exact_mod_cast hnum

theorem den_tenPower_pos (hmax : k ≤ 308) : 0 < (tenPower k).den := by
  rcases Nat.lt_or_ge k 20 with hk | hk
  · exact (tenPower_exact k hk).1
  · exact (tenPower_large k (Nat.lt_succ_of_le hmax) hk).1

theorem one_le_value_tenPower (hmax : k ≤ 308) : 1 ≤ (tenPower k).value := by
  rcases Nat.lt_or_ge k 20 with hk | hk
  · rw [value_tenPower hk]
    exact one_le_pow₀ (by norm_num)
  · exact le_trans (by norm_num) (le_value_tenPower hk hmax)

/-- A quotient by a power of ten is not rounded past a number of the format. -/
theorem divTen_atMost (hmax : k ≤ 308) (hy : y.AtMost bound) (hn : IsOfFormat n f)
    (h : bound ≤ n * (2 : ℚ) ^ f * (tenPower k).value) : (y.divTen k).AtMost (n * (2 : ℚ) ^ f) := by
  have hpos : 0 < (tenPower k).value := lt_of_lt_of_le one_pos (one_le_value_tenPower hmax)
  have hnum : 0 < (tenPower k).num := by
    refine Nat.pos_of_ne_zero fun hzero => hpos.ne' ?_
    rw [Ratio.value, hzero, Nat.cast_zero, zero_div]
  refine mulRatio_atMost (Nat.mul_pos Nat.one_pos hnum) hy hn ?_
  rw [Ratio.value_inverse, ← div_eq_mul_inv, div_le_iff₀ hpos]
  exact h

theorem isOfFormat_one : IsOfFormat 1 0 :=
  ⟨by decide, by decide, by decide⟩

/-- What is small stays so. -/
theorem divTen_atMost_one (hmax : k ≤ 308) (hy : y.AtMost 1) : (y.divTen k).AtMost 1 := by
  have h := divTen_atMost hmax hy isOfFormat_one (by simpa using one_le_value_tenPower hmax)
  simpa using h

/-- A number of sixty-four binary digits is small after a division by a large power of ten. -/
theorem divTen_atMost_one_of_large (hk : 20 ≤ k) (hmax : k ≤ 308) (hy : y.AtMost (2 ^ 64)) :
    (y.divTen k).AtMost 1 := by
  have h := divTen_atMost hmax hy isOfFormat_one (by simpa using le_value_tenPower hk hmax)
  simpa using h

end

end Binary64

end SharedMemos.Decimal
