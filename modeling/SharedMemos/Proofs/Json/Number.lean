import SharedMemos.Json.Printer
import SharedMemos.Json.Reader
import SharedMemos.Proofs.Decimal.Shortest
import SharedMemos.Proofs.Text.Numeral

/-!
# Numbers of degrees in JSON

What is read from the text of a number need not be that number: a reader that calculates with
rounded powers of ten rounds more than once. For numbers of degrees it is enough that no rounding
goes beyond ninety, or a hundred and eighty. If few places are to be shifted, then the bound shifted
by as many is a number of the format; if many, then what comes out is small.

A number is written with a fraction or with an exponent (`IsUnsigned`). It is followed by what ends
an entry of an object (`IsStop`), which is neither, so that the reader stops there.

## Main results

* `scaled?_atMost` — what is calculated from the digits
* `unsigned?_fraction`, `unsigned?_exponent` — what is read of the two forms
* `exists_floatText` — the texts that are written have these forms
* `readFloat_floatText` — what is written and read back is within the same bound
-/

namespace SharedMemos.Json

open SharedMemos.Text SharedMemos.Decimal Binary64

/-! ### What is calculated from the digits -/

section

variable {bound : ℚ} {x y : Binary64} {whole : Nat} {e : Int}

/-- A bound on degrees is a number of the format, and so it is when it is shifted by a few decimal
places. -/
theorem exists_isOfFormat (hbound : bound = 90 ∨ bound = 180) {k : Nat} (hk : k < 20) :
    ∃ n f, IsOfFormat n f ∧ bound * 10 ^ k = n * (2 : ℚ) ^ f := by
  have hdigits : ∀ k < 20, 45 * 5 ^ k < 2 * leadingDigit := by decide
  have hten : (10 : ℚ) ^ k = 5 ^ k * 2 ^ k := by
    rw [← mul_pow]
    norm_num
  rcases hbound with rfl | rfl
  · refine ⟨45 * 5 ^ k, (k + 1 : Nat), ⟨hdigits k hk, ?_, ?_⟩, ?_⟩
    · rw [minExponent]
      omega
    · rw [maxExponent]
      omega
    · rw [hten, zpow_natCast]
      push_cast
      ring
  · refine ⟨45 * 5 ^ k, (k + 2 : Nat), ⟨hdigits k hk, ?_, ?_⟩, ?_⟩
    · rw [minExponent]
      omega
    · rw [maxExponent]
      omega
    · rw [hten, zpow_natCast]
      push_cast
      ring

theorem one_le_degrees (hbound : bound = 90 ∨ bound = 180) : 1 ≤ bound := by
  rcases hbound with rfl | rfl <;> norm_num

/-- What is small stays so, however many places it is shifted by. -/
theorem scaleDown_atMost (steps : Nat) : ∀ {x : Binary64} {e : Int}, x.AtMost 1 →
    (scaleDown steps x e).1.AtMost 1 := by
  induction steps with
  | zero => exact fun hx => hx
  | succ steps ih =>
    intro x e hx
    rw [scaleDown]
    split
    · exact ih (divTen_atMost_one (by decide) hx)
    · exact hx

theorem scaleDown_neg (steps : Nat) : ∀ {x : Binary64} {e : Int}, e < 0 →
    (scaleDown steps x e).2 < 0 := by
  induction steps with
  | zero => exact fun he => he
  | succ steps ih =>
    intro x e he
    rw [scaleDown]
    split
    · rename_i hfar
      have hfar' := of_decide_eq_true (Bool.and_eq_true_iff.mp hfar).1
      exact ih (by omega)
    · exact he

/-- Sixty-four binary digits. -/
theorem ofNat_atMost_of_le (hwhole : whole ≤ maxNat64) :
    (Binary64.ofNat whole).AtMost (2 ^ 64) := by
  have hformat : IsOfFormat 1 64 := ⟨by decide, by decide, by decide⟩
  have hle : (whole : ℚ) ≤ ((1 : Nat) : ℚ) * (2 : ℚ) ^ (64 : Int) := by
    refine le_trans (Nat.cast_le.mpr hwhole) ?_
    norm_num [maxNat64]
  have h := ofNat_atMost hformat hle
  norm_num at h
  norm_num
  exact h

/-- Where the exponent is not negative, there is little to shift. -/
theorem mulTen_atMost (hbound : bound = 90 ∨ bound = 180) {k : Nat} (hk : k ≤ 308)
    (h : (whole : ℚ) * 10 ^ k ≤ bound) : ((Binary64.ofNat whole).mulTen k).AtMost bound := by
  obtain ⟨n, f, hformat, hn⟩ := exists_isOfFormat hbound (k := 0) (by decide)
  rw [pow_zero, mul_one] at hn
  have hmost := degrees_le_180 hbound
  have hone : (1 : ℚ) ≤ 10 ^ k := one_le_pow₀ (by norm_num)
  have hwhole : (whole : ℚ) ≤ bound :=
    le_trans (le_mul_of_one_le_right (Nat.cast_nonneg _) hone) h
  have hdigits : whole ≤ 180 := by exact_mod_cast hwhole.trans hmost
  have hstart : (Binary64.ofNat whole).AtMost whole := by
    have hwholeFormat : IsOfFormat whole 0 :=
      ⟨lt_of_le_of_lt hdigits (by decide), by decide, by decide⟩
    have hself := ofNat_atMost (k := whole) hwholeFormat (by simp)
    simpa using hself
  rw [hn]
  refine mulRatio_atMost (den_tenPower_pos hk) hstart hformat ?_
  rw [← hn]
  rcases Nat.eq_zero_or_pos whole with rfl | hpos
  · rw [Nat.cast_zero, zero_mul]
    exact le_trans (by norm_num) (one_le_degrees hbound)
  · have hk' : k < 20 := by
      by_contra hfar
      have hlarge : (10 : ℚ) ^ 20 ≤ 10 ^ k := pow_le_pow_right₀ (by norm_num) (not_lt.mp hfar)
      have hmore : (10 : ℚ) ^ k ≤ whole * 10 ^ k :=
        le_mul_of_one_le_left (by positivity) (Nat.one_le_cast.mpr hpos)
      have htotal : (10 : ℚ) ^ 20 ≤ 180 := hlarge.trans (hmore.trans (h.trans hmost))
      norm_num at htotal
    rw [value_tenPower hk']
    exact h

/-- Where it is negative, the bound is shifted by as many places, or much is lost. -/
theorem divTen_start_atMost (hbound : bound = 90 ∨ bound = 180) (hwhole : whole ≤ maxNat64)
    {k : Nat} (hk : k ≤ 308) (h : (whole : ℚ) ≤ bound * 10 ^ k) :
    ((Binary64.ofNat whole).divTen k).AtMost bound := by
  rcases Nat.lt_or_ge k 20 with hfew | hmany
  · obtain ⟨n, f, hformat, hn⟩ := exists_isOfFormat hbound hfew
    obtain ⟨n', f', hformat', hn'⟩ := exists_isOfFormat hbound (k := 0) (by decide)
    rw [pow_zero, mul_one] at hn'
    rw [hn] at h
    have hstart := ofNat_atMost hformat h
    rw [hn']
    refine divTen_atMost hk hstart hformat' ?_
    rw [← hn, ← hn', value_tenPower hfew]
  · have hsmall := divTen_atMost_one_of_large hmany hk (ofNat_atMost_of_le hwhole)
    exact hsmall.mono (one_le_degrees hbound)

theorem atMost_of_isZero (hzero : x.isZero = true) (h : 0 ≤ bound) : x.AtMost bound := by
  cases x with
  | finite negative m e =>
    rw [isZero, beq_iff_eq] at hzero
    rw [hzero]
    exact atMost_zero _ _ h
  | _ => cases hzero

/-- Where more places are to be shifted than one division takes, what is left is small. -/
theorem scaleDown_start (hwhole : whole ≤ maxNat64) (he : e < 0) :
    (scaleDown 4 (Binary64.ofNat whole) e).1.AtMost 1
        ∧ (scaleDown 4 (Binary64.ofNat whole) e).2 < 0
      ∨ scaleDown 4 (Binary64.ofNat whole) e = (Binary64.ofNat whole, e) ∧ -308 ≤ e := by
  rw [scaleDown]
  split
  · rename_i hfar
    have hfar' := of_decide_eq_true (Bool.and_eq_true_iff.mp hfar).1
    have hsmall : ((Binary64.ofNat whole).divTen 308).AtMost 1 :=
      divTen_atMost_one_of_large (by decide) (by decide) (ofNat_atMost_of_le hwhole)
    exact .inl ⟨scaleDown_atMost 3 hsmall, scaleDown_neg 3 (by omega)⟩
  · rename_i hnear
    by_cases hzero : (Binary64.ofNat whole).isZero = true
    · exact .inl ⟨atMost_of_isZero hzero (by decide), he⟩
    · refine .inr ⟨rfl, not_lt.mp fun hfar => hnear ?_⟩
      rw [decide_eq_true hfar, Bool.not_eq_true _ |>.mp hzero]
      rfl

/-- **What is calculated from the digits of a number of degrees is within the same bound.** -/
theorem scaled?_atMost (hbound : bound = 90 ∨ bound = 180) (hwhole : whole ≤ maxNat64)
    (h : (whole : ℚ) * (10 : ℚ) ^ e ≤ bound) (hscaled : scaled? whole e = some y) :
    y.AtMost bound := by
  have hleast := one_le_degrees hbound
  rw [scaled?] at hscaled
  split at hscaled
  · rename_i hnonneg
    obtain ⟨k, rfl⟩ := Int.eq_ofNat_of_zero_le hnonneg
    rw [zpow_natCast] at h
    split at hscaled
    · rename_i hk
      have hmul := mulTen_atMost hbound (by omega) h
      rw [Int.toNat_natCast] at hscaled
      split at hscaled
      · cases hscaled
      · cases hscaled
        exact hmul
    · split at hscaled
      · rename_i hzero
        cases hscaled
        rw [hzero]
        exact atMost_zero _ _ (le_trans (by norm_num) hleast)
      · cases hscaled
  · rename_i hneg
    rcases scaleDown_start hwhole (not_le.mp hneg) with ⟨hsmall, hleft⟩ | ⟨hsame, hfew⟩
    · generalize scaleDown 4 (Binary64.ofNat whole) e = shifted at hscaled hsmall hleft
      obtain ⟨x, left⟩ := shifted
      dsimp only at hscaled hsmall hleft
      split at hscaled
      · cases hscaled
        exact (divTen_atMost_one (by omega) hsmall).mono hleast
      · cases hscaled
        exact hsmall.mono hleast
    · simp only [hsame, if_pos hfew, Option.some.injEq] at hscaled
      rw [← hscaled]
      refine divTen_start_atMost hbound hwhole (by omega) ?_
      have hpower : (10 : ℚ) ^ e = ((10 : ℚ) ^ e.natAbs)⁻¹ := by
        rw [← zpow_natCast, ← zpow_neg, Int.ofNat_natAbs_of_nonpos (by omega), neg_neg]
      rwa [hpower, ← div_eq_mul_inv, div_le_iff₀ (by positivity)] at h

end

/-! ### Digits -/

section

variable {ws fs : List Char} {c : Char} {rest : List Sign} {whole : Nat}

/-- Digits are read up to the first sign that is none. -/
theorem spanDigits_append (hws : ∀ d ∈ ws, d.isDigit = true) (hc : c.isDigit = false) :
    spanDigits (ws.map some ++ some c :: rest) = (ws, some c :: rest) := by
  have hall : ∀ s ∈ ws.map some, s.any Char.isDigit = true := by
    simpa using hws
  have hnext : (some c).any Char.isDigit = false := hc
  rw [spanDigits, List.span_eq_takeWhile_dropWhile, List.takeWhile_append_of_pos hall,
    List.dropWhile_append_of_pos hall, List.takeWhile_cons_of_neg (by simp [hnext]),
    List.dropWhile_cons_of_neg (by simp [hnext]), List.append_nil]
  simp [List.filterMap_map]

theorem ofDigitChars_takeDigits (ds : List Char) (whole : Nat) :
    (takeDigits whole ds).1 * 10 ^ (takeDigits whole ds).2.length
      ≤ Nat.ofDigitChars 10 ds whole := by
  induction ds generalizing whole with
  | nil => simp [takeDigits]
  | cons d ds ih =>
    rw [takeDigits]
    split
    · rw [Nat.ofDigitChars_cons]
      exact ih _
    · rw [Nat.ofDigitChars_eq_ofDigitChars_zero, Nat.mul_comm]
      exact Nat.le_add_right _ _

theorem takeDigits_le (ds : List Char) (hwhole : whole ≤ maxNat64) :
    (takeDigits whole ds).1 ≤ maxNat64 ∧ (takeDigits whole ds).2.length ≤ ds.length := by
  induction ds generalizing whole with
  | nil => exact ⟨hwhole, Nat.le_refl _⟩
  | cons d ds ih =>
    rw [takeDigits]
    split
    · rename_i hnext
      exact ⟨(ih hnext).1, Nat.le_succ_of_le (ih hnext).2⟩
    · exact ⟨hwhole, Nat.le_refl _⟩

/-- No digit of a number that fits is dropped. -/
theorem takeDigits_of_le {ds : List Char} (h : Nat.ofDigitChars 10 ds whole ≤ maxNat64) :
    takeDigits whole ds = (Nat.ofDigitChars 10 ds whole, []) := by
  induction ds generalizing whole with
  | nil => rw [takeDigits, Nat.ofDigitChars_nil]
  | cons d ds ih =>
    rw [Nat.ofDigitChars_cons] at h ⊢
    have hnext : 10 * whole + digitValue d ≤ maxNat64 := by
      rw [Nat.ofDigitChars_eq_ofDigitChars_zero] at h
      exact le_trans (Nat.le_mul_of_pos_left _ (Nat.pow_pos (by decide)))
        (le_trans (Nat.le_add_right _ _) h)
    rw [takeDigits, if_pos hnext]
    exact ih h

end

/-! ### The two forms of a number -/

section

variable {bound : ℚ} {negative : Bool} {ws fs : List Char} {c : Char} {rest rest' : List Sign}
  {value : Option Json} {whole : Nat} {e : Int}

/-- What is read of a number of degrees, where it is finite. -/
def IsDegrees (bound : ℚ) (value : Option Json) : Prop :=
  ∀ j ∈ value, ∃ y : Binary64, j = .float y ∧ y.AtMost bound

theorem isDegrees_ofMagnitude {x : Option Binary64} (h : ∀ y ∈ x, y.AtMost bound) :
    IsDegrees bound (ofMagnitude negative x) := by
  intro j hj
  obtain ⟨y, hy, rfl⟩ := Option.map_eq_some_iff.mp hj
  refine ⟨_, rfl, ?_⟩
  split
  · exact (h y hy).neg
  · exact h y hy

theorem isDegrees_scaled (hbound : bound = 90 ∨ bound = 180) (hwhole : whole ≤ maxNat64)
    (h : (whole : ℚ) * (10 : ℚ) ^ e ≤ bound) :
    IsDegrees bound (ofMagnitude negative (scaled? whole e)) :=
  isDegrees_ofMagnitude fun _ => scaled?_atMost hbound hwhole h

/-- The signs that may stand after the value of an entry. -/
def IsStop (c : Char) : Prop :=
  c = ',' ∨ c = '\x7d'

theorem IsStop.isDigit (h : IsStop c) : c.isDigit = false := by
  rcases h with rfl | rfl <;> rfl

theorem IsStop.exponent? (h : IsStop c) :
    exponent? (some c :: rest) = some (none, some c :: rest) := by
  rcases h with rfl | rfl <;> rfl

/-- Digits that are dropped are places that are not shifted. -/
theorem shifted_le {taken all left places : Nat} (hleft : left ≤ places)
    (htaken : taken * 10 ^ left ≤ all) (hall : (all : ℚ) ≤ bound * 10 ^ places) :
    (taken : ℚ) * (10 : ℚ) ^ (((0 : Nat) : Int) - (places - left : Nat)) ≤ bound := by
  have htaken' : (taken : ℚ) * 10 ^ left ≤ bound * 10 ^ places :=
    le_trans (by exact_mod_cast htaken) hall
  rw [Nat.cast_zero, zero_sub, zpow_neg, zpow_natCast, ← div_eq_mul_inv,
    div_le_iff₀ (by positivity)]
  refine le_of_mul_le_mul_right ?_ (by positivity : (0 : ℚ) < 10 ^ left)
  rwa [mul_assoc, ← pow_add, Nat.sub_add_cancel hleft]

/-- A number with a fraction. -/
theorem unsigned?_fraction (hbound : bound = 90 ∨ bound = 180)
    (hws : ∀ d ∈ ws, d.isDigit = true) (hfs : ∀ d ∈ fs, d.isDigit = true) (hc : IsStop c)
    (h : (Nat.ofDigitChars 10 (ws ++ fs) 0 : ℚ) ≤ bound * 10 ^ fs.length)
    (hread : unsigned? negative (ws.map some ++ some '.' :: (fs.map some ++ some c :: rest))
      = some (value, rest')) : rest' = some c :: rest ∧ IsDegrees bound value := by
  have hwhole : Nat.ofDigitChars 10 ws 0 ≤ maxNat64 := by
    have hdigits : Nat.ofDigitChars 10 ws 0 * 10 ^ fs.length
        ≤ Nat.ofDigitChars 10 (ws ++ fs) 0 := by
      rw [Nat.ofDigitChars_append, Nat.ofDigitChars_eq_ofDigitChars_zero (l := fs), Nat.mul_comm]
      exact Nat.le_add_right _ _
    have hfew : (Nat.ofDigitChars 10 ws 0 : ℚ) ≤ bound := by
      refine le_of_mul_le_mul_right (le_trans ?_ h) (by positivity : (0 : ℚ) < 10 ^ fs.length)
      exact_mod_cast hdigits
    have hsmall : Nat.ofDigitChars 10 ws 0 ≤ 180 := by
      exact_mod_cast hfew.trans (degrees_le_180 hbound)
    exact hsmall.trans (by decide)
  have htaken := ofDigitChars_takeDigits fs (Nat.ofDigitChars 10 ws 0)
  rw [← Nat.ofDigitChars_append] at htaken
  obtain ⟨hfits, hleft⟩ := takeDigits_le fs hwhole
  rw [unsigned?, spanDigits_append hws rfl] at hread
  dsimp only at hread
  split at hread
  · cases hread
  · cases hread
  · simp only [takeDigits_of_le hwhole, spanDigits_append hfs hc.isDigit, hc.exponent?] at hread
    split at hread
    · cases hread
    · cases hread
      exact ⟨rfl, isDegrees_scaled hbound hfits (shifted_le hleft htaken h)⟩

/-- A written exponent is read as its sign and its digits. -/
theorem exponent?_showInt (hc : IsStop c) :
    exponent? (some 'e' :: (signsOf (showInt e) ++ some c :: rest))
      = some (some (decide (e < 0), Nat.toDigits 10 e.natAbs), some c :: rest) := by
  have hdigits : ∀ k : Nat, spanDigits ((Nat.toDigits 10 k).map some ++ some c :: rest)
      = (Nat.toDigits 10 k, some c :: rest) := fun k =>
    spanDigits_append (fun _ => Nat.isDigit_of_mem_toDigits (by decide) (by decide)) hc.isDigit
  have hsome : ∀ k : Nat, (Nat.toDigits 10 k).isEmpty = false := by simp
  cases e with
  | ofNat k =>
    obtain ⟨d, ds, hds, hplus, hminus⟩ := exists_toDigits_eq_cons k
    have hread := hdigits k
    have hany := hsome k
    rw [signsOf, showInt, String.toList_ofList]
    rw [hds, List.map_cons, List.cons_append] at hread ⊢
    rw [hds] at hany
    simp [exponent?, hplus, hminus, hread, hds]
  | negSucc k =>
    have hread := hdigits (k + 1)
    rw [signsOf, showInt, String.toList_ofList, List.map_cons, List.cons_append]
    simp [exponent?, hread]

theorem isDegrees_ofParts (hbound : bound = 90 ∨ bound = 180) (hwhole : whole ≤ maxNat64)
    {places : Int} (h : (whole : ℚ) * (10 : ℚ) ^ (places + e) ≤ bound) :
    IsDegrees bound (ofParts negative whole places
      (some (decide (e < 0), Nat.toDigits 10 e.natAbs))) := by
  have hdigits : (Nat.toDigits 10 e.natAbs).foldl (fun n d => 10 * n + digitValue d) 0
      = e.natAbs := by
    have hworth := Nat.ofDigitChars_ten_toDigits (n := e.natAbs)
    rw [Nat.ofDigitChars_eq_foldl] at hworth
    exact hworth
  rw [ofParts, hdigits]
  split
  · have hplaces : (if decide (e < 0) = true then places - (e.natAbs : Int)
        else places + (e.natAbs : Int)) = places + e := by
      split
      · rename_i hneg
        have hneg' := of_decide_eq_true hneg
        omega
      · rename_i hnonneg
        have hnonneg' := of_decide_eq_false (Bool.not_eq_true _ |>.mp hnonneg)
        omega
    rw [hplaces]
    exact isDegrees_scaled hbound hwhole h
  · split
    · refine isDegrees_ofMagnitude fun y hy => ?_
      cases hy
      exact atMost_zero _ _ (le_trans (by norm_num) (one_le_degrees hbound))
    · intro j hj
      cases hj

/-- A number with an exponent. -/
theorem unsigned?_exponent (hbound : bound = 90 ∨ bound = 180)
    (hws : ∀ d ∈ ws, d.isDigit = true) (hc : IsStop c)
    (h : (Nat.ofDigitChars 10 ws 0 : ℚ) * 10 ^ e ≤ bound)
    (hread : unsigned? negative
        (ws.map some ++ some 'e' :: (signsOf (showInt e) ++ some c :: rest))
      = some (value, rest')) : rest' = some c :: rest ∧ IsDegrees bound value := by
  have htaken := ofDigitChars_takeDigits ws 0
  obtain ⟨hfits, -⟩ := takeDigits_le ws (show 0 ≤ maxNat64 by decide)
  rw [unsigned?, spanDigits_append hws rfl] at hread
  dsimp only at hread
  split at hread
  · cases hread
  · cases hread
  · split at hread
    · rename_i hpoint
      cases hpoint
    · rw [exponent?_showInt hc] at hread
      cases hread
      refine ⟨rfl, isDegrees_ofParts hbound hfits ?_⟩
      rw [zpow_add₀ (by norm_num), zpow_natCast, ← mul_assoc]
      refine le_trans (mul_le_mul_of_nonneg_right ?_ (by positivity)) h
      exact_mod_cast htaken

end

/-! ### Numbers written and read back -/

section

variable {bound : ℚ} {negative : Bool} {cs : List Char} {c : Char} {rest rest' : List Sign}
  {value : Option Json} {x y : Binary64}

/-- The text of a number of degrees without its sign: digits, and a fraction or an exponent. -/
inductive IsUnsigned (bound : ℚ) : List Char → Prop
  | fraction {ws fs : List Char} (hsome : ws ≠ []) (hdigits : ∀ d ∈ ws ++ fs, d.isDigit = true)
      (h : (Nat.ofDigitChars 10 (ws ++ fs) 0 : ℚ) ≤ bound * 10 ^ fs.length) :
      IsUnsigned bound (ws ++ '.' :: fs)
  | exponent {ws : List Char} {e : Int} (hsome : ws ≠ []) (hdigits : ∀ d ∈ ws, d.isDigit = true)
      (h : (Nat.ofDigitChars 10 ws 0 : ℚ) * 10 ^ e ≤ bound) :
      IsUnsigned bound (ws ++ 'e' :: (showInt e).toList)

/-- It starts with a digit. -/
theorem IsUnsigned.exists_eq_cons (h : IsUnsigned bound cs) :
    ∃ d ds, cs = d :: ds ∧ d.isDigit = true := by
  cases h with
  | @fraction ws fs hsome hdigits _ =>
    cases ws with
    | nil => exact absurd rfl hsome
    | cons d ds => exact ⟨d, _, rfl, hdigits d (by simp)⟩
  | @exponent ws e hsome hdigits _ =>
    cases ws with
    | nil => exact absurd rfl hsome
    | cons d ds => exact ⟨d, _, rfl, hdigits d (by simp)⟩

theorem unsigned?_of_isUnsigned (hbound : bound = 90 ∨ bound = 180) (h : IsUnsigned bound cs)
    (hc : IsStop c)
    (hread : unsigned? negative (cs.map some ++ some c :: rest) = some (value, rest')) :
    rest' = some c :: rest ∧ IsDegrees bound value := by
  cases h with
  | fraction _ hdigits h =>
    rw [List.forall_mem_append] at hdigits
    rw [List.map_append, List.map_cons, List.append_assoc, List.cons_append] at hread
    exact unsigned?_fraction hbound hdigits.1 hdigits.2 hc h hread
  | exponent _ hdigits h =>
    rw [List.map_append, List.map_cons, List.append_assoc, List.cons_append] at hread
    exact unsigned?_exponent hbound hdigits hc h hread

/-- A sign or a digit is the start of a number. -/
theorem scalar?_eq_number? (hc : c.isDigit = true ∨ c = '-') :
    skipSpace (some c :: rest) = some c :: rest
      ∧ scalar? (some c :: rest) = number? (some c :: rest) := by
  have hne : ∀ d : Char, (d.isDigit || d == '-') = false → c ≠ d := by
    rintro d hd rfl
    rcases hc with hdigit | rfl
    · rw [hdigit] at hd
      cases hd
    · cases hd
  constructor
  · simp [skipSpace, isSpace, hne ' ' rfl, hne '\t' rfl, hne '\n' rfl, hne '\r' rfl]
  · simp [scalar?, hne 'n' rfl, hne 't' rfl, hne 'f' rfl, hne '"' rfl]

/-- A text of a number of degrees, with or without a sign. -/
theorem number?_of_isUnsigned (hbound : bound = 90 ∨ bound = 180) (h : IsUnsigned bound cs)
    (hc : IsStop c) {signed : List Char} (hsigned : signed = '-' :: cs ∨ signed = cs)
    (hread : scalar? (skipSpace (signed.map some ++ some c :: rest)) = some (value, rest')) :
    rest' = some c :: rest ∧ IsDegrees bound value := by
  rcases hsigned with rfl | rfl
  · rw [List.map_cons, List.cons_append, (scalar?_eq_number? (.inr rfl)).1,
      (scalar?_eq_number? (.inr rfl)).2] at hread
    exact unsigned?_of_isUnsigned hbound h hc hread
  · obtain ⟨d, ds, hds, hdigit⟩ := h.exists_eq_cons
    have hminus : d ≠ '-' := by
      rintro rfl
      cases hdigit
    have hnumber : number? (signed.map some ++ some c :: rest)
        = unsigned? false (signed.map some ++ some c :: rest) := by
      rw [hds, List.map_cons, List.cons_append]
      simp [number?, hminus]
    rw [hds, List.map_cons, List.cons_append, (scalar?_eq_number? (.inl hdigit)).1,
      (scalar?_eq_number? (.inl hdigit)).2, ← List.cons_append, ← List.map_cons, ← hds, hnumber]
      at hread
    exact unsigned?_of_isUnsigned hbound h hc hread

/-- The positional notation of a number of degrees has a point, or is given one. -/
theorem isUnsigned_positional {d : Scientific} (h : d.value.value ≤ bound) :
    IsUnsigned bound (if d.positional.toList.contains '.' then d.positional
      else d.positional ++ ".0").toList := by
  obtain ⟨ws, fs, hsome, hdigits, hworth, hpositional⟩ := exists_positional d
  have hbelow : (Nat.ofDigitChars 10 (ws ++ fs) 0 : ℚ) ≤ bound * 10 ^ fs.length := by
    rw [hworth]
    exact mul_le_mul_of_nonneg_right h (by positivity)
  rw [hpositional, String.toList_ofList]
  cases fs with
  | nil =>
    rw [List.append_nil] at hdigits hbelow
    have hpoint : ws.contains '.' = false := by
      refine Bool.eq_false_iff.mpr fun hmem => ?_
      cases hdigits '.' (List.contains_iff_mem.mp hmem)
    rw [List.isEmpty_nil, if_pos rfl, hpoint, if_neg (by decide), String.toList_append,
      String.toList_ofList]
    refine @IsUnsigned.fraction bound ws ['0'] hsome ?_ ?_
    · rw [List.forall_mem_append, List.forall_mem_singleton]
      exact ⟨hdigits, rfl⟩
    · have hworth' : Nat.ofDigitChars 10 (ws ++ ['0']) 0 = 10 * Nat.ofDigitChars 10 ws 0 := by
        rw [Nat.ofDigitChars_append]
        exact Nat.ofDigitChars_replicate_zero (n := 1)
      rw [hworth']
      push_cast
      rw [List.length_nil, pow_zero, mul_one] at hbelow
      rw [List.length_singleton, pow_one, mul_comm]
      exact mul_le_mul_of_nonneg_right hbelow (by norm_num)
  | cons f fs =>
    rw [List.isEmpty_cons, if_neg Bool.false_ne_true, if_pos (by simp), String.toList_ofList]
    exact .fraction hsome hdigits hbelow

/-- The text of a number of degrees is one without a sign, before which a sign may stand. -/
theorem exists_floatText (hbound : bound = 90 ∨ bound = 180) (h : x.AtMost bound) :
    ∃ cs, IsUnsigned bound cs
      ∧ ((floatText x).toList = '-' :: cs ∨ (floatText x).toList = cs) := by
  have hsign : ∀ (negative : Bool) (s : String), ((if negative then "-" else "") ++ s).toList
      = '-' :: s.toList ∨ ((if negative then "-" else "") ++ s).toList = s.toList := by
    intro negative s
    cases negative
    · exact .inr (by simp)
    · exact .inl (by simp)
  cases x with
  | nan => cases h
  | infinite negative => cases h
  | finite negative m q =>
    rw [floatText]
    split
    · refine ⟨_, ?_, hsign negative _⟩
      have hdigits : ∀ d ∈ ['0'] ++ ['0'], d.isDigit = true := by
        rw [List.forall_mem_append, List.forall_mem_singleton]
        exact ⟨rfl, rfl⟩
      refine @IsUnsigned.fraction bound ['0'] ['0'] (List.cons_ne_nil _ _) hdigits ?_
      have hpos := one_le_degrees hbound
      norm_num [Nat.ofDigitChars]
      linarith
    · rename_i hm
      have hshortest := shortest_le hbound (Nat.pos_of_ne_zero hm) h
      dsimp only
      split
      · exact ⟨_, isUnsigned_positional hshortest, hsign negative _⟩
      · rw [String.append_assoc, String.append_assoc]
        refine ⟨_, ?_, hsign negative _⟩
        rw [String.toList_append, String.toList_append, showNat, String.toList_ofList]
        refine .exponent Nat.toDigits_ne_nil ?_ ?_
        · exact fun d hd => Nat.isDigit_of_mem_toDigits (by decide) (by decide) hd
        · rw [Nat.ofDigitChars_ten_toDigits, ← Scientific.value_value]
          exact hshortest

/-- **A number of degrees that is read back is within the same bound**, and nothing after it has
been read. -/
theorem readFloat_floatText (hbound : bound = 90 ∨ bound = 180) (h : x.AtMost bound)
    (hc : IsStop c)
    (hread : readFloat (signsOf (floatText x) ++ some c :: rest) = .ok (y, rest')) :
    rest' = some c :: rest ∧ y.AtMost bound := by
  obtain ⟨cs, hcs, hsigned⟩ := exists_floatText hbound h
  rw [readFloat, readScalar] at hread
  split at hread
  · rename_i j left hscalar
    obtain ⟨rfl, hdegrees⟩ := number?_of_isUnsigned hbound hcs hc hsigned hscalar
    obtain ⟨z, rfl, hz⟩ := hdegrees j rfl
    cases hread
    exact ⟨rfl, hz⟩
  · cases hread

end

end SharedMemos.Json
