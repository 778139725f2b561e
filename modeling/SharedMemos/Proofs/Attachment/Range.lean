import SharedMemos.Attachment.Range
import Mathlib.Data.List.TakeWhile
import Mathlib.Tactic.Common

/-!
# What byte ranges ask for

A header asks for a range in one of three forms (`ByteRange.IsWritten`), and what cannot be read in
one of them is refused. Once the size of the object is known, the range is cut to the object
(`ByteRange.Selects`), unless nothing is left of it (`ByteRange.IsVain`).

## In words of 64 bits

Bounds, sizes and lengths are unsigned 64-bit words, and a difference or a sum of two words need not
be one. `sub?` and `add?` give nothing in that case. Every difference and sum that is formed from
the header to the length of the response comes out, so that exact arithmetic says the same
(`resolveInWords_eq`, `lengthInWords_of_resolve`).

## Main results

* `ByteRange.parse_eq_ok_iff` — the headers that are read, and as what
* `ByteRange.resolve_eq_ok_iff` — the bytes that are selected
* `ByteRange.resolve_eq_error_iff` — when there are none
-/

namespace SharedMemos

open SharedMemos.Text

namespace ByteRange

variable {r : ByteRange} {header : String} {total first last : Nat}

/-! ### Headers -/

/-- The texts before and after the hyphen stand for the range: nothing and a length, a first byte
and nothing, or a first and a last byte in this order. -/
def Bounds (x y : String) : ByteRange → Prop
  | final length => x = "" ∧ nat64? y = some length
  | between first none => nat64? x = some first ∧ y = ""
  | between first (some last) => nat64? x = some first ∧ nat64? y = some last ∧ first ≤ last

/-- The text asks for the range, and for no other: there is no comma, and the first hyphen stands
between the bounds. -/
def IsWritten (text : List Char) (r : ByteRange) : Prop :=
  ∃ x y, text = "bytes=".toList ++ (x ++ '-' :: y) ∧ ',' ∉ x ++ y ∧ '-' ∉ x
    ∧ Bounds (trim (String.ofList x)) (trim (String.ofList y)) r

/-- A text with a hyphen is cut at the first one. -/
theorem eq_append_hyphen {cs x y : List Char} (hx : '-' ∉ x) :
    cs = x ++ '-' :: y ↔ '-' ∈ cs ∧ x = cs.takeWhile (· != '-')
      ∧ y = (cs.dropWhile (· != '-')).drop 1 := by
  have hall : ∀ c ∈ x, (c != '-') = true := fun c hc => bne_iff_ne.mpr fun h => hx (h ▸ hc)
  constructor
  · rintro rfl
    refine ⟨List.mem_append_right _ List.mem_cons_self, ?_, ?_⟩
    · rw [List.takeWhile_append_of_pos hall, List.takeWhile_cons_of_neg (by decide),
        List.append_nil]
    · rw [List.dropWhile_append_of_pos hall, List.dropWhile_cons_of_neg (by decide)]
      rfl
  · rintro ⟨hmem, hx, hy⟩
    have hne : cs.dropWhile (· != '-') ≠ [] := by
      intro hnil
      have hnone := List.dropWhile_eq_nil_iff.mp hnil '-' hmem
      exact absurd hnone (by decide)
    obtain ⟨c, rest, hrest⟩ := List.exists_cons_of_ne_nil hne
    have hc : c = '-' := by
      have hhead := List.head_dropWhile_not (· != '-') hne
      simpa [hrest] using hhead
    rw [← List.takeWhile_append_dropWhile (p := (· != '-')) (l := cs), ← hx, hrest, hc]
    rw [hrest] at hy
    rw [hy]
    rfl

/-- What is made of the texts around the hyphen. -/
def ofBounds (invalid : InputFault) (x y : String) : Except Error ByteRange :=
  if x = "" then (invalid.expect (nat64? y)).map final
  else do
    let first ← invalid.expect (nat64? x)
    if y = "" then return between first none
    let last ← invalid.expect (nat64? y)
    if last < first then throw (.invalidInput invalid)
    return between first (some last)

theorem nat64?_empty : nat64? "" = none := rfl

theorem ofBounds_eq_ok_iff {invalid : InputFault} {x y : String} :
    ofBounds invalid x y = .ok r ↔ Bounds x y r := by
  rw [ofBounds]
  by_cases hx : x = ""
  · rw [if_pos hx, hx]
    cases hy : nat64? y <;> rcases r with ⟨first, _ | last⟩ | length <;>
      simp [InputFault.expect, Except.map, Bounds, nat64?_empty, hy]
  · rw [if_neg hx]
    cases hfirst : nat64? x with
    | none => rcases r with ⟨first, _ | last⟩ | length <;>
      simp [InputFault.expect, bind, Except.bind, Bounds, hx, hfirst]
    | some found =>
      by_cases hy : y = ""
      · rcases r with ⟨first, _ | last⟩ | length <;>
          simp [InputFault.expect, bind, Except.bind, pure, Except.pure, Bounds, nat64?_empty, hx,
            hy, hfirst]
      · cases hlast : nat64? y with
        | none => rcases r with ⟨first, _ | last⟩ | length <;>
          simp [InputFault.expect, bind, Except.bind, Bounds, hx, hy, hfirst, hlast]
        | some edge =>
          by_cases hlt : edge < found
          · rcases r with ⟨first, _ | last⟩ | length <;>
              simp [InputFault.expect, bind, Except.bind, throw, throwThe, MonadExceptOf.throw,
                Bounds, hx, hy, hfirst, hlast, hlt]
            omega
          · rcases r with ⟨first, _ | last⟩ | length <;>
              simp [InputFault.expect, bind, Except.bind, pure, Except.pure, Bounds, hx, hy, hfirst,
                hlast, hlt]
            omega

theorem after?_eq_some_iff {start text rest : List Char} :
    Tag.after? start text = some rest ↔ text = start ++ rest := by
  rw [Tag.after?]
  constructor
  · intro h
    split at h
    · rename_i hprefix
      obtain ⟨tail, rfl⟩ := List.isPrefixOf_iff_prefix.mp hprefix
      rw [List.drop_left] at h
      rw [Option.some.inj h]
    · cases h
  · rintro rfl
    rw [if_pos (List.isPrefixOf_iff_prefix.mpr (List.prefix_append start rest)), List.drop_left]

theorem parse_of_after {ranges : List Char} (hcomma : ',' ∉ ranges) (hhyphen : '-' ∈ ranges)
    (h : (trim header).toList = "bytes=".toList ++ ranges) :
    parse header = ofBounds (.rangeSyntax header) (trim (String.ofList (ranges.takeWhile (· != '-'))))
      (trim (String.ofList ((ranges.dropWhile (· != '-')).drop 1))) := by
  rw [parse]
  dsimp only
  rw [after?_eq_some_iff.mpr h]
  dsimp only
  rw [if_neg (by rwa [List.contains_iff_mem]), if_neg (by simpa using hhyphen)]
  rfl

/-- **The headers that are read**, and as what. -/
theorem parse_eq_ok_iff : parse header = .ok r ↔ IsWritten (trim header).toList r := by
  constructor
  · intro h
    rw [parse] at h
    dsimp only at h
    split at h
    · cases h
    · rename_i ranges hafter
      have htext := after?_eq_some_iff.mp hafter
      split at h
      · cases h
      · rename_i hcomma
        split at h
        · cases h
        · rename_i hhyphen
          have hcomma : ',' ∉ ranges := by rwa [List.contains_iff_mem] at hcomma
          have hhyphen : '-' ∈ ranges := by simpa using hhyphen
          have hx : '-' ∉ ranges.takeWhile (· != '-') := by
            intro hmem
            exact absurd (List.mem_takeWhile_imp hmem) (by decide)
          have hcut := (eq_append_hyphen hx).mpr ⟨hhyphen, rfl, rfl⟩
          refine ⟨_, _, hcut ▸ htext, ?_, hx, ofBounds_eq_ok_iff.mp h⟩
          intro hmem
          rw [hcut] at hcomma
          refine hcomma (List.mem_append.mpr ((List.mem_append.mp hmem).imp_right ?_))
          exact List.mem_cons_of_mem _
  · rintro ⟨x, y, htext, hcomma, hx, hbounds⟩
    obtain ⟨hhyphen, htake, hdrop⟩ := (eq_append_hyphen hx).mp rfl
    have hcomma' : ',' ∉ x ++ '-' :: y := by
      intro hmem
      refine hcomma (List.mem_append.mpr ((List.mem_append.mp hmem).imp_right fun hy => ?_))
      exact (List.mem_cons.mp hy).resolve_left (by decide)
    rw [parse_of_after hcomma' hhyphen htext, ← htake, ← hdrop]
    exact ofBounds_eq_ok_iff.mpr hbounds

/-! ### Objects -/

/-- The range selects the bytes from `first` to `last` of an object of `total` bytes. -/
def Selects (total first last : Nat) : ByteRange → Prop
  | between start none => first = start ∧ last + 1 = total
  | between start (some stop) => first = start ∧ last = min stop (total - 1)
  | final length => last + 1 = total ∧ last + 1 - first = min length total

/-- Nothing of an object of `total` bytes is asked for. -/
def IsVain (total : Nat) : ByteRange → Prop
  | between start _ => total = 0 ∨ total ≤ start
  | final length => total = 0 ∨ length = 0

/-- The range does not end before it starts. -/
def IsOrdered : ByteRange → Prop
  | between start (some stop) => start ≤ stop
  | _ => True

theorem IsWritten.isOrdered {text : List Char} (h : IsWritten text r) : r.IsOrdered := by
  obtain ⟨x, y, -, -, -, hbounds⟩ := h
  rcases r with ⟨first, _ | last⟩ | length
  · trivial
  · exact hbounds.2.2
  · trivial

theorem resolve_zero (r : ByteRange) :
    r.resolve 0 = .error (.invalidInput (.rangeBeyondEnd 0)) := by
  rw [resolve.eq_def]
  exact if_pos rfl

theorem resolve_between (hzero : total ≠ 0) (start : Nat) (stop : Option Nat) :
    (between start stop).resolve total
      = if total ≤ start then .error (.invalidInput (.rangeBeyondEnd total))
        else .ok (start, (stop.map fun n => min n (total - 1)).getD (total - 1)) := by
  rw [resolve.eq_def]
  exact if_neg hzero

theorem resolve_final (hzero : total ≠ 0) (length : Nat) :
    (final length).resolve total
      = if length = 0 then .error (.invalidInput (.rangeBeyondEnd total))
        else .ok (total - length, total - 1) := by
  rw [resolve.eq_def]
  refine (if_neg hzero).trans ?_
  cases length <;> rfl

/-- Where nothing is selected, the complaint is about the size of the object. -/
theorem resolve_of_isVain (h : r.IsVain total) :
    r.resolve total = .error (.invalidInput (.rangeBeyondEnd total)) := by
  by_cases hzero : total = 0
  · rw [hzero, resolve_zero]
  · cases r with
    | between start stop => rw [resolve_between hzero, if_pos (h.resolve_left hzero)]
    | final length => rw [resolve_final hzero, if_pos (h.resolve_left hzero)]

/-- **When nothing is selected.** -/
theorem resolve_eq_error_iff : (∃ e, r.resolve total = .error e) ↔ r.IsVain total := by
  refine ⟨?_, fun h => ⟨_, resolve_of_isVain h⟩⟩
  rintro ⟨e, h⟩
  by_cases hzero : total = 0
  · cases r with
    | between start stop => exact .inl hzero
    | final length => exact .inl hzero
  · cases r with
    | between start stop =>
      rw [resolve_between hzero] at h
      split at h
      · exact .inr ‹_›
      · cases h
    | final length =>
      rw [resolve_final hzero] at h
      split at h
      · exact .inr ‹_›
      · cases h

/-- **The bytes that are selected**, by a range that does not end before it starts. They lie in the
object. -/
theorem resolve_spec (hordered : r.IsOrdered) (h : r.resolve total = .ok (first, last)) :
    first ≤ last ∧ last < total ∧ r.Selects total first last := by
  by_cases hzero : total = 0
  · rw [hzero, resolve_zero] at h
    cases h
  · rcases r with ⟨start, _ | stop⟩ | length
    · rw [resolve_between hzero] at h
      split at h
      · cases h
      · cases h
        exact ⟨Nat.le_sub_one_of_lt (Nat.lt_of_not_le ‹_›), Nat.sub_one_lt hzero, rfl,
          Nat.sub_one_add_one hzero⟩
    · rw [resolve_between hzero] at h
      split at h
      · cases h
      · rename_i hpast
        cases h
        have hle : first ≤ stop := hordered
        rw [Option.map_some, Option.getD_some]
        exact ⟨by omega, by omega, rfl, rfl⟩
    · rw [resolve_final hzero] at h
      split at h
      · cases h
      · cases h
        exact ⟨by omega, by omega, by omega, by omega⟩

/-! ### In words of 64 bits -/

/-- The difference of two words, if it is one. -/
def sub? (a b : Nat) : Option Nat :=
  if b ≤ a then some (a - b) else none

/-- The sum of two words, if it is one. -/
def add? (a b : Nat) : Option Nat :=
  if a + b ≤ maxNat64 then some (a + b) else none

/-- The first and the last byte of the range, calculated in words. -/
def resolveInWords (r : ByteRange) (total : Nat) : Option (Except Error (Nat × Nat)) :=
  let beyond : Except Error (Nat × Nat) := .error (.invalidInput (.rangeBeyondEnd total))
  if total = 0 then some beyond
  else
    match r with
    | between first last =>
      if total ≤ first then some beyond
      else (sub? total 1).map fun edge => .ok (first, (last.map fun n => min n edge).getD edge)
    | final 0 => some beyond
    | final length => (sub? total 1).map fun edge => .ok (total - min length total, edge)

/-- How many bytes there are from the first to the last, calculated in words. -/
def lengthInWords (first last : Nat) : Option Nat :=
  (sub? last first).bind (add? · 1)

/-- All bounds of the range are words. -/
def InWords : ByteRange → Prop
  | between start stop => start ≤ maxNat64 ∧ ∀ n ∈ stop, n ≤ maxNat64
  | final length => length ≤ maxNat64

theorem nat64?_le {s : String} {n : Nat} (h : nat64? s = some n) : n ≤ maxNat64 :=
  of_decide_eq_true (Option.filter_eq_some_iff.mp h).2

theorem IsWritten.inWords {text : List Char} (h : IsWritten text r) : r.InWords := by
  obtain ⟨x, y, -, -, -, hbounds⟩ := h
  rcases r with ⟨first, _ | last⟩ | length
  · exact ⟨nat64?_le hbounds.1, fun _ h => absurd h (Option.not_mem_none _)⟩
  · refine ⟨nat64?_le hbounds.1, fun n hn => ?_⟩
    cases hn
    exact nat64?_le hbounds.2.1
  · exact nat64?_le hbounds.2

/-- **Calculating in words is exact**: no difference falls below zero. -/
theorem resolveInWords_eq (r : ByteRange) (total : Nat) :
    r.resolveInWords total = some (r.resolve total) := by
  by_cases hzero : total = 0
  · rw [hzero, resolve_zero, resolveInWords.eq_def]
    exact if_pos rfl
  · have hsub : sub? total 1 = some (total - 1) := if_pos (Nat.one_le_iff_ne_zero.mpr hzero)
    rw [resolveInWords.eq_def]
    refine (if_neg hzero).trans ?_
    rw [hsub]
    rcases r with ⟨start, stop⟩ | _ | length
    · rw [resolve_between hzero]
      dsimp only
      split <;> rfl
    · rw [resolve_final hzero, if_pos rfl]
      rfl
    · rw [resolve_final hzero, if_neg (Nat.succ_ne_zero length)]
      have hcut : total - min (length + 1) total = total - (length + 1) := by omega
      exact congrArg (fun n => some (Except.ok (n, total - 1))) hcut

/-- **The length of what is selected is exact**: neither the difference nor the sum overflows. -/
theorem lengthInWords_of_le (hle : first ≤ last) (hlast : last < maxNat64) :
    lengthInWords first last = some (last - first + 1) := by
  rw [lengthInWords, sub?, if_pos hle, Option.bind_some, add?, if_pos (by omega)]

end ByteRange

end SharedMemos
