import SharedMemos.Filter.Token
import Mathlib.Data.List.TakeWhile
import Mathlib.Tactic.Common

/-!
# The steps of a scan

A scan takes a blank or a token from the front of the text and goes on behind it. `Found` says how
each kind of token is told by its first character, and where it ends.

## Main results

* `scanFrom_cons`, `scanFrom_cases` — one step of a scan, forwards and backwards
* `found_of_scanToken` — what a token is found in
-/

namespace SharedMemos.Filter

open SharedMemos.Text

/-! ### One step -/

/-- A token is found, and the scan goes on behind it. -/
theorem scanFrom_cons {fuel offset : Nat} {c : Char} {cs : List Char} {step : Step}
    {found : Lexemes} (hblank : isBlank c = false) (hstep : scanToken c cs = .ok step)
    (hrest : scanFrom fuel (offset + step.bytes) step.rest = .ok found) :
    scanFrom (fuel + 1) offset (c :: cs)
      = .ok ⟨(step.token, offset) :: found.tokens, found.stop⟩ := by
  rw [scanFrom, if_neg (by rw [hblank]; decide), hstep]
  dsimp only
  rw [hrest]

/-- A step passes over a blank or finds a token. -/
theorem scanFrom_cases {fuel offset : Nat} {c : Char} {cs : List Char} {found : Lexemes}
    (h : scanFrom (fuel + 1) offset (c :: cs) = .ok found) :
    (isBlank c = true ∧ scanFrom fuel (offset + c.utf8Size) cs = .ok found)
      ∨ ∃ step more, isBlank c = false ∧ scanToken c cs = .ok step
        ∧ scanFrom fuel (offset + step.bytes) step.rest = .ok more
        ∧ found = ⟨(step.token, offset) :: more.tokens, more.stop⟩ := by
  rw [scanFrom] at h
  split at h
  · rename_i hblank
    exact .inl ⟨hblank, h⟩
  · rename_i hblank
    split at h
    · cases h
    · rename_i step hstep
      split at h
      · cases h
      · rename_i more hmore
        cases h
        exact .inr ⟨step, more, Bool.eq_false_iff.mpr hblank, hstep, hmore, rfl⟩

/-! ### What a token is found in -/

/-- The text that starts with `c` and goes on with `cs` starts with a token, and `rest` is behind
it. -/
inductive Found (c : Char) (cs : List Char) : Token → (rest : List Char) → Prop
  | double {d t rest} (h : doubleSymbol? c d = some t) (hcs : cs = d :: rest) : Found c cs t rest
  | single {t} (h : singleSymbol? c = some t) : Found c cs t cs
  | text {s inside rest} (hc : c = '"' ∨ c = '\'') (hcs : cs = inside ++ c :: rest) :
    Found c cs (.string s) rest
  | number {n} (hc : c.isDigit = true) : Found c cs (.int n) ((c :: cs).dropWhile Char.isDigit)
  | ident (hc : isIdentStart c = true) :
    Found c cs (.ident (String.ofList ((c :: cs).takeWhile isIdentPart)))
      ((c :: cs).dropWhile isIdentPart)

theorem isIdentPart_of_isIdentStart {c : Char} (h : isIdentStart c = true) :
    isIdentPart c = true := by
  rw [isIdentStart, Bool.or_eq_true] at h
  rw [isIdentPart, Char.isAlphanum, Bool.or_eq_true, Bool.or_eq_true]
  exact h.imp_left .inl

theorem scanText_eq_ok {quote : Char} {acc cs : List Char} {bytes : Nat} {step : Step}
    (h : scanText quote acc bytes cs = .ok step) :
    ∃ s inside, step.token = .string s ∧ cs = inside ++ quote :: step.rest := by
  fun_induction scanText quote acc bytes cs with
  | case1 => cases h
  | case2 acc bytes cs =>
    cases h
    exact ⟨_, [], rfl, rfl⟩
  | case3 => cases h
  | case4 acc bytes e rest x hx hquote ih =>
    obtain ⟨s, inside, htoken, hrest⟩ := ih h
    exact ⟨s, '\\' :: e :: inside, htoken, by rw [hrest]; rfl⟩
  | case5 => cases h
  | case6 acc bytes c cs hquote hc ih =>
    obtain ⟨s, inside, htoken, hrest⟩ := ih h
    exact ⟨s, c :: inside, htoken, by rw [hrest]; rfl⟩

theorem found_of_scanToken {c : Char} {cs : List Char} {step : Step}
    (h : scanToken c cs = .ok step) : Found c cs step.token step.rest := by
  rw [scanToken] at h
  split at h
  · rename_i t hdouble
    cases h
    obtain ⟨d, hd, ht⟩ := Option.bind_eq_some_iff.mp hdouble
    obtain ⟨rest, rfl⟩ := List.head?_eq_some_iff.mp hd
    exact .double ht rfl
  · split at h
    · rename_i t hsingle
      cases h
      exact .single hsingle
    · split at h
      · rename_i hquote
        obtain ⟨s, inside, htoken, hrest⟩ := scanText_eq_ok h
        rw [htoken]
        exact .text hquote hrest
      · split at h
        · rename_i hdigit
          rw [scanNumber] at h
          split at h
          · cases h
            exact .number hdigit
          · cases h
        · split at h
          · rename_i hstart
            cases h
            exact .ident hstart
          · cases h

namespace Found

variable {c : Char} {cs rest : List Char} {t : Token}

/-- Every token takes characters off the front. -/
theorem exists_taken (h : Found c cs t rest) : ∃ taken, c :: cs = c :: taken ++ rest := by
  cases h with
  | @double d _ _ h hcs => exact ⟨[d], by rw [hcs]; rfl⟩
  | single h => exact ⟨[], rfl⟩
  | @text s inside _ hc hcs => exact ⟨inside ++ [c], by rw [hcs]; simp⟩
  | number hc =>
    refine ⟨cs.takeWhile Char.isDigit, ?_⟩
    rw [List.dropWhile_cons_of_pos hc, List.cons_append, List.takeWhile_append_dropWhile]
  | ident hc =>
    refine ⟨cs.takeWhile isIdentPart, ?_⟩
    rw [List.dropWhile_cons_of_pos (isIdentPart_of_isIdentStart hc), List.cons_append,
      List.takeWhile_append_dropWhile]

theorem length_rest_le (h : Found c cs t rest) : rest.length ≤ cs.length := by
  obtain ⟨taken, htaken⟩ := h.exists_taken
  have hlength := congrArg List.length htaken
  simp only [List.length_cons, List.length_append] at hlength
  omega

end Found

end SharedMemos.Filter
