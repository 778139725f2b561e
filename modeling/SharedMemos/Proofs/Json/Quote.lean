import Mathlib.Tactic.SplitIfs
import SharedMemos.Json.Printer
import SharedMemos.Json.Reader

/-!
# Quoted texts in JSON

Whatever its characters are, a text that is written in quotes is read back. A character is either
written as it is or escaped, in two ways; each way is undone by one step of the reader, whatever
stands after it (`scanQuote_escapedChar`).

## Main results

* `scanQuote_quote` — the characters up to the closing quote
* `readString_quote` — a text that is written and read back
-/

namespace SharedMemos.Json

open SharedMemos.Text

section

variable {c : Char} {acc : List Char} {rest : List Sign}

theorem toList_foldl_push (cs : List Char) (s : String) :
    (cs.foldl String.push s).toList = s.toList ++ cs := by
  induction cs generalizing s with
  | nil => rw [List.foldl_nil, List.append_nil]
  | cons c cs ih => rw [List.foldl_cons, ih, String.toList_push, List.append_assoc]; rfl

/-- A text in quotes: what each of its characters is written as, between two quotes. -/
theorem toList_quote (s : String) :
    (quote s).toList = '"' :: (s.toList.flatMap escapedChar ++ ['"']) := by
  have hbody : ∀ (cs : List Char) (acc : String),
      (cs.foldl (fun acc c => (escapedChar c).foldl String.push acc) acc).toList
        = acc.toList ++ cs.flatMap escapedChar := by
    intro cs
    induction cs with
    | nil => simp
    | cons c cs ih =>
      intro acc
      rw [List.foldl_cons, ih, toList_foldl_push, List.flatMap_cons, List.append_assoc]
  rw [quote, String.toList_push, hbody]
  rfl

/-- A control is written by its number. -/
theorem hex4?_control {n : Nat} (hn : n < 0x20) :
    hex4? (some '0') (some '0') (some (Nat.digitChar (n / 16))) (some (Nat.digitChar (n % 16)))
      = some n := by
  revert n
  decide

/-- One step of the reader undoes the writing of a character. -/
theorem scanQuote_escapedChar (c : Char) (acc : List Char) (rest : List Sign) :
    scanQuote (some acc) ((escapedChar c).map some ++ rest) = scanQuote (some (c :: acc)) rest := by
  have hletter : ∀ x y : Char, escaped? x = some y → x ≠ 'u' →
      scanQuote (some acc) (some '\\' :: some x :: rest) = scanQuote (some (y :: acc)) rest := by
    intro x y hxy hu
    simp [scanQuote, hxy, hu]
  rw [escapedChar]
  split_ifs with hquote hslash hnew hreturn htab hback hfeed hcontrol
  · subst c
    exact hletter '"' '"' rfl (by decide)
  · subst c
    exact hletter '\\' '\\' rfl (by decide)
  · subst c
    exact hletter 'n' '\n' rfl (by decide)
  · subst c
    exact hletter 'r' '\r' rfl (by decide)
  · subst c
    exact hletter 't' '\t' rfl (by decide)
  · subst c
    exact hletter 'b' '\x08' rfl (by decide)
  · subst c
    exact hletter 'f' '\x0c' rfl (by decide)
  · have hlow : ¬ (0xD800 ≤ c.toNat ∧ c.toNat < 0xDC00) := by omega
    have hhigh : ¬ (0xDC00 ≤ c.toNat ∧ c.toNat < 0xE000) := by omega
    simp [scanQuote, hex4?_control hcontrol, hlow, hhigh]
  · simp [scanQuote, hslash, hcontrol]

/-- **What is quoted is read up to its closing quote.** -/
theorem scanQuote_quote (cs acc : List Char) (rest : List Sign) :
    scanQuote (some acc) ((cs.flatMap escapedChar).map some ++ some '"' :: rest)
      = some (some (acc.reverse ++ cs), rest) := by
  induction cs generalizing acc with
  | nil => simp [scanQuote]
  | cons c cs ih =>
    rw [List.flatMap_cons, List.map_append, List.append_assoc, scanQuote_escapedChar, ih,
      List.reverse_cons, List.append_assoc, List.singleton_append]

theorem signsOf_quote (s : String) (rest : List Sign) : signsOf (quote s) ++ rest
    = some '"' :: ((s.toList.flatMap escapedChar).map some ++ some '"' :: rest) := by
  rw [signsOf, toList_quote]
  simp

theorem quoted?_quote (s : String) (rest : List Sign) :
    quoted? ((s.toList.flatMap escapedChar).map some ++ some '"' :: rest)
      = some (some s, rest) := by
  rw [quoted?, scanQuote_quote]
  simp

/-- The key of an entry. -/
theorem text?_quote (s : String) (rest : List Sign) :
    text? (signsOf (quote s) ++ rest) = some (s, rest) := by
  rw [signsOf_quote, text?]
  simp [after?, skipSpace, isSpace, quoted?_quote]

/-- **A text that is written is read back.** -/
theorem readString_quote (s : String) (rest : List Sign) :
    readString (signsOf (quote s) ++ rest) = .ok (s, rest) := by
  rw [signsOf_quote, readString, readScalar]
  simp [skipSpace, isSpace, scalar?, quoted?_quote]

end

end SharedMemos.Json
