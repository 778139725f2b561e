import SharedMemos.Proofs.Filter.Grammar
import SharedMemos.Proofs.Filter.Guard
import SharedMemos.Proofs.Text.Numeral

/-!
# Texts and their tokens

`Lexes` is the scan without its fuel and its offsets: a text and the tokens that it consists of. It
can be built up from the end, one token after the other, and so the tokens of a text that is written
by a program are found by following how it was written. A token that could go on, a name or a
number, needs something behind it that ends it (`EndsWord`); all others end by themselves.

## Main definitions

* `Lexes` — the tokens of a text
* `Token.isWritten` — what the scan may find
* `ReadsBack` — characters that are read as they are meant, as they are written between quotes
* `IsQuotable` — characters that are read back from a quoted text

## Main results

* `tokenize_of_lexes`, `lexes_of_tokenize` — the scan finds these tokens
* `scanToken_flatMap` — a quoted text is read up to its own quote
* `Lexes.isWritten` — names are words, and numbers have no sign
* `Lexes.ident`, `Lexes.number`, `Lexes.quoted` and their companions — writing one more token
-/

namespace SharedMemos.Filter

open SharedMemos.Text SharedMemos.Filter.Parser

/-- The text consists of the tokens. -/
inductive Lexes : List Char → List Token → Prop
  | nil : Lexes [] []
  | blank {c cs ts} (hc : isBlank c = true) (h : Lexes cs ts) : Lexes (c :: cs) ts
  | token {c cs step ts} (hc : isBlank c = false) (hstep : scanToken c cs = .ok step)
      (h : Lexes step.rest ts) : Lexes (c :: cs) (step.token :: ts)

variable {c quote : Char} {cs rest : List Char} {ts : List Token} {t : Token}
  {write : Char → List Char}

/-! ### The scan -/

/-- The scan finds the tokens of a text. -/
theorem Lexes.exists_scanFrom (h : Lexes cs ts) : ∀ {fuel : Nat} (offset : Nat), cs.length ≤ fuel →
    ∃ found, scanFrom fuel offset cs = .ok found ∧ tokensOf found.tokens = ts := by
  induction h with
  | nil =>
    intro fuel offset _
    exact ⟨⟨[], offset⟩, by rw [scanFrom.eq_1], rfl⟩
  | blank hc _ ih =>
    intro fuel offset hfuel
    obtain ⟨fuel, rfl⟩ := Nat.exists_eq_add_of_le' (Nat.le_trans (Nat.le_add_left 1 _) hfuel)
    obtain ⟨found, hfound, htokens⟩ := ih _ (Nat.le_of_succ_le_succ hfuel)
    exact ⟨found, by rw [scanFrom, if_pos hc, hfound], htokens⟩
  | @token c cs step ts hc hstep _ ih =>
    intro fuel offset hfuel
    obtain ⟨fuel, rfl⟩ := Nat.exists_eq_add_of_le' (Nat.le_trans (Nat.le_add_left 1 _) hfuel)
    have hrest := (found_of_scanToken hstep).length_rest_le
    obtain ⟨found, hfound, htokens⟩ :=
      ih (offset + step.bytes) (Nat.le_trans hrest (Nat.le_of_succ_le_succ hfuel))
    refine ⟨_, scanFrom_cons hc hstep hfound, ?_⟩
    rw [← htokens]
    rfl

/-- And no others. -/
theorem lexes_of_scanFrom : ∀ {fuel offset : Nat} {cs : List Char} {found : Lexemes},
    cs.length ≤ fuel → scanFrom fuel offset cs = .ok found → Lexes cs (tokensOf found.tokens)
  | _, _, [], found, _, h => by
    rw [scanFrom.eq_1] at h
    cases h
    exact .nil
  | 0, _, _ :: _, _, hfuel, _ => absurd hfuel (Nat.not_succ_le_zero _)
  | fuel + 1, offset, c :: cs, found, hfuel, h => by
    have hfuel' : cs.length ≤ fuel := Nat.le_of_succ_le_succ hfuel
    rcases scanFrom_cases h with ⟨hc, hrest⟩ | ⟨step, more, hc, hstep, hrest, rfl⟩
    · exact .blank hc (lexes_of_scanFrom hfuel' hrest)
    · have hle := (found_of_scanToken hstep).length_rest_le
      exact .token hc hstep (lexes_of_scanFrom (Nat.le_trans hle hfuel') hrest)

theorem tokenize_of_lexes {text : String} (h : Lexes text.toList ts) :
    ∃ input, tokenize text = .ok input ∧ tokensOf input.tokens = ts :=
  h.exists_scanFrom 0 (Nat.le_refl _)

theorem lexes_of_tokenize {text : String} {input : Lexemes} (h : tokenize text = .ok input) :
    Lexes text.toList (tokensOf input.tokens) :=
  lexes_of_scanFrom (Nat.le_refl _) h

/-! ### What tokens look like -/

/-- Is the text a word that may be a name? -/
def isName (name : String) : Bool :=
  match name.toList with
  | [] => false
  | c :: cs => isIdentStart c && cs.all isIdentPart

/-- Is the token one that the scan may find? -/
def Token.isWritten : Token → Bool
  | .int n => decide (0 ≤ n) && decide (n ≤ maxInt64)
  | .ident name => isName name
  | _ => true

theorem takeWhile_cons_of_isIdentStart (hc : isIdentStart c = true) :
    (c :: cs).takeWhile isIdentPart = c :: cs.takeWhile isIdentPart :=
  List.takeWhile_cons_of_pos (isIdentPart_of_isIdentStart hc)

theorem isWritten_of_scanIdent (hc : isIdentStart c = true) :
    (scanIdent (c :: cs)).token.isWritten = true := by
  show isName (String.ofList ((c :: cs).takeWhile isIdentPart)) = true
  rw [isName, String.toList_ofList, takeWhile_cons_of_isIdentStart hc]
  show (isIdentStart c && (cs.takeWhile isIdentPart).all isIdentPart) = true
  rw [hc, List.all_eq_true.mpr fun d hd => List.mem_takeWhile_imp hd]
  rfl

/-- What is read from digits has no sign. -/
theorem int64?_nonneg {s : String} {n : Int} (hdigits : ∀ c ∈ s.toList, c.isDigit = true)
    (h : int64? s = some n) : 0 ≤ n := by
  have hunsigned : ∀ {digits : List Char},
      ((digitsValue? digits).filter (· ≤ maxInt64)).map Int.ofNat = some n → 0 ≤ n := by
    intro digits hn
    obtain ⟨k, -, rfl⟩ := Option.map_eq_some_iff.mp hn
    exact Int.natCast_nonneg k
  rw [int64?, integer?] at h
  split at h
  · rename_i hminus
    have hfalse := hdigits '-' (by rw [hminus]; exact List.mem_cons_self)
    exact absurd hfalse (by decide)
  · exact hunsigned h
  · exact hunsigned h

theorem isWritten_of_scanNumber {step : Step} (h : scanNumber cs = .ok step) :
    step.token.isWritten = true := by
  rw [scanNumber] at h
  split at h
  · rename_i n hn
    cases h
    have hnonneg : 0 ≤ n := by
      refine int64?_nonneg (fun c hc => ?_) hn
      rw [String.toList_ofList] at hc
      exact List.mem_takeWhile_imp hc
    rw [Token.isWritten, decide_eq_true hnonneg, decide_eq_true (int64?_le_maxInt64 hn)]
    rfl
  · cases h

theorem isWritten_of_doubleSymbol {d : Char} (h : doubleSymbol? c d = some t) :
    t.isWritten = true := by
  unfold doubleSymbol? at h
  repeat' split at h
  all_goals cases h <;> rfl

theorem isWritten_of_singleSymbol (h : singleSymbol? c = some t) : t.isWritten = true := by
  rw [singleSymbol?.eq_def] at h
  split at h
  all_goals cases h <;> rfl

theorem isWritten_of_scanToken {step : Step} (h : scanToken c cs = .ok step) :
    step.token.isWritten = true := by
  rw [scanToken] at h
  split at h
  · rename_i t hdouble
    cases h
    obtain ⟨d, -, hd⟩ := Option.bind_eq_some_iff.mp hdouble
    exact isWritten_of_doubleSymbol hd
  · split at h
    · rename_i t hsingle
      cases h
      exact isWritten_of_singleSymbol hsingle
    · split at h
      · obtain ⟨s, -, htoken, -⟩ := scanText_eq_ok h
        rw [htoken]
        rfl
      · split at h
        · exact isWritten_of_scanNumber h
        · split at h
          · cases h
            exact isWritten_of_scanIdent ‹_›
          · cases h

/-- **The tokens of a text are such that the scan may find them.** -/
theorem Lexes.isWritten (h : Lexes cs ts) : ∀ t ∈ ts, t.isWritten = true := by
  induction h with
  | nil => exact nofun
  | blank _ _ ih => exact ih
  | token _ hstep _ ih =>
    intro t ht
    rcases List.mem_cons.mp ht with rfl | ht
    · exact isWritten_of_scanToken hstep
    · exact ih t ht

/-! ### Blanks, symbols and words -/

theorem isBlank_of_isIdentPart (hc : isIdentPart c = true) : isBlank c = false := by
  have hbounds := isIdentPart_bounds hc
  have hranges : ∀ r ∈ whiteSpace.ranges, r.2 < 48 ∨ 122 < r.1 := by decide +kernel
  rw [Bool.eq_false_iff]
  intro hblank
  obtain ⟨r, hr, hfirst, hlast⟩ := CharSet.contains_iff.mp hblank
  have hr' := hranges r hr
  omega

/-- Symbols start with characters of their own. -/
theorem apart_of_doubleSymbol {d : Char} (h : doubleSymbol? c d = some t) :
    isBlank c = false ∧ isIdentPart c = false := by
  unfold doubleSymbol? at h
  repeat' split at h
  all_goals first
    | (rename_i hcd; rw [hcd.1]; decide)
    | cases h

theorem apart_of_singleSymbol (h : singleSymbol? c = some t) :
    isBlank c = false ∧ isIdentPart c = false := by
  rw [singleSymbol?.eq_def] at h
  split at h
  all_goals first
    | decide
    | cases h

theorem isDigit_of_isIdentStart (hc : isIdentStart c = true) : c.isDigit = false := by
  rw [Bool.eq_false_iff]
  intro hdigit
  simp only [isIdentStart, Char.isAlpha, Char.isUpper, Char.isLower, Char.isDigit, Bool.or_eq_true,
    Bool.and_eq_true, decide_eq_true_eq, beq_iff_eq, UInt32.le_iff_toNat_le, ge_iff_le]
    at hc hdigit
  obtain ⟨-, hlast⟩ := hdigit
  have hlast' : c.val.toNat ≤ 57 := hlast
  rcases hc with (⟨hfirst, -⟩ | ⟨hfirst, -⟩) | rfl
  · exact absurd (Nat.le_trans hfirst hlast') (by decide)
  · exact absurd (Nat.le_trans hfirst hlast') (by decide)
  · exact absurd hlast' (by decide)

/-- What follows ends a word. -/
def EndsWord (rest : List Char) : Prop :=
  ∀ c ∈ rest.head?, isIdentPart c = false

theorem endsWord_cons (hc : isIdentPart c = false) : EndsWord (c :: rest) := by
  rintro _ ⟨⟩
  exact hc

theorem endsWord_nil : EndsWord [] := nofun

/-- A run of word characters stops where the word ends. -/
theorem takeWhile_append_of_endsWord {p : Char → Bool} (hp : ∀ c, p c = true → isIdentPart c = true)
    (hcs : ∀ c ∈ cs, p c = true) (hrest : EndsWord rest) :
    (cs ++ rest).takeWhile p = cs ∧ (cs ++ rest).dropWhile p = rest := by
  have hhead : ∀ d ∈ rest.head?, p d = false := fun d hd =>
    Bool.eq_false_iff.mpr fun hd' => absurd (hp d hd') (Bool.eq_false_iff.mp (hrest d hd))
  constructor
  · rw [List.takeWhile_append_of_pos hcs]
    cases rest with
    | nil => simp
    | cons d rest => rw [List.takeWhile_cons_of_neg (by simp [hhead d rfl]), List.append_nil]
  · rw [List.dropWhile_append_of_pos hcs]
    cases rest with
    | nil => rfl
    | cons d rest => rw [List.dropWhile_cons_of_neg (by simp [hhead d rfl])]

/-! ### One token -/

/-- A symbol that is not the first half of another. -/
theorem scanToken_single (hc : singleSymbol? c = some t)
    (hhead : rest.head?.bind (doubleSymbol? c) = none) : scanToken c rest = .ok ⟨t, 1, rest⟩ := by
  rw [scanToken, hhead, hc]

/-- A symbol of two characters. -/
theorem scanToken_double {d : Char} (hcd : doubleSymbol? c d = some t) (rest : List Char) :
    scanToken c (d :: rest) = .ok ⟨t, 2, rest⟩ := by
  have hhead : (d :: rest).head?.bind (doubleSymbol? c) = some t := hcd
  rw [scanToken, hhead]
  rfl

/-- No symbol starts with a word character. -/
theorem scanToken_of_isIdentPart (hc : isIdentPart c = true) :
    scanToken c cs = if c.isDigit then scanNumber (c :: cs)
      else if isIdentStart c then .ok (scanIdent (c :: cs)) else .error (.unexpectedChar c) := by
  have hsingle : singleSymbol? c = none :=
    Option.eq_none_iff_forall_ne_some.mpr fun t ht =>
      absurd hc (Bool.eq_false_iff.mp (apart_of_singleSymbol ht).2)
  have hdouble : cs.head?.bind (doubleSymbol? c) = none :=
    Option.bind_eq_none_iff.mpr fun d _ => Option.eq_none_iff_forall_ne_some.mpr fun t ht =>
      absurd hc (Bool.eq_false_iff.mp (apart_of_doubleSymbol ht).2)
  have hquote : ¬ (c = '"' ∨ c = '\'') := by
    rintro (rfl | rfl) <;> exact absurd hc (by decide)
  rw [scanToken, hdouble, hsingle]
  dsimp only
  rw [if_neg hquote]

/-- A name is a word that starts as one. -/
theorem exists_of_isName {name : String} (hname : isName name = true) :
    ∃ c cs, name.toList = c :: cs ∧ isIdentStart c = true ∧ ∀ d ∈ cs, isIdentPart d = true := by
  rw [isName.eq_def] at hname
  split at hname
  · cases hname
  · rename_i c cs hcs
    obtain ⟨hstart, hpart⟩ := Bool.and_eq_true_iff.mp hname
    exact ⟨c, cs, hcs, hstart, List.all_eq_true.mp hpart⟩

/-- A name, in front of something that ends it. -/
theorem scanToken_ident (hstart : isIdentStart c = true) (hcs : ∀ d ∈ cs, isIdentPart d = true)
    (hrest : EndsWord rest) :
    scanToken c (cs ++ rest)
      = .ok ⟨.ident (String.ofList (c :: cs)), (c :: cs).length, rest⟩ := by
  have hpart : isIdentPart c = true := isIdentPart_of_isIdentStart hstart
  obtain ⟨htake, hdrop⟩ :=
    takeWhile_append_of_endsWord (fun _ => id) (List.forall_mem_cons.mpr ⟨hpart, hcs⟩) hrest
  rw [scanToken_of_isIdentPart hpart, isDigit_of_isIdentStart hstart, hstart]
  show (.ok (scanIdent (c :: cs ++ rest)) : Except SyntaxFault Step) = _
  rw [scanIdent]
  simp only [htake, hdrop]

/-- Digits, in front of something that ends them. -/
theorem scanToken_digits {n : Int} (hdigits : ∀ d ∈ c :: cs, d.isDigit = true)
    (hvalue : int64? (String.ofList (c :: cs)) = some n) (hrest : EndsWord rest) :
    scanToken c (cs ++ rest) = .ok ⟨.int n, (c :: cs).length, rest⟩ := by
  obtain ⟨htake, hdrop⟩ :=
    takeWhile_append_of_endsWord (fun _ => isIdentPart_of_isDigit) hdigits hrest
  have hc : c.isDigit = true := hdigits c List.mem_cons_self
  rw [scanToken_of_isIdentPart (isIdentPart_of_isDigit hc), hc, if_pos rfl]
  show scanNumber (c :: cs ++ rest) = _
  rw [scanNumber]
  simp only [htake, hdrop, hvalue]

/-! ### Writing a token -/

namespace Lexes

theorem space (h : Lexes cs ts) : Lexes (' ' :: cs) ts :=
  .blank (by decide) h

/-- A symbol that is not the first half of another. -/
theorem symbol (hc : singleSymbol? c = some t) (hhead : rest.head?.bind (doubleSymbol? c) = none)
    (h : Lexes rest ts) : Lexes (c :: rest) (t :: ts) :=
  .token (apart_of_singleSymbol hc).1 (scanToken_single hc hhead) h

/-- A symbol that no other starts with. -/
theorem single (hc : singleSymbol? c = some t) (halone : c ∉ ['!', '<', '>'])
    (h : Lexes rest ts) : Lexes (c :: rest) (t :: ts) := by
  refine symbol hc (Option.bind_eq_none_iff.mpr fun d _ => ?_) h
  simp only [List.mem_cons, List.not_mem_nil, or_false, not_or] at halone
  rw [singleSymbol?.eq_def] at hc
  rw [doubleSymbol?]
  split_ifs with h₁ h₂ h₃ h₄ h₅ h₆
  · rw [h₁.1] at hc
    cases hc
  · rw [h₂.1] at hc
    cases hc
  · rw [h₃.1] at hc
    cases hc
  · exact absurd h₄.1 halone.1
  · exact absurd h₅.1 halone.2.1
  · exact absurd h₆.1 halone.2.2
  · rfl

/-- A symbol of two characters. -/
theorem symbols {d : Char} (hcd : doubleSymbol? c d = some t) (h : Lexes rest ts) :
    Lexes (c :: d :: rest) (t :: ts) :=
  .token (apart_of_doubleSymbol hcd).1 (scanToken_double hcd rest) h

/-- A name, in front of something that ends it. -/
theorem ident (name : String) (hname : isName name = true) (hrest : EndsWord rest)
    (h : Lexes rest ts) : Lexes (name.toList ++ rest) (.ident name :: ts) := by
  obtain ⟨c, cs, hcs, hstart, hpart⟩ := exists_of_isName hname
  have hstep := scanToken_ident hstart hpart hrest
  rw [← hcs, String.ofList_toList] at hstep
  rw [hcs]
  exact .token (isBlank_of_isIdentPart (isIdentPart_of_isIdentStart hstart)) hstep h

/-- A number, in front of something that ends it. -/
theorem number {n : Nat} (hn : n ≤ maxInt64) (hrest : EndsWord rest) (h : Lexes rest ts) :
    Lexes (Nat.toDigits 10 n ++ rest) (.int n :: ts) := by
  have hdigits : ∀ d ∈ Nat.toDigits 10 n, d.isDigit = true := fun d hd =>
    Nat.isDigit_of_mem_toDigits (by decide) (by decide) hd
  have hvalue : int64? (String.ofList (Nat.toDigits 10 n)) = some (n : Int) :=
    int64?_showInt (n := .ofNat n) (Int.le_trans (by decide) (Int.natCast_nonneg n))
      (Int.ofNat_le.mpr hn)
  cases hcs : Nat.toDigits 10 n with
  | nil => exact absurd hcs Nat.toDigits_ne_nil
  | cons c cs =>
    rw [hcs] at hvalue hdigits
    have hc : c.isDigit = true := hdigits c List.mem_cons_self
    exact .token (isBlank_of_isIdentPart (isIdentPart_of_isDigit hc))
      (scanToken_digits hdigits hvalue hrest) h

end Lexes

/-! ### Quoted text -/

/-- The characters that a text may stand between. -/
def IsQuote (c : Char) : Prop :=
  c = '"' ∨ c = '\''

theorem IsQuote.ne_backslash (h : IsQuote quote) : '\\' ≠ quote := by
  rcases h with rfl | rfl <;> decide

theorem IsQuote.isBlank_eq_false (h : IsQuote quote) : isBlank quote = false := by
  rcases h with rfl | rfl <;> decide

/-- No symbol starts with a quote. -/
theorem scanToken_quote (h : IsQuote quote) (cs : List Char) :
    scanToken quote cs = scanText quote [] quote.utf8Size cs := by
  have hdouble : cs.head?.bind (doubleSymbol? quote) = none := by
    rcases h with rfl | rfl <;> exact Option.bind_eq_none_iff.mpr fun _ _ => rfl
  have hsingle : singleSymbol? quote = none := by
    rcases h with rfl | rfl <;> rfl
  rw [scanToken, hdouble, hsingle]
  dsimp only
  rw [if_pos (show quote = '"' ∨ quote = '\'' from h)]

/-- What is written for the character is read as the character. -/
def ReadsBack (quote : Char) (write : Char → List Char) (c : Char) : Prop :=
  ∀ (acc : List Char) (bytes : Nat) (cs : List Char),
    scanText quote acc bytes (write c ++ cs)
      = scanText quote (c :: acc) (bytes + byteSize (write c)) cs

theorem readsBack_plain (hend : c ≠ quote) (hslash : c ≠ '\\') (hwrite : write c = [c]) :
    ReadsBack quote write c := by
  intro acc bytes cs
  rw [hwrite, List.singleton_append, scanText.eq_def]
  dsimp only
  rw [if_neg hend, if_neg hslash, byteSize_cons, byteSize_nil, Nat.add_zero]

theorem readsBack_escape {e : Char} (hquote : IsQuote quote) (he : escape? e = some c)
    (hwrite : write c = ['\\', e]) : ReadsBack quote write c := by
  intro acc bytes cs
  rw [hwrite, List.cons_append, scanText.eq_def]
  dsimp only
  rw [if_neg hquote.ne_backslash, if_pos rfl]
  simp only [List.singleton_append, he, byteSize_cons, byteSize_nil, Nat.add_zero, Nat.add_assoc]

/-- A text is read up to the quote behind it, where each of its characters is read back. -/
theorem scanText_flatMap (hcs : ∀ c ∈ cs, ReadsBack quote write c) (rest : List Char) :
    ∀ (acc : List Char) (bytes : Nat),
    scanText quote acc bytes (cs.flatMap write ++ quote :: rest)
      = .ok ⟨.string (String.ofList (acc.reverse ++ cs)),
          bytes + byteSize (cs.flatMap write) + quote.utf8Size, rest⟩ := by
  induction cs with
  | nil =>
    intro acc bytes
    rw [List.flatMap_nil, List.nil_append, scanText.eq_def]
    dsimp only
    rw [if_pos rfl, List.append_nil, byteSize_nil, Nat.add_zero]
  | cons c cs ih =>
    intro acc bytes
    obtain ⟨hc, hcs⟩ := List.forall_mem_cons.mp hcs
    rw [List.flatMap_cons, List.append_assoc, hc, ih hcs, byteSize_append, List.reverse_cons,
      List.append_assoc, List.singleton_append, Nat.add_assoc bytes]

/-- **A quoted text is read up to its own quote**, whatever is behind it. -/
theorem scanToken_flatMap (hquote : IsQuote quote) (hcs : ∀ c ∈ cs, ReadsBack quote write c)
    (rest : List Char) :
    scanToken quote (cs.flatMap write ++ quote :: rest)
      = .ok ⟨.string (String.ofList cs), byteSize (quote :: (cs.flatMap write ++ [quote])),
          rest⟩ := by
  have hsize : byteSize (quote :: (cs.flatMap write ++ [quote]))
      = quote.utf8Size + byteSize (cs.flatMap write) + quote.utf8Size := by
    rw [byteSize_cons, byteSize_append, byteSize_cons, byteSize_nil, Nat.add_zero, Nat.add_assoc]
  rw [scanToken_quote hquote, scanText_flatMap hcs, hsize, List.reverse_nil, List.nil_append]

/-- The character is read back from a quoted text: it is written as itself, or as an escape that the
scan knows. -/
def IsQuotable (c : Char) : Prop :=
  quotedChar c = [c] ∨ c ∈ ['"', '\\', '\n', '\t', '\r']

instance (c : Char) : Decidable (IsQuotable c) :=
  inferInstanceAs (Decidable (_ ∨ _))

set_option maxRecDepth 100000 in
/-- No range of the tables goes into ASCII, controls apart. -/
theorem ranges_apart_from_ascii :
    (unprintable.ranges ++ graphemeExtend.ranges).all
      (fun r => decide (r.2 < 0x20) || decide (0x7E < r.1)) = true := by
  decide +kernel

/-- ASCII characters are quotable, controls apart. -/
theorem isQuotable_of_ascii (hc : 0x20 ≤ c.toNat ∧ c.toNat ≤ 0x7E) : IsQuotable c := by
  have hnone : ∀ set : CharSet, set = unprintable ∨ set = graphemeExtend →
      set.contains c = false := by
    intro set hset
    rw [Bool.eq_false_iff]
    intro hcontains
    obtain ⟨r, hr, hfirst, hlast⟩ := CharSet.contains_iff.mp hcontains
    have hmem : r ∈ unprintable.ranges ++ graphemeExtend.ranges := by
      rcases hset with rfl | rfl
      · exact List.mem_append_left _ hr
      · exact List.mem_append_right _ hr
    have hapart := List.all_eq_true.mp ranges_apart_from_ascii r hmem
    simp only [Bool.or_eq_true, decide_eq_true_eq] at hapart
    omega
  have hprintable : isPrintable c = true := by
    rw [isPrintable, hnone _ (.inl rfl), hnone _ (.inr rfl)]
    rfl
  have hzero : c.toNat ≠ 0 := by omega
  unfold IsQuotable quotedChar
  split_ifs <;> simp_all

theorem readsBack_quotedChar (hc : IsQuotable c) : ReadsBack '"' quotedChar c := by
  rcases hc with hself | hescape
  · refine readsBack_plain ?_ ?_ hself
    · rintro rfl
      exact absurd hself (by decide)
    · rintro rfl
      exact absurd hself (by decide)
  · simp only [List.mem_cons, List.not_mem_nil, or_false] at hescape
    rcases hescape with rfl | rfl | rfl | rfl | rfl <;> exact readsBack_escape (.inl rfl) rfl rfl

/-- A quoted text. -/
theorem Lexes.quoted {s : String} (hs : ∀ c ∈ s.toList, IsQuotable c) (h : Lexes rest ts) :
    Lexes ((quoted s).toList ++ rest) (.string s :: ts) := by
  have hstep := scanToken_flatMap (.inl rfl) (fun c hc => readsBack_quotedChar (hs c hc)) rest
  rw [String.ofList_toList] at hstep
  rw [Text.quoted, String.toList_ofList, List.cons_append, List.append_assoc,
    List.singleton_append]
  exact .token (by decide) hstep h

end SharedMemos.Filter
