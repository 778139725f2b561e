import SharedMemos.Proofs.Filter.Lexing

/-!
# Filters written token by token

A client writes a filter out of tokens: symbols and names as they are, a number as any numeral of
it, and a text between quotes of either kind, with a backslash before each backslash and each quote
of that kind. With blanks between the tokens, whichever and however many, the scan finds exactly
these tokens, each at the number of bytes that stand in front of it.

A quoted text needs no blank behind it. Whatever its characters are, it ends with its own quote, and
what follows is scanned as if nothing stood before it.

## Main definitions

* `Token.Written` — what a token may be written as
* `Piece` — a token as it is written, with the blanks in front of it
* `render`, `lexemesFrom` — the text of pieces, and their tokens with their offsets
* `scan` — the scan from an offset, with fuel enough

## Main results

* `scanFrom_congr` — how much fuel there is does not matter, if there is enough
* `scanToken_literal` — a quoted text is read up to its own quote
* `Token.Written.exists_scanToken` — so is every other token, up to a blank
* `scan_render` — pieces are found one after the other
* `tokenize_render` — a written filter has the tokens that it was written from
-/

namespace SharedMemos.Filter

open SharedMemos.Text

variable {c d quote : Char} {cs rest text : List Char} {t : Token} {offset : Nat}

/-! ### The scan without its fuel -/

/-- Fuel beyond the length of the text is not used. -/
theorem scanFrom_congr : ∀ {fuel fuel' offset : Nat} {cs : List Char}, cs.length ≤ fuel →
    cs.length ≤ fuel' → scanFrom fuel offset cs = scanFrom fuel' offset cs
  | _, _, _, [], _, _ => by rw [scanFrom.eq_1, scanFrom.eq_1]
  | 0, _, _, _ :: _, h, _ => absurd h (Nat.not_succ_le_zero _)
  | _, 0, _, _ :: _, _, h => absurd h (Nat.not_succ_le_zero _)
  | fuel + 1, fuel' + 1, offset, c :: cs, h, h' => by
    have hcs := Nat.le_of_succ_le_succ h
    have hcs' := Nat.le_of_succ_le_succ h'
    rw [scanFrom, scanFrom, scanFrom_congr hcs hcs']
    cases hstep : scanToken c cs with
    | error fault => rfl
    | ok step =>
      have hrest := (found_of_scanToken hstep).length_rest_le
      dsimp only
      rw [scanFrom_congr (Nat.le_trans hrest hcs) (Nat.le_trans hrest hcs')]

/-- The tokens of a text that starts at an offset. -/
def scan (offset : Nat) (cs : List Char) : Except SyntaxError Lexemes :=
  scanFrom cs.length offset cs

/-- The lexemes with others in front of them. -/
def Lexemes.after (front : List Lexeme) (found : Lexemes) : Lexemes :=
  ⟨front ++ found.tokens, found.stop⟩

theorem scan_nil (offset : Nat) : scan offset [] = .ok ⟨[], offset⟩ :=
  scanFrom.eq_1 _ _

theorem scan_blank (hc : isBlank c = true) (offset : Nat) (cs : List Char) :
    scan offset (c :: cs) = scan (offset + c.utf8Size) cs := by
  rw [scan, List.length_cons, scanFrom, if_pos hc, scan]

theorem scan_token {step : Step} (hc : isBlank c = false) (hstep : scanToken c cs = .ok step)
    (offset : Nat) :
    scan offset (c :: cs)
      = (scan (offset + step.bytes) step.rest).map (Lexemes.after [(step.token, offset)]) := by
  have hrest := (found_of_scanToken hstep).length_rest_le
  rw [scan, List.length_cons, scanFrom, if_neg (by rw [hc]; decide), hstep, scan,
    ← scanFrom_congr hrest (Nat.le_refl _)]
  dsimp only
  cases scanFrom cs.length (offset + step.bytes) step.rest <;> rfl

theorem map_after_nil (found : Except SyntaxError Lexemes) :
    found.map (Lexemes.after []) = found := by
  cases found <;> rfl

theorem map_after_map_after (front more : List Lexeme) (found : Except SyntaxError Lexemes) :
    (found.map (Lexemes.after more)).map (Lexemes.after front)
      = found.map (Lexemes.after (front ++ more)) := by
  cases found with
  | error e => rfl
  | ok found => simp only [Except.map, Lexemes.after, List.append_assoc]

/-! ### The size of tokens -/

theorem byteSize_doubleSymbol (h : doubleSymbol? c d = some t) : byteSize [c, d] = 2 := by
  unfold doubleSymbol? at h
  repeat' split at h
  all_goals first
    | (rename_i hcd; rw [hcd.1, hcd.2]; rfl)
    | cases h

theorem byteSize_singleSymbol (h : singleSymbol? c = some t) : byteSize [c] = 1 := by
  rw [singleSymbol?.eq_def] at h
  split at h
  all_goals first
    | rfl
    | cases h

/-- Word characters take one byte each. -/
theorem byteSize_of_isIdentPart (h : ∀ c ∈ cs, isIdentPart c = true) :
    byteSize cs = cs.length :=
  byteSize_of_ascii fun c hc => Nat.le_trans (isIdentPart_bounds (h c hc)).2 (by decide)

/-! ### Tokens as they are written -/

/-- How a symbol is written. The other tokens have no text of their own. -/
def Token.symbol? : Token → Option (List Char)
  | .leftParen => ['(']
  | .rightParen => [')']
  | .leftBracket => ['[']
  | .rightBracket => [']']
  | .comma => [',']
  | .dot => ['.']
  | .bang => ['!']
  | .andAnd => ['&', '&']
  | .orOr => ['|', '|']
  | .eqEq => ['=', '=']
  | .notEq => ['!', '=']
  | .lt => ['<']
  | .le => ['<', '=']
  | .gt => ['>']
  | .ge => ['>', '=']
  | .plus => ['+']
  | .minus => ['-']
  | .star => ['*']
  | .slash => ['/']
  | .percent => ['%']
  | .int _ | .string _ | .ident _ => none

/-- A character inside quotes: a backslash stands before a backslash and before the quote. -/
def escaped (quote c : Char) : List Char :=
  if c = quote ∨ c = '\\' then ['\\', c] else [c]

/-- A text between quotes. -/
def literal (quote : Char) (s : String) : List Char :=
  quote :: (s.toList.flatMap (escaped quote) ++ [quote])

/-- What a token may be written as. -/
inductive Token.Written : Token → List Char → Prop
  | symbol {t : Token} {text : List Char} (h : t.symbol? = some text) : Written t text
  | int {digits : List Char} (hne : digits ≠ []) (hdigits : ∀ c ∈ digits, c.isDigit = true)
      (hvalue : Nat.ofDigitChars 10 digits 0 ≤ maxInt64) :
    Written (.int (Nat.ofDigitChars 10 digits 0)) digits
  | ident {name : String} (hname : isName name = true) : Written (.ident name) name.toList
  | string {quote : Char} (hquote : IsQuote quote) (s : String) :
    Written (.string s) (literal quote s)

/-- The text starts with a blank, or it is empty. -/
def StartsBlank (rest : List Char) : Prop :=
  ∀ c ∈ rest.head?, isBlank c = true

theorem StartsBlank.endsWord (h : StartsBlank rest) : EndsWord rest := by
  intro c hc
  rw [Bool.eq_false_iff]
  intro hpart
  exact absurd (h c hc) (Bool.eq_false_iff.mp (isBlank_of_isIdentPart hpart))

/-- No symbol has a blank in second place. -/
theorem doubleSymbol?_of_isBlank (hd : isBlank d = true) (c : Char) :
    doubleSymbol? c d = none := by
  have hne : ∀ e : Char, isBlank e = false → d ≠ e := by
    rintro e he rfl
    rw [he] at hd
    cases hd
  simp [doubleSymbol?, hne '&' (by decide), hne '|' (by decide), hne '=' (by decide)]

/-- A symbol is found by its first character or its first two. -/
theorem Token.symbol?_cases (h : t.symbol? = some text) :
    (∃ c, text = [c] ∧ singleSymbol? c = some t)
      ∨ ∃ c d, text = [c, d] ∧ doubleSymbol? c d = some t := by
  cases t <;> cases h <;> first | exact .inl ⟨_, rfl, rfl⟩ | exact .inr ⟨_, _, rfl, rfl⟩

/-! ### Any token -/

/-- A backslash in front is enough. -/
theorem readsBack_escaped (hquote : IsQuote quote) (c : Char) :
    ReadsBack quote (escaped quote) c := by
  by_cases hescaped : c = quote ∨ c = '\\'
  · have hself : escape? c = some c := by
      rcases hescaped with rfl | rfl
      · rcases hquote with rfl | rfl <;> rfl
      · rfl
    exact readsBack_escape hquote hself (if_pos hescaped)
  · obtain ⟨hend, hslash⟩ := not_or.mp hescaped
    exact readsBack_plain hend hslash (if_neg hescaped)

/-- **A text ends with its own quote**, whatever is in it and behind it. -/
theorem scanToken_literal (hquote : IsQuote quote) (s : String) (rest : List Char) :
    scanToken quote (s.toList.flatMap (escaped quote) ++ quote :: rest)
      = .ok ⟨.string s, byteSize (literal quote s), rest⟩ := by
  have hread : ∀ c ∈ s.toList, ReadsBack quote (escaped quote) c :=
    fun c _ => readsBack_escaped hquote c
  have hstep := scanToken_flatMap hquote hread rest
  rwa [String.ofList_toList] at hstep

/-- **A token is found as it is written**, in front of a blank. -/
theorem Token.Written.exists_scanToken (h : t.Written text) (hrest : StartsBlank rest) :
    ∃ c cs, text = c :: cs ∧ isBlank c = false
      ∧ scanToken c (cs ++ rest) = .ok ⟨t, byteSize text, rest⟩ := by
  cases h with
  | symbol h =>
    rcases Token.symbol?_cases h with ⟨c, rfl, hc⟩ | ⟨c, d, rfl, hcd⟩
    · have hhead : rest.head?.bind (doubleSymbol? c) = none :=
        Option.bind_eq_none_iff.mpr fun d hd => doubleSymbol?_of_isBlank (hrest d hd) c
      refine ⟨c, [], rfl, (apart_of_singleSymbol hc).1, ?_⟩
      rw [List.nil_append, scanToken_single hc hhead, byteSize_singleSymbol hc]
    · refine ⟨c, [d], rfl, (apart_of_doubleSymbol hcd).1, ?_⟩
      rw [List.singleton_append, scanToken_double hcd, byteSize_doubleSymbol hcd]
  | int hne hdigits hvalue =>
    obtain ⟨c, cs, rfl⟩ := List.exists_cons_of_ne_nil hne
    have hword : ∀ d ∈ c :: cs, isIdentPart d = true :=
      fun d hd => isIdentPart_of_isDigit (hdigits d hd)
    refine ⟨c, cs, rfl, isBlank_of_isIdentPart (hword c List.mem_cons_self), ?_⟩
    rw [scanToken_digits hdigits (int64?_ofList hne hdigits hvalue) hrest.endsWord,
      byteSize_of_isIdentPart hword]
  | @ident name hname =>
    obtain ⟨c, cs, hcs, hstart, hpart⟩ := exists_of_isName hname
    have hstart' := isIdentPart_of_isIdentStart hstart
    have hword : ∀ d ∈ c :: cs, isIdentPart d = true := List.forall_mem_cons.mpr ⟨hstart', hpart⟩
    refine ⟨c, cs, hcs, isBlank_of_isIdentPart hstart', ?_⟩
    rw [scanToken_ident hstart hpart hrest.endsWord, hcs, byteSize_of_isIdentPart hword, ← hcs,
      String.ofList_toList]
  | @string quote hquote s =>
    refine ⟨quote, _, rfl, hquote.isBlank_eq_false, ?_⟩
    rw [List.append_assoc, List.singleton_append, scanToken_literal hquote]

theorem Token.Written.scan_eq (h : t.Written text) (hrest : StartsBlank rest) (offset : Nat) :
    scan offset (text ++ rest)
      = (scan (offset + byteSize text) rest).map (Lexemes.after [(t, offset)]) := by
  obtain ⟨c, cs, rfl, hc, hstep⟩ := h.exists_scanToken hrest
  exact scan_token hc hstep offset

theorem scan_literal (hquote : IsQuote quote) (s : String) (rest : List Char) (offset : Nat) :
    scan offset (literal quote s ++ rest)
      = (scan (offset + byteSize (literal quote s)) rest).map
        (Lexemes.after [(.string s, offset)]) := by
  have hstep := scanToken_literal hquote s rest
  rw [← List.singleton_append, ← List.append_assoc] at hstep
  exact scan_token hquote.isBlank_eq_false hstep offset

theorem scan_blanks {blanks : List Char} (hblanks : ∀ c ∈ blanks, isBlank c = true) (offset : Nat)
    (cs : List Char) : scan offset (blanks ++ cs) = scan (offset + byteSize blanks) cs := by
  induction blanks generalizing offset with
  | nil => rfl
  | cons c blanks ih =>
    obtain ⟨hc, hblanks⟩ := List.forall_mem_cons.mp hblanks
    rw [List.cons_append, scan_blank hc, ih hblanks, byteSize_cons, Nat.add_assoc]

/-! ### Pieces -/

/-- A token as it is written, with the blanks in front of it. -/
structure Piece where
  blanks : List Char
  token : Token
  text : List Char
  isBlank_of_mem : ∀ c ∈ blanks, isBlank c = true
  written : token.Written text

/-- The text of pieces. -/
def render (pieces : List Piece) : List Char :=
  pieces.flatMap fun p => p.blanks ++ p.text

/-- The tokens of pieces behind a text, each with the number of bytes in front of it. -/
def lexemesFrom (before : List Char) : List Piece → List Lexeme
  | [] => []
  | p :: ps =>
    (p.token, byteSize (before ++ p.blanks)) :: lexemesFrom (before ++ p.blanks ++ p.text) ps

variable {pieces : List Piece} {blanks : List Char}

theorem startsBlank_append (hne : blanks ≠ []) (hblanks : ∀ c ∈ blanks, isBlank c = true)
    (rest : List Char) : StartsBlank (blanks ++ rest) := by
  obtain ⟨c, cs, rfl⟩ := List.exists_cons_of_ne_nil hne
  rintro _ ⟨⟩
  exact hblanks c List.mem_cons_self

theorem startsBlank_render (hgaps : ∀ p ∈ pieces, p.blanks ≠ []) (hrest : StartsBlank rest) :
    StartsBlank (render pieces ++ rest) := by
  cases pieces with
  | nil => exact hrest
  | cons p ps =>
    rw [render, List.flatMap_cons, List.append_assoc, List.append_assoc]
    exact startsBlank_append (hgaps p List.mem_cons_self) p.isBlank_of_mem _

/-- **Pieces are found one after the other**, and the scan goes on behind them. -/
theorem scan_render (before rest : List Char) (hgaps : ∀ p ∈ pieces.tail, p.blanks ≠ [])
    (hrest : pieces ≠ [] → StartsBlank rest) :
    scan (byteSize before) (render pieces ++ rest)
      = (scan (byteSize (before ++ render pieces)) rest).map
        (Lexemes.after (lexemesFrom before pieces)) := by
  induction pieces generalizing before with
  | nil => rw [render, List.flatMap_nil, List.append_nil, lexemesFrom, map_after_nil]; rfl
  | cons p ps ih =>
    have hgaps : ∀ q ∈ ps, q.blanks ≠ [] := hgaps
    have hrest : StartsBlank rest := hrest (List.cons_ne_nil p ps)
    have hnext := ih (before ++ p.blanks ++ p.text)
      (fun q hq => hgaps q (List.mem_of_mem_tail hq)) fun _ => hrest
    calc scan (byteSize before) (render (p :: ps) ++ rest)
        = scan (byteSize before) (p.blanks ++ (p.text ++ (render ps ++ rest))) := by
          simp only [render, List.flatMap_cons, List.append_assoc]
      _ = scan (byteSize (before ++ p.blanks)) (p.text ++ (render ps ++ rest)) := by
          rw [scan_blanks p.isBlank_of_mem, byteSize_append]
      _ = (scan (byteSize (before ++ p.blanks ++ p.text)) (render ps ++ rest)).map
            (Lexemes.after [(p.token, byteSize (before ++ p.blanks))]) := by
          rw [p.written.scan_eq (startsBlank_render hgaps hrest), byteSize_append (before ++ _)]
      _ = (scan (byteSize (before ++ render (p :: ps))) rest).map
            (Lexemes.after (lexemesFrom before (p :: ps))) := by
          rw [hnext, map_after_map_after]
          simp only [render, List.flatMap_cons, List.append_assoc, lexemesFrom,
            List.singleton_append]

theorem tokenize_ofList (cs : List Char) : tokenize (String.ofList cs) = scan 0 cs := by
  rw [tokenize, String.toList_ofList, scan]

/-- **A written filter has the tokens that it was written from**, each with the number of bytes in
front of it, wherever there are blanks between them. A quoted text behind them is a token of its
own, and what is behind that is scanned from there as it would be by itself. -/
theorem tokenize_render (hgaps : ∀ p ∈ pieces.tail, p.blanks ≠ [])
    (hblanks : ∀ c ∈ blanks, isBlank c = true) :
    tokenize (String.ofList (render pieces ++ blanks))
        = .ok ⟨lexemesFrom [] pieces, (String.ofList (render pieces ++ blanks)).utf8ByteSize⟩
      ∧ ∀ (quote : Char) (s : String) (rest : List Char), IsQuote quote →
        (pieces ≠ [] → blanks ≠ []) →
        tokenize (String.ofList (render pieces ++ blanks ++ literal quote s ++ rest))
          = (scan (byteSize (render pieces ++ blanks ++ literal quote s)) rest).map
            (Lexemes.after
              (lexemesFrom [] pieces ++ [(.string s, byteSize (render pieces ++ blanks))])) := by
  refine ⟨?_, fun quote s rest hquote hapart => ?_⟩
  · have hend : scan (byteSize (render pieces)) blanks
        = .ok ⟨[], byteSize (render pieces ++ blanks)⟩ := by
      have hscan := scan_blanks hblanks (byteSize (render pieces)) []
      rwa [List.append_nil, scan_nil, ← byteSize_append] at hscan
    have hfound := scan_render [] blanks hgaps fun _ c hc => hblanks c (List.mem_of_head? hc)
    rw [byteSize_nil, List.nil_append, hend] at hfound
    rw [tokenize_ofList, hfound, Except.map, Lexemes.after, List.append_nil, byteSize]
  · have hfound := scan_render [] (blanks ++ (literal quote s ++ rest)) hgaps
      fun hne => startsBlank_append (hapart hne) hblanks _
    rw [byteSize_nil, List.nil_append, scan_blanks hblanks, ← byteSize_append,
      scan_literal hquote, ← byteSize_append, map_after_map_after] at hfound
    rw [tokenize_ofList, List.append_assoc, List.append_assoc, hfound]

/-- A comparison, behind a blank of three bytes and with zeros in front of the number. -/
def comparison : List Piece :=
  [⟨['\u3000'], .ident "creator_id", _, List.all_eq_true.mp rfl, .ident (by decide)⟩,
    ⟨['\t'], .ge, _, List.all_eq_true.mp rfl, .symbol rfl⟩,
    ⟨[' ', '\n'], .int (Nat.ofDigitChars 10 ['0', '0', '7'] 0), _, List.all_eq_true.mp rfl,
      .int (by decide) (List.all_eq_true.mp rfl) (by decide)⟩]

/-- A text that ends nothing, and a quote behind it that begins a text without an end. -/
theorem tokenize_render_comparison :
    (∀ p ∈ comparison.tail, p.blanks ≠ []) ∧ (∀ c ∈ [' '], isBlank c = true)
      ∧ tokenize (String.ofList (render comparison ++ [' ']))
        = .ok ⟨[(.ident "creator_id", 3), (.ge, 14), (.int 7, 18)], 22⟩
      ∧ IsQuote '\''
      ∧ tokenize (String.ofList (render comparison ++ [' '] ++ literal '\'' "' || \\" ++ ['"']))
        = .error ⟨.unterminatedText, 32⟩ := by
  have hgaps : ∀ p ∈ comparison.tail, p.blanks ≠ [] := by decide
  have hblanks : ∀ c ∈ [' '], isBlank c = true := List.all_eq_true.mp rfl
  obtain ⟨hall, hliteral⟩ := tokenize_render hgaps hblanks
  refine ⟨hgaps, hblanks, hall.trans ?_, .inr rfl,
    (hliteral '\'' "' || \\" ['"'] (.inr rfl) fun _ => List.cons_ne_nil _ _).trans ?_⟩
  · rfl
  · rfl

end SharedMemos.Filter
