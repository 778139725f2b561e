import SharedMemos.Proofs.Filter.Grammar
import SharedMemos.Proofs.Filter.Names
import SharedMemos.Proofs.Filter.Prefilter
import SharedMemos.Proofs.Filter.Token
import SharedMemos.Proofs.Text.Ascii
import Mathlib

/-!
# Filters that must not look at content

The guard looks at the text of a filter, and evaluation looks at its tree. Between the two stand a
scan with another idea of where a word ends, and the grammar.

A word of the text is touched by no letter, digit or mark of any script. An identifier is a run of
letters, digits and underscores of ASCII. So the two part where a character that is not ASCII
follows an identifier, and there the scan fails. And they part where an identifier follows a number
without a blank, as in `1content`, which is one word and two tokens. There the scan goes on, and it
is the grammar that has no place for a name behind a number (`Derives.isChain`). Behind anything
else an identifier starts where a word starts, since a symbol, a quote or a blank is no part of a
word.

So a text without such a word has no such identifier, wherever it is read as an expression, and then
the expression mentions no such name.

## Main results

* `scanFrom_hidesWords` — the words that the guard does not see are behind numbers
* `Derives.isChain` — and no name stands behind a number
* `sparesContent_of_compileGuarded` — so that no filter behind the guard mentions content
* `guarded_ignores_content` — and none looks at it
-/

namespace SharedMemos.Filter

open SharedMemos.Text

/-! ### Where words begin and end -/

theorem wideWord_ge {c : Char} (h : wideWord.contains c = true) : 128 ≤ c.toNat := by
  have hranges : ∀ r ∈ wideWord.ranges, 128 ≤ r.1 := by decide +kernel
  obtain ⟨r, hr, hle, -⟩ := CharSet.contains_iff.mp h
  exact Nat.le_trans (hranges r hr) hle

theorem not_wideWord_of_isBlank {c : Char} (h : isBlank c = true) :
    wideWord.contains c = false := by
  have hapart : ∀ r ∈ whiteSpace.ranges, ∀ s ∈ wideWord.ranges, r.2 < s.1 ∨ s.2 < r.1 := by
    decide +kernel
  rw [Bool.eq_false_iff]
  intro hwide
  obtain ⟨r, hr, hfirst, hlast⟩ := CharSet.contains_iff.mp h
  obtain ⟨s, hs, hfirst', hlast'⟩ := CharSet.contains_iff.mp hwide
  have hrs := hapart r hr s hs
  omega

theorem isIdentPart_bounds {c : Char} (h : isIdentPart c = true) :
    48 ≤ c.toNat ∧ c.toNat ≤ 122 := by
  rcases Bool.or_eq_true_iff.mp h with halphanumeric | hline
  · exact isAsciiAlphanumeric_bounds halphanumeric
  · rw [beq_iff_eq.mp hline]
    decide

/-- Word characters are those of identifiers, and the wide ones. -/
theorem isWord_eq (c : Char) : isWord c = (isIdentPart c || wideWord.contains c) := rfl

theorem isWord_of_lt {c : Char} (h : c.toNat < 128) : isWord c = isIdentPart c := by
  have hwide : wideWord.contains c = false := by
    rw [Bool.eq_false_iff]
    exact fun hwide => absurd (wideWord_ge hwide) (by omega)
  rw [isWord_eq, hwide, Bool.or_false]

theorem isWord_of_isBlank {c : Char} (h : isBlank c = true) : isWord c = false := by
  have hpart : isIdentPart c = false := by
    rw [Bool.eq_false_iff]
    intro hpart
    have hranges : ∀ r ∈ whiteSpace.ranges, r.2 < 48 ∨ 122 < r.1 := by decide +kernel
    obtain ⟨r, hr, hfirst, hlast⟩ := CharSet.contains_iff.mp h
    have hbounds := isIdentPart_bounds hpart
    have hr' := hranges r hr
    omega
  rw [isWord_eq, hpart, not_wideWord_of_isBlank h, Bool.or_false]

theorem isIdentPart_of_isDigit {c : Char} (h : c.isDigit = true) : isIdentPart c = true := by
  rw [isIdentPart, Char.isAlphanum, h, Bool.or_true, Bool.true_or]

theorem doubleSymbol_ascii {c d : Char} {t : Token} (h : doubleSymbol? c d = some t) :
    c.toNat < 128 ∧ d.toNat < 128 ∧ isIdentPart d = false := by
  have hsymbols : (c, d) ∈ [('&', '&'), ('|', '|'), ('=', '='), ('!', '='), ('<', '='),
      ('>', '=')] := by
    by_contra hnot
    simp only [List.mem_cons, List.not_mem_nil, or_false, Prod.mk.injEq, not_or] at hnot
    simp [doubleSymbol?, hnot] at h
  have hascii : ∀ s ∈ [('&', '&'), ('|', '|'), ('=', '='), ('!', '='), ('<', '='), ('>', '=')],
      s.1.toNat < 128 ∧ s.2.toNat < 128 ∧ isIdentPart s.2 = false := by
    decide
  exact hascii _ hsymbols

theorem singleSymbol_ascii {c : Char} {t : Token} (h : singleSymbol? c = some t) :
    c.toNat < 128 ∧ isIdentPart c = false := by
  rw [singleSymbol?.eq_def] at h
  split at h
  all_goals first
    | decide
    | exact absurd h (by simp)

namespace Found

variable {c : Char} {cs rest : List Char} {t : Token}

/-- Every token starts with a character of ASCII. -/
theorem toNat_lt (h : Found c cs t rest) : c.toNat < 128 := by
  cases h with
  | double h hcs => exact (doubleSymbol_ascii h).1
  | single h => exact (singleSymbol_ascii h).1
  | text hc hcs => rcases hc with rfl | rfl <;> decide
  | number hc =>
    have hbounds := isIdentPart_bounds (isIdentPart_of_isDigit hc)
    omega
  | ident hc =>
    have hbounds := isIdentPart_bounds (isIdentPart_of_isIdentStart hc)
    omega

end Found

/-- A scan does not get past a character of a word that is no part of an identifier. -/
theorem not_scanFrom_wide {fuel offset : Nat} {c : Char} {cs : List Char} {found : Lexemes}
    (hfuel : 0 < fuel) (hword : isWord c = true) (hpart : isIdentPart c = false) :
    scanFrom fuel offset (c :: cs) ≠ .ok found := by
  intro h
  have hwide : wideWord.contains c = true := by
    rwa [isWord_eq, hpart, Bool.false_or] at hword
  obtain ⟨fuel, rfl⟩ := Nat.exists_eq_succ_of_ne_zero (Nat.ne_of_gt hfuel)
  rcases scanFrom_cases h with ⟨hblank, -⟩ | ⟨step, more, -, hstep, -⟩
  · rw [not_wideWord_of_isBlank hblank] at hwide
    cases hwide
  · have hascii := (found_of_scanToken hstep).toNat_lt
    have hge := wideWord_ge hwide
    omega

/-! ### What the guard sees of the tokens -/

/-- Does a word character stand right before what follows `cs`? `inWord` says so of `cs` itself. -/
def endsInWord (inWord : Bool) (cs : List Char) : Bool :=
  cs.foldl (fun _ c => isWord c) inWord

/-- A word that occurs behind some characters occurs. -/
theorem hasWordFrom_append {words : List (List Char)} {cs rest : List Char} {inWord : Bool}
    (h : hasWordFrom words inWord (cs ++ rest) = false) :
    hasWordFrom words (endsInWord inWord cs) rest = false := by
  induction cs generalizing inWord with
  | nil => exact h
  | cons c cs ih =>
    rw [List.cons_append, hasWordFrom, Bool.or_eq_false_iff] at h
    exact ih h.2

theorem endsInWord_concat (inWord : Bool) (cs : List Char) (c : Char) :
    endsInWord inWord (cs ++ [c]) = isWord c := by
  rw [endsInWord, List.foldl_append]
  rfl

/-- Is the token a number? -/
def Token.isNumber : Token → Bool
  | .int _ => true
  | _ => false

/-- Do the words stand right behind numbers only? `afterNumber` tells whether a number stands right
before the tokens. -/
def HidesWords (words : List String) : (afterNumber : Bool) → List Token → Prop
  | _, [] => True
  | afterNumber, t :: ts =>
    (∀ w ∈ words, t = .ident w → afterNumber = true) ∧ HidesWords words t.isNumber ts

/-- Does the text start with what an identifier may start with? -/
def startsIdent (cs : List Char) : Bool :=
  cs.head?.any isIdentStart

theorem startsIdent_dropWhile (cs : List Char) :
    startsIdent (cs.dropWhile isIdentPart) = false := by
  cases hrest : cs.dropWhile isIdentPart with
  | nil => rfl
  | cons c rest =>
    have hpart : isIdentPart c = false := by
      have hnot := List.head?_dropWhile_not isIdentPart cs
      rw [hrest] at hnot
      simpa using hnot
    show isIdentStart c = false
    rw [Bool.eq_false_iff]
    intro hstart
    rw [isIdentPart_of_isIdentStart hstart] at hpart
    cases hpart

/-- What a token ends in: behind an identifier no other starts, and only a number ends in a word
character besides. -/
theorem Found.exists_end {c : Char} {cs rest : List Char} {t : Token} (h : Found c cs t rest)
    (inWord : Bool) :
    ∃ taken, c :: cs = taken ++ rest
      ∧ (endsInWord inWord taken = true → t.isNumber = true ∨ startsIdent rest = false) := by
  obtain ⟨taken, htaken⟩ := h.exists_taken
  have hend : ∀ (front : List Char) (d : Char), c :: cs = (front ++ [d]) ++ rest →
      isWord d = false →
      ∃ taken, c :: cs = taken ++ rest
        ∧ (endsInWord inWord taken = true → t.isNumber = true ∨ startsIdent rest = false) := by
    intro front d htaken hd
    refine ⟨front ++ [d], htaken, fun h => ?_⟩
    rw [endsInWord_concat, hd] at h
    cases h
  cases h with
  | @double d _ _ h hcs =>
    obtain ⟨-, hlt, hpart⟩ := doubleSymbol_ascii h
    exact hend [c] d (by rw [hcs]; rfl) (by rw [isWord_of_lt hlt, hpart])
  | single h =>
    obtain ⟨hlt, hpart⟩ := singleSymbol_ascii h
    exact hend [] c rfl (by rw [isWord_of_lt hlt, hpart])
  | @text s inside _ hc hcs =>
    refine hend (c :: inside) c (by simp [hcs]) ?_
    rcases hc with rfl | rfl
    · rw [isWord_of_lt (by decide)]
      decide
    · rw [isWord_of_lt (by decide)]
      decide
  | number hc => exact ⟨c :: taken, htaken, fun _ => .inl rfl⟩
  | ident hc => exact ⟨c :: taken, htaken, fun _ => .inr (startsIdent_dropWhile _)⟩

/-- Where the guard sees no word of the list, an identifier that is one stands in a word. -/
theorem Found.inWord_of_ident {words : List String} {fuel offset : Nat} {inWord : Bool} {c : Char}
    {cs rest : List Char} {w : String} {found : Lexemes} (h : Found c cs (.ident w) rest)
    (hw : w ∈ words) (hfuel : rest.length ≤ fuel) (hrest : scanFrom fuel offset rest = .ok found)
    (hno : hasWordFrom (words.map String.toList) inWord (c :: cs) = false) :
    inWord = true ∧ isIdentStart c = true := by
  cases h with
  | double h hcs =>
    rw [doubleSymbol?] at h
    split_ifs at h <;> cases h
  | single h =>
    rw [singleSymbol?.eq_def] at h
    split at h <;> cases h
  | ident hc =>
    refine ⟨?_, hc⟩
    by_contra hinWord
    rw [hasWordFrom, Bool.or_eq_false_iff, Bool.eq_false_iff.mpr hinWord, Bool.not_false,
      Bool.true_and, List.any_eq_false] at hno
    have hword := hno.1 _ (List.mem_map_of_mem hw)
    have hdrop : (c :: cs).drop ((c :: cs).takeWhile isIdentPart).length
        = (c :: cs).dropWhile isIdentPart := by
      have hleft := @List.drop_left _ ((c :: cs).takeWhile isIdentPart)
        ((c :: cs).dropWhile isIdentPart)
      rwa [List.takeWhile_append_dropWhile] at hleft
    rw [startsWithWord, String.toList_ofList, hdrop, Bool.and_eq_true,
      List.isPrefixOf_iff_prefix] at hword
    have hfront := List.takeWhile_prefix isIdentPart (l := c :: cs)
    -- so a wide word character is right behind the identifier, and the scan ends there
    cases htail : (c :: cs).dropWhile isIdentPart with
    | nil => exact hword ⟨hfront, by rw [htail]; rfl⟩
    | cons d tail =>
      have hd : isWord d = true := by
        by_contra hd
        exact hword ⟨hfront, by rw [htail, startsInWord, Bool.eq_false_iff.mpr hd]; rfl⟩
      have hpart : isIdentPart d = false := by
        have hnot := List.head?_dropWhile_not isIdentPart (c :: cs)
        rw [htail] at hnot
        simpa using hnot
      rw [htail] at hfuel hrest
      rw [List.length_cons] at hfuel
      exact not_scanFrom_wide (by omega) hd hpart hrest

/-- **The words that the guard does not see are behind numbers.** By induction along the scan.
Wherever a token may start, an identifier starts where a word does, or behind a number. -/
theorem scanFrom_hidesWords {words : List String} {fuel : Nat} :
    ∀ {offset : Nat} {cs : List Char} {found : Lexemes} {inWord afterNumber : Bool},
      cs.length ≤ fuel → scanFrom fuel offset cs = .ok found →
      hasWordFrom (words.map String.toList) inWord cs = false →
      (inWord = true → afterNumber = true ∨ startsIdent cs = false) →
      HidesWords words afterNumber (found.tokens.map Prod.fst) := by
  induction fuel with
  | zero =>
    intro offset cs found inWord afterNumber hfuel h hno hinWord
    rw [List.length_eq_zero_iff.mp (Nat.le_zero.mp hfuel), scanFrom] at h
    cases h
    trivial
  | succ fuel ih =>
    intro offset cs found inWord afterNumber hfuel h hno hinWord
    cases cs with
    | nil =>
      rw [scanFrom] at h
      cases h
      trivial
    | cons c cs =>
      rw [List.length_cons, Nat.add_le_add_iff_right] at hfuel
      rcases scanFrom_cases h with ⟨hblank, hrest⟩ | ⟨step, more, -, hstep, hrest, rfl⟩
      · rw [hasWordFrom, Bool.or_eq_false_iff, isWord_of_isBlank hblank] at hno
        exact ih hfuel hrest hno.2 (by simp)
      · have hfound := found_of_scanToken hstep
        have hlength := Nat.le_trans hfound.length_rest_le hfuel
        refine ⟨?_, ?_⟩
        · intro w hw (ht : step.token = .ident w)
          obtain ⟨hin, hstart⟩ := Found.inWord_of_ident (ht ▸ hfound) hw hlength hrest hno
          refine (hinWord hin).resolve_right ?_
          simp [startsIdent, hstart]
        · obtain ⟨taken, htaken, hend⟩ := hfound.exists_end inWord
          rw [htaken] at hno
          exact ih hlength hrest (hasWordFrom_append hno) hend

/-! ### What the grammar has no place for -/

/-- May the token stand behind a number? The only word that may is an operator. -/
def Token.followsNumber : Token → Bool
  | .ident name => name == "in"
  | _ => true

/-- May `u` stand behind `t`? -/
def Follows (t u : Token) : Prop :=
  t.isNumber = true → u.followsNumber = true

section Chain

variable {t u : Token} {ts us : List Token}

theorem isChain_cons_of_not_isNumber (ht : t.isNumber = false) (hts : ts.IsChain Follows) :
    (t :: ts).IsChain Follows := by
  refine hts.cons fun u hu hnumber => ?_
  rw [ht] at hnumber
  cases hnumber

/-- Behind anything there may be a symbol or an operator, and behind that anything. -/
theorem isChain_append_cons (hts : ts.IsChain Follows) (hfollows : t.followsNumber = true)
    (ht : t.isNumber = false) (hus : us.IsChain Follows) : (ts ++ t :: us).IsChain Follows := by
  refine hts.append (isChain_cons_of_not_isNumber ht hus) ?_
  rintro x - y hy -
  cases hy
  exact hfollows

end Chain

theorem Tier.operator_follows {t : Tier} {token : Token} {op : Op}
    (h : t.operator? token = some op) :
    token.followsNumber = true ∧ token.isNumber = false := by
  cases t with
  | relation =>
    simp only [Tier.operator?, Parser.relation?] at h
    split at h
    case h_7 name =>
      split at h
      · rename_i hname
        exact ⟨beq_iff_eq.mpr hname, rfl⟩
      · cases h
    all_goals first
      | exact ⟨rfl, rfl⟩
      | cases h
  | _ =>
    cases token <;> first
      | exact ⟨rfl, rfl⟩
      | cases h

mutual

/-- **No name stands behind a number**, wherever in the grammar that is. -/
theorem Derives.isChain : ∀ {depth : Nat} {c : Category} {ts : List Token} {e : Expr},
    Derives depth c ts e → ts.IsChain Follows
  | _, _, _, _, .operand h => h.isChain
  | _, _, _, _, .infixed hop hl hr =>
    isChain_append_cons hl.isChain (Tier.operator_follows hop).1 (Tier.operator_follows hop).2
      hr.isChain
  | _, _, _, _, .not h | _, _, _, _, .neg _ h => isChain_cons_of_not_isNumber rfl h.isChain
  | _, _, _, _, .member h => h.isChain
  | _, _, _, _, .int _ | _, _, _, _, .string _ | _, _, _, _, .true | _, _, _, _, .false
  | _, _, _, _, .var _ => .singleton _
  | _, _, _, _, .negative _ => isChain_cons_of_not_isNumber rfl (.singleton _)
  | _, _, _, _, .group h =>
    isChain_cons_of_not_isNumber rfl (isChain_append_cons h.isChain rfl rfl .nil)
  | _, _, _, _, .list h =>
    isChain_cons_of_not_isNumber rfl (isChain_append_cons h.isChain rfl rfl .nil)
  | _, _, _, _, .listWithComma h _ =>
    isChain_cons_of_not_isNumber rfl (isChain_append_cons h.isChain rfl rfl (.singleton _))
  | _, _, _, _, .function _ h =>
    isChain_cons_of_not_isNumber rfl (isChain_cons_of_not_isNumber rfl
      (isChain_append_cons h.isChain rfl rfl .nil))
  | _, _, _, _, .selection h _ => isChain_append_cons h.isChain rfl rfl (.singleton _)
  | _, _, _, _, .method _ h hargs | _, _, _, _, .quantified h hargs =>
    isChain_append_cons h.isChain rfl rfl (isChain_cons_of_not_isNumber rfl
      (isChain_cons_of_not_isNumber rfl (isChain_append_cons hargs.isChain rfl rfl .nil)))

theorem DerivesAll.isChain : ∀ {depth : Nat} {ts : List Token} {es : List Expr},
    DerivesAll depth ts es → ts.IsChain Follows
  | _, _, _, .none => .nil
  | _, _, _, .last h => h.isChain
  | _, _, _, .cons h _ hall => isChain_append_cons h.isChain rfl rfl hall.isChain

end

-- The guard does not see this word, and the parser does not take it.
example : readsContent "creator_id == 1content" = false
    ∧ (parse "creator_id == 1content").toOption.isNone = true := by
  decide +kernel

/-- Words that stand right behind numbers only, in a text where no name stands behind a number, do
not stand in it at all. -/
theorem HidesWords.not_mem {words : List String} (hin : "in" ∉ words) {ts : List Token} :
    ∀ {afterNumber : Bool}, HidesWords words afterNumber ts → ts.IsChain Follows →
      (afterNumber = true → ∀ t ∈ ts.head?, t.followsNumber = true) →
      ∀ w ∈ words, .ident w ∉ ts := by
  induction ts with
  | nil =>
    intro afterNumber _ _ _ w _
    exact List.not_mem_nil
  | cons t ts ih =>
    intro afterNumber ⟨hfirst, hrest⟩ hchain hnumber w hw hmem
    rw [List.isChain_cons] at hchain
    rcases List.mem_cons.mp hmem with ht | hmem
    · have hfollows := hnumber (hfirst w hw ht.symm) t rfl
      rw [← ht, Token.followsNumber, beq_iff_eq] at hfollows
      exact hin (hfollows ▸ hw)
    · exact ih hrest hchain.2 (fun ht u hu => hchain.1 u hu ht) w hw hmem

/-! ### What a guarded filter mentions -/

/-- Is no word for content mentioned? -/
def Expr.SparesContent (e : Expr) : Prop :=
  ∀ w ∈ contentWords, e.mentions w = false

theorem sparesContent_of_parse {source : String} {e : Expr} (hguard : readsContent source = false)
    (h : parse source = .ok e) : e.SparesContent := by
  obtain ⟨input, hinput, hderives⟩ := exists_derives_of_parse h
  have hhides : HidesWords contentWords false (Parser.tokensOf input.tokens) :=
    scanFrom_hidesWords Nat.le.refl hinput hguard (by simp)
  have hnone := hhides.not_mem (by decide) hderives.isChain (by simp)
  intro w hw
  rw [Bool.eq_false_iff]
  intro hmentions
  rcases hderives.spells hmentions with hmem | hmem
  · exact hnone w hw hmem
  · exact hnone "property" (by decide) hmem

theorem sparesContent_of_expandTagTests {e e' : Expr} (h : expandTagTests e = .ok e')
    (he : e.SparesContent) : e'.SparesContent := by
  intro w hw
  have hown : w ≠ "tags" ∧ w ≠ tagBinder := by
    have hwords : ∀ w ∈ contentWords, w ≠ "tags" ∧ w ≠ tagBinder := by decide
    exact hwords w hw
  rw [Bool.eq_false_iff]
  intro hmentions
  rcases (expands_of_expandTagTests h).mentions hmentions with hmentions | hw' | hw'
  · rw [he w hw] at hmentions
    cases hmentions
  · exact hown.1 hw'
  · exact hown.2 hw'

/-- **No expression behind the guard mentions content.** -/
theorem sparesContent_of_compileGuarded {source : String} {f : Compiled}
    (h : compileGuarded source = .ok f) :
    f = .everything ∨ ∃ e, f = .checked source e ∧ e.SparesContent := by
  rw [compileGuarded] at h
  split at h
  · cases h
  · rename_i hguard
    rw [compile] at h
    split at h
    · cases h
      exact .inl rfl
    · split at h
      · cases h
      · rename_i e he
        split at h
        · cases h
        · cases h
          rw [expression] at he
          split at he
          · cases he
          · rename_i tree htree
            exact .inr ⟨e, rfl, sparesContent_of_expandTagTests he
              (sparesContent_of_parse (Bool.eq_false_iff.mpr hguard) htree)⟩

/-! ### What does not mention content, does not look at it -/

/-- The memo with another content, and what is told about that. -/
def withContent (m : Memo) (content : String) (property : Property) : Memo :=
  { m with content := content, property := property }

/-- The environment of that memo. -/
def Env.withContent (env : Env) (content : String) (property : Property) : Env :=
  { env with memo := Filter.withContent env.memo content property }

theorem Attribute.name_of_ofName? {name : String} {a : Attribute}
    (h : Attribute.ofName? name = some a) : a.name = name := by
  rw [Attribute.ofName?] at h
  simpa using List.find?_some h

section Content

variable (content : String) (property : Property)

theorem Attribute.value_withContent {a : Attribute} (h : a.name ∉ contentWords) (m : Memo) :
    a.value (withContent m content property) = a.value m := by
  cases a with
  | content | hasLink | hasTaskList | hasCode | hasIncompleteTasks => exact absurd (by decide) h
  | _ => rfl

theorem lookup_withContent {name : String} (h : name ∉ contentWords) (env : Env) :
    (env.withContent content property).lookup name = env.lookup name := by
  have hbound : (env.withContent content property).bound = env.bound := rfl
  rw [Env.lookup, Env.lookup, hbound]
  split
  · rfl
  · cases ha : Attribute.ofName? name with
    | none => rfl
    | some a =>
      have hname : a.name ∉ contentWords := by rwa [Attribute.name_of_ofName? ha]
      exact congrArg Except.ok (Attribute.value_withContent content property hname env.memo)

mutual

/-- **Content does not matter to an expression that does not mention it.** -/
theorem eval_withContent : ∀ (e : Expr) (env : Env), e.SparesContent →
    eval (env.withContent content property) e = eval env e
  | .const _, _, _ => by rw [eval, eval]
  | .var name, env, h => by
    rw [eval, eval]
    refine lookup_withContent content property (fun hmem => ?_) env
    have hspares := h name hmem
    simp [Expr.mentions] at hspares
  | .list items, env, h => by
    rw [eval, eval, evalAll_withContent items env h]
  | .call op args, env, h => by
    rw [eval, eval, evalAll_withContent args env h]
    rfl
  | .method op receiver args, env, h => by
    simp only [Expr.SparesContent, Expr.mentions, Bool.or_eq_false_iff, imp_and, forall_and] at h
    rw [eval, eval, eval_withContent receiver env h.1, evalAll_withContent args env h.2]
    rfl
  | .quantified q binder range body, env, h => by
    simp only [Expr.SparesContent, Expr.mentions, Bool.or_eq_false_iff, imp_and, forall_and] at h
    have hbody : ∀ v, eval ((env.withContent content property).bind binder v) body
        = eval (env.bind binder v) body := fun v => eval_withContent body (env.bind binder v) h.2
    rw [eval, eval, eval_withContent range env h.1.2]
    simp only [hbody]

theorem evalAll_withContent : ∀ (es : List Expr) (env : Env),
    (∀ w ∈ contentWords, Expr.anyMentions w es = false) →
    evalAll (env.withContent content property) es = evalAll env es
  | [], _, _ => by rw [evalAll, evalAll]
  | e :: es, env, h => by
    simp only [Expr.anyMentions, Bool.or_eq_false_iff, imp_and, forall_and] at h
    rw [evalAll, evalAll, eval_withContent e env h.1, evalAll_withContent es env h.2]

end

end Content

/-! ### Nor does its prefilter -/

namespace Prefilter

/-- Is nothing wanted of what is told about content? -/
structure SparesContent (p : Prefilter) : Prop where
  hasLink : p.hasLink = none
  hasTaskList : p.hasTaskList = none
  hasCode : p.hasCode = none
  hasIncompleteTasks : p.hasIncompleteTasks = none

variable {p q : Prefilter}

theorem sparesContent_unconstrained : unconstrained.SparesContent :=
  ⟨rfl, rfl, rfl, rfl⟩

theorem sparesContent_nothing : nothing.SparesContent :=
  ⟨rfl, rfl, rfl, rfl⟩

theorem SparesContent.and (hp : p.SparesContent) (hq : q.SparesContent) :
    (p.and q).SparesContent := by
  rw [Prefilter.and]
  split
  · exact sparesContent_nothing
  · split
    · constructor
      · simp [hp.hasLink, hq.hasLink, unify]
      · simp [hp.hasTaskList, hq.hasTaskList, unify]
      · simp [hp.hasCode, hq.hasCode, unify]
      · simp [hp.hasIncompleteTasks, hq.hasIncompleteTasks, unify]
    · exact sparesContent_nothing

theorem SparesContent.or (hp : p.SparesContent) (hq : q.SparesContent) :
    (p.or q).SparesContent := by
  rw [Prefilter.or]
  split
  · exact hq
  · split
    · exact hp
    · constructor
      · simp [hp.hasLink, widen]
      · simp [hp.hasTaskList, widen]
      · simp [hp.hasCode, widen]
      · simp [hp.hasIncompleteTasks, widen]

theorem sparesContent_flag {name : String} (h : name ∉ contentWords) (b : Bool) :
    (flag name b).SparesContent := by
  rw [flag.eq_def]
  have hname : ∀ {a}, Attribute.ofName? name = some a → a.name ∉ contentWords := by
    intro a ha
    rwa [Attribute.name_of_ofName? ha]
  split
  · exact ⟨rfl, rfl, rfl, rfl⟩
  case h_6 => exact sparesContent_unconstrained
  all_goals
    rename_i hcontent
    exact absurd (by decide) (hname hcontent)

theorem sparesContent_ofAllowed {α : Type} {all allowed : List α} {make : List α → Prefilter}
    (h : ∀ xs, (make xs).SparesContent) : (ofAllowed all make allowed).SparesContent := by
  rw [ofAllowed]
  split
  · exact sparesContent_nothing
  · split
    · exact h _
    · exact sparesContent_unconstrained

theorem sparesContent_ofVisibilities (values : List Visibility) (negated : Bool) :
    (ofVisibilities values negated).SparesContent :=
  sparesContent_ofAllowed fun _ => ⟨rfl, rfl, rfl, rfl⟩

theorem sparesContent_ofStates (values : List MemoState) (negated : Bool) :
    (ofStates values negated).SparesContent :=
  sparesContent_ofAllowed fun _ => ⟨rfl, rfl, rfl, rfl⟩

theorem sparesContent_ofTagOptions (options : List TagOption) (negated : Bool) :
    (ofTagOptions options negated).SparesContent := by
  rw [ofTagOptions.eq_def]
  split <;> exact ⟨rfl, rfl, rfl, rfl⟩

theorem sparesContent_ofComparison {name : String} (h : name ∉ contentWords) (v : Value)
    (negated : Bool) : (ofComparison name v negated).SparesContent := by
  rw [ofComparison.eq_def]
  split
  · split <;> exact ⟨rfl, rfl, rfl, rfl⟩
  · exact sparesContent_ofVisibilities _ _
  · exact sparesContent_ofStates _ _
  · exact sparesContent_flag h _
  · exact sparesContent_unconstrained

theorem sparesContent_ofMembers (name : String) (values : List Value) (negated : Bool) :
    (ofMembers name values negated).SparesContent := by
  rw [ofMembers.eq_def]
  split
  · split
    · exact sparesContent_unconstrained
    · split <;> exact ⟨rfl, rfl, rfl, rfl⟩
  · exact sparesContent_ofVisibilities _ _
  · exact sparesContent_ofStates _ _
  · exact sparesContent_unconstrained

theorem sparesContent_ofMembership (l r : Expr) (negated : Bool) :
    (ofMembership l r negated).SparesContent := by
  rw [ofMembership.eq_def]
  split
  · split
    · exact sparesContent_ofTagOptions _ _
    · exact sparesContent_unconstrained
  · rename_i name items
    cases literals? items with
    | none => exact sparesContent_unconstrained
    | some values => exact sparesContent_ofMembers name values negated
  · exact sparesContent_unconstrained

theorem not_mem_of_sparesContent {name : String} (h : (Expr.var name).SparesContent) :
    name ∉ contentWords := by
  intro hmem
  have hspares := h name hmem
  simp [Expr.mentions] at hspares

theorem sparesContent_of_operands {op : Op} {l r : Expr} (h : (Expr.call op [l, r]).SparesContent) :
    l.SparesContent ∧ r.SparesContent := by
  simpa only [Expr.SparesContent, Expr.mentions, Expr.anyMentions, Bool.or_false,
    Bool.or_eq_false_iff, imp_and, forall_and] using h

theorem sparesContent_ofEquality {l r : Expr} (hl : l.SparesContent) (hr : r.SparesContent)
    (negated : Bool) : (ofEquality l r negated).SparesContent := by
  rw [ofEquality.eq_def]
  split
  · exact sparesContent_ofComparison (not_mem_of_sparesContent hl) _ _
  · exact sparesContent_ofComparison (not_mem_of_sparesContent hr) _ _
  · exact sparesContent_unconstrained

/-- **What does not mention content, wants nothing of it.** -/
theorem sparesContent_derive (negated : Bool) (e : Expr) (h : e.SparesContent) :
    (derive negated e).SparesContent := by
  fun_induction derive negated e with
  | case1 => exact sparesContent_nothing
  | case2 => exact sparesContent_unconstrained
  | case3 => exact sparesContent_flag (not_mem_of_sparesContent h) _
  | case4 negated x ih =>
    refine ih ?_
    simpa only [Expr.SparesContent, Expr.mentions, Expr.anyMentions, Bool.or_false] using h
  | case5 l r ihl ihr | case8 negated l r hneg ihl ihr =>
    have hboth := sparesContent_of_operands h
    exact (ihl hboth.1).or (ihr hboth.2)
  | case6 negated l r hneg ihl ihr | case7 l r ihl ihr =>
    have hboth := sparesContent_of_operands h
    exact (ihl hboth.1).and (ihr hboth.2)
  | case9 negated l r | case10 negated l r =>
    have hboth := sparesContent_of_operands h
    exact sparesContent_ofEquality hboth.1 hboth.2 _
  | case11 => exact sparesContent_ofMembership _ _ _
  | case12 negated binder body =>
    cases tagOptions? binder body with
    | none => exact sparesContent_unconstrained
    | some options => exact sparesContent_ofTagOptions options negated
  | case13 => exact sparesContent_unconstrained
  | case14 => exact sparesContent_unconstrained

end Prefilter

/-! ### Guarded filters -/

/-- **No filter that passes the guard looks at content.** Whatever its text, memos that agree in
everything but their content and what is told about that are accepted together, at any time; and the
prefilter wants nothing of what is told about content. -/
theorem guarded_ignores_content {source : String} {f : Compiled}
    (h : compileGuarded source = .ok f) :
    (∀ (m : Memo) (content : String) (property : Property) (now : Int),
        f.accepts (withContent m content property) now = f.accepts m now)
      ∧ f.prefilter.hasLink = none ∧ f.prefilter.hasTaskList = none
      ∧ f.prefilter.hasCode = none ∧ f.prefilter.hasIncompleteTasks = none := by
  rcases sparesContent_of_compileGuarded h with rfl | ⟨e, rfl, he⟩
  · exact ⟨fun _ _ _ _ => rfl, rfl, rfl, rfl, rfl⟩
  · have hprefilter := Prefilter.sparesContent_derive false e he
    refine ⟨fun m content property now => ?_, hprefilter.hasLink, hprefilter.hasTaskList,
      hprefilter.hasCode, hprefilter.hasIncompleteTasks⟩
    have heval := eval_withContent content property e ⟨m, now, []⟩ he
    exact congrArg (truth? · == some true) heval

/-- Names and texts that only contain such words are no such words. -/
theorem guarded_ignores_content_nearMiss :
    let source := "tags.exists(content_1, content_1 == \"_property\") || !(creator_id == 2)"
    ∃ f, compileGuarded source = .ok f
      ∧ f.accepts (withContent plannedMemo "[x](y)" ⟨true, true, true, true⟩) 0
        = f.accepts plannedMemo 0
      ∧ f.accepts plannedMemo 0 = true ∧ f.prefilter.hasLink = none := by
  intro source
  have haccepts : (compileGuarded source).toOption.any (·.accepts plannedMemo 0) = true := by
    decide +kernel
  cases hf : compileGuarded source with
  | error fault =>
    rw [hf] at haccepts
    cases haccepts
  | ok f =>
    rw [hf] at haccepts
    have hspares := guarded_ignores_content hf
    exact ⟨f, rfl, hspares.1 _ _ _ _, haccepts, hspares.2.1⟩

end SharedMemos.Filter
