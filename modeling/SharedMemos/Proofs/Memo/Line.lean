import SharedMemos.Memo.Property
import SharedMemos.Proofs.Text.Pattern
import SharedMemos.Proofs.Text.Pieces

/-!
# What lines of a content are

What makes a line a fence, an item of a task list or the place of a link is said by patterns. The
functions that look at lines find what the patterns say.

No text of these patterns ends with a blank. So a blank at the end of a line makes no difference,
and neither does a carriage return that is left there where lines end in different ways.

## Main definitions

* `fence`, `span`, `taskItem`, `address`, `link` — the patterns
* `Strips` — a text and what is left of it without spans of code

## Main results

* `isFence_iff`, `taskMark?_eq_some_iff`, `startsAddress_iff`, `startsLink_iff` — what is found is
  what the patterns say
* `strips_outsideSpans` — spans are taken out from left to right
* `ofLine_spec` — the flags of a line
* `isFence_dropReturn`, `ofLine_dropReturn` — line endings make no difference
-/

namespace SharedMemos.Property

open SharedMemos.Text SharedMemos.Pattern

/-! ### Patterns -/

/-- A line that opens or closes a block of code. -/
def fence : Language Char :=
  many isBlank * (word "```" + word "~~~")

/-- A span of code inside a line. -/
def span : Language Char :=
  word "`" * (several (fun c => c != '\x60' && c != '\n') * word "`")

/-- What starts an item of a list: a bullet, or a number with a point or a bracket. -/
def marker : Language Char :=
  one (fun c => c == '-' || c == '*' || c == '+')
    + several isDecimal * one (fun c => c == '.' || c == ')')

/-- An item of a task list with a mark between the square brackets. -/
def taskItem (mark : Char) : Language Char :=
  many isBlank * (marker * (several isBlank * (word "[" * (one (· == mark) * word "]"))))

/-- A bare web address. -/
def address : Language Char :=
  word "http" * ((1 + word "s") * (word "://" * several isAddressChar))

/-- A link with a text and an address. -/
def link : Language Char :=
  word "[" * (many (fun c => c != ']' && c != '\n')
    * (word "](" * (several (fun c => !(c == ')' || isBlank c)) * word ")")))

variable {c : Char} {cs line : List Char} {L : Language Char}

/-! ### Fences -/

/-- **A fence is three backquotes or tildes after blanks.** -/
theorem isFence_iff : isFence line = true ↔ Starts fence line := by
  have hleaves : Leaves isBlank (word "```" + word "~~~") :=
    .add (leaves_word rfl (by decide)) (leaves_word rfl (by decide +kernel))
  rw [isFence, fence, starts_many_mul hleaves, starts_add, starts_word, starts_word, Bool.or_eq_true,
    List.isPrefixOf_iff_prefix, List.isPrefixOf_iff_prefix]
  rfl

/-! ### Task items -/

/-- No decimal digit is a blank. -/
theorem not_isBlank_of_isDecimal (h : isDecimal c = true) : isBlank c = false := by
  have hapart : ∀ r ∈ whiteSpace.ranges, ∀ s ∈ decimalDigit.ranges, r.2 < s.1 ∨ s.2 < r.1 := by
    decide
  rw [Bool.eq_false_iff]
  intro hblank
  obtain ⟨r, hr, hfirst, hlast⟩ := CharSet.contains_iff.mp hblank
  obtain ⟨s, hs, hfirst', hlast'⟩ := CharSet.contains_iff.mp h
  have hrs := hapart r hr s hs
  omega

/-- A marker starts a text if there is a text after it. -/
theorem starts_marker_mul :
    Starts (marker * L) cs ↔ ∃ rest, afterMarker? cs = Option.some rest ∧ Starts L rest := by
  have hleaves : Leaves isDecimal (one (fun c => c == '.' || c == ')') * L) := by
    refine (leaves_one fun c hc => ?_).mul L
    rcases Bool.or_eq_true_iff.mp hc with hc | hc <;> rw [beq_iff_eq.mp hc] <;> decide
  rw [marker, add_mul, starts_add, starts_one_mul, mul_assoc, starts_several_mul hleaves]
  simp only [starts_one_mul]
  cases cs with
  | nil => simp [afterMarker?]
  | cons c rest =>
    have hcons : ∀ P : Char → List Char → Prop,
        (∃ d more, c :: rest = d :: more ∧ P d more) ↔ P c rest := by
      intro P
      constructor
      · rintro ⟨d, more, hsame, hP⟩
        cases hsame
        exact hP
      · exact fun hP => ⟨c, rest, rfl, hP⟩
    rw [hcons fun d more => _ ∧ Starts L more, hcons fun d more => isDecimal d = true ∧ _]
    have hbullet : (c == '-' || c == '*' || c == '+') = true ↔ c = '-' ∨ c = '*' ∨ c = '+' := by
      simp only [Bool.or_eq_true, beq_iff_eq, or_assoc]
    rw [hbullet, afterMarker?]
    by_cases hmark : c = '-' ∨ c = '*' ∨ c = '+'
    · have hdigit : isDecimal c = false := by
        rcases hmark with rfl | rfl | rfl <;> decide
      simp [hmark, hdigit]
    · by_cases hdigit : isDecimal c = true
      · rw [if_neg hmark, if_pos hdigit, List.dropWhile_cons_of_pos hdigit]
        cases rest.dropWhile isDecimal with
        | nil => simp [hmark]
        | cons d more => simp [hmark, hdigit]
      · simp [hmark, hdigit]

theorem leaves_marker : Leaves isBlank marker := by
  refine .add (leaves_one fun c hc => ?_) ((Leaves.mul ?_ _).mul _)
  · simp only [Bool.or_eq_true, beq_iff_eq] at hc
    rcases hc with (rfl | rfl) | rfl <;> decide
  · exact leaves_one fun c hc => not_isBlank_of_isDecimal hc

/-- The box of a task item, behind at least one blank. -/
theorem starts_box_iff {mark : Char} :
    Starts (several isBlank * (word "[" * (one (· == mark) * word "]"))) cs
      ↔ (trimLeft cs).length ≠ cs.length ∧ ∃ rest, trimLeft cs = '[' :: mark :: ']' :: rest := by
  have hleaves : Leaves isBlank (word "[" * (one (· == mark) * word "]")) :=
    (leaves_word rfl (by decide)).mul _
  have hbox : ∀ box : List Char, Starts (word "[" * (one (· == mark) * word "]")) box
      ↔ ∃ rest, box = '[' :: mark :: ']' :: rest := by
    intro box
    rw [starts_word_mul]
    simp only [starts_one_mul, starts_word, beq_iff_eq]
    constructor
    · rintro ⟨_, rfl, d, _, rfl, rfl, rest, rfl⟩
      exact ⟨rest, rfl⟩
    · rintro ⟨rest, rfl⟩
      exact ⟨_, rfl, mark, _, rfl, rfl, rest, rfl⟩
  rw [starts_several_mul hleaves]
  simp only [hbox]
  constructor
  · rintro ⟨c, more, rfl, hc, hmore⟩
    have htrim : trimLeft (c :: more) = more.dropWhile isBlank := List.dropWhile_cons_of_pos hc
    have hlength := (List.dropWhile_suffix isBlank (l := more)).length_le
    rw [htrim, List.length_cons]
    exact ⟨by omega, hmore⟩
  · rintro ⟨hlength, hmore⟩
    cases cs with
    | nil => exact absurd rfl hlength
    | cons c more =>
      by_cases hc : isBlank c = true
      · have htrim : trimLeft (c :: more) = more.dropWhile isBlank := List.dropWhile_cons_of_pos hc
        exact ⟨c, more, rfl, hc, htrim ▸ hmore⟩
      · have htrim : trimLeft (c :: more) = c :: more := List.dropWhile_cons_of_neg hc
        exact absurd (congrArg List.length htrim) hlength

/-- **A task item is a marker and a box** with one of three marks in it. -/
theorem taskMark?_eq_some_iff {mark : Char} : taskMark? line = Option.some mark
    ↔ Starts (taskItem mark) line ∧ (mark = ' ' ∨ mark = 'x' ∨ mark = 'X') := by
  rw [taskItem, starts_many_mul (leaves_marker.mul _), starts_marker_mul]
  simp only [starts_box_iff, taskMark?, Option.bind_eq_bind, Option.bind_eq_some_iff]
  constructor
  · rintro ⟨rest, hrest, hmark⟩
    split at hmark
    · cases hmark
    · rename_i hlength
      split at hmark
      · rename_i found more hbox
        split at hmark
        · rename_i hfound
          cases hmark
          exact ⟨⟨rest, hrest, hlength, more, hbox⟩, hfound⟩
        · cases hmark
      · cases hmark
  · rintro ⟨⟨rest, hrest, hlength, more, hbox⟩, hfound⟩
    refine ⟨rest, hrest, ?_⟩
    rw [if_neg hlength, hbox]
    exact if_pos hfound

/-! ### Links -/

theorem startsAddress_iff : startsAddress cs = true ↔ Starts address cs := by
  have hafter : ∀ scheme : String, (scheme.toList.isPrefixOf cs
      && ((cs.drop scheme.toList.length).head?.map isAddressChar).getD false) = true
      ↔ ∃ rest, cs = scheme.toList ++ rest ∧ Starts (several isAddressChar) rest := by
    intro scheme
    rw [Bool.and_eq_true, List.isPrefixOf_iff_prefix]
    constructor
    · rintro ⟨⟨rest, rfl⟩, hhead⟩
      rw [List.drop_left] at hhead
      refine ⟨rest, rfl, starts_several.mpr ?_⟩
      cases rest with
      | nil => cases hhead
      | cons c rest => exact ⟨c, rest, rfl, hhead⟩
    · rintro ⟨rest, rfl, hrest⟩
      obtain ⟨c, more, rfl, hc⟩ := starts_several.mp hrest
      refine ⟨List.prefix_append _ _, ?_⟩
      rw [List.drop_left]
      exact hc
  rw [startsAddress, Bool.or_eq_true]
  dsimp only
  rw [hafter, hafter, address, starts_word_mul]
  simp only [add_mul, one_mul, starts_add, starts_word_mul]
  constructor
  · rintro (⟨rest, rfl, hrest⟩ | ⟨rest, rfl, hrest⟩)
    · exact ⟨_, rfl, .inl ⟨rest, rfl, hrest⟩⟩
    · exact ⟨_, rfl, .inr ⟨_, rfl, rest, rfl, hrest⟩⟩
  · rintro ⟨_, rfl, ⟨rest, rfl, hrest⟩ | ⟨_, rfl, rest, rfl, hrest⟩⟩
    · exact .inl ⟨rest, rfl, hrest⟩
    · exact .inr ⟨rest, rfl, hrest⟩

theorem startsLink_iff : startsLink cs = true ↔ Starts link cs := by
  have hclose : ∀ K : Language Char, Leaves (fun c => c != ']' && c != '\n') (word "](" * K) :=
    fun K => (leaves_word rfl (by decide)).mul K
  have hend : (!(')' == ')' || isBlank ')')) = false := by decide
  have hinside : ∀ cs, Starts (several (fun c => !(c == ')' || isBlank c)) * word ")") cs
      ↔ (!(cs.takeWhile fun c => !(c == ')' || isBlank c)).isEmpty
        && (cs.dropWhile fun c => !(c == ')' || isBlank c)).head? == Option.some ')') = true :=
    fun cs => starts_several_word hend rfl
  rw [link, starts_word_mul]
  simp only [starts_many_mul (hclose _), starts_word_mul, hinside]
  constructor
  · intro h
    unfold startsLink at h
    split at h
    · rename_i rest
      split at h
      · rename_i more hmore
        exact ⟨rest, rfl, more, hmore, h⟩
      · cases h
    · cases h
  · rintro ⟨rest, rfl, more, hmore, h⟩
    show startsLink ('[' :: rest) = true
    rw [startsLink]
    rw [hmore]
    exact h

/-- What starts somewhere in a text occurs in it. -/
theorem anySuffix_iff {f : List Char → Bool} {pattern : Language Char}
    (h : ∀ cs, f cs = true ↔ Starts pattern cs) : anySuffix f cs = true ↔ Occurs pattern cs := by
  have hsuffix : anySuffix f cs = true ↔ ∃ rest, rest <:+ cs ∧ f rest = true := by
    induction cs with
    | nil => simp [anySuffix]
    | cons c cs ih =>
      rw [anySuffix, Bool.or_eq_true, ih]
      simp only [List.suffix_cons_iff]
      constructor
      · rintro (hf | ⟨rest, hrest, hf⟩)
        · exact ⟨_, .inl rfl, hf⟩
        · exact ⟨rest, .inr hrest, hf⟩
      · rintro ⟨rest, rfl | hrest, hf⟩
        · exact .inl hf
        · exact .inr ⟨rest, hrest, hf⟩
  rw [hsuffix]
  simp only [h]
  constructor
  · rintro ⟨rest, hrest, w, hw, hpre⟩
    exact ⟨w, hw, hpre.isInfix.trans hrest.isInfix⟩
  · rintro ⟨w, hw, before, after, rfl⟩
    rw [List.append_assoc]
    exact ⟨w ++ after, List.suffix_append _ _, w, hw, List.prefix_append _ _⟩

/-! ### Spans of code -/

/-- No span starts before the end of the text in front. -/
def IsBefore (front cs : List Char) : Prop :=
  ∀ v w u, w ∈ span → v ++ w ++ u = front ++ cs → front.length ≤ v.length

/-- What is left of a text when spans of code are taken out from left to right: the first span, and
then what follows it in the same way. -/
inductive Strips : List Char → List Char → Prop where
  | none {cs : List Char} (h : ¬ Occurs span cs) : Strips cs cs
  | first {before code after rest : List Char} (hspan : code ∈ span)
    (hfirst : IsBefore before (code ++ after)) (h : Strips after rest) :
    Strips (before ++ (code ++ after)) (before ++ rest)

variable {before rest : List Char}

theorem mem_span_iff : cs ∈ span
    ↔ ∃ code, code ≠ [] ∧ '\x60' ∉ code ∧ '\n' ∉ code ∧ cs = '\x60' :: (code ++ ['\x60']) := by
  have hall : ∀ code : List Char, (∀ c ∈ code, (c != '\x60' && c != '\n') = true)
      ↔ '\x60' ∉ code ∧ '\n' ∉ code := by
    intro code
    simp only [Bool.and_eq_true, bne_iff_ne]
    exact ⟨fun h => ⟨fun hmem => (h _ hmem).1 rfl, fun hmem => (h _ hmem).2 rfl⟩,
      fun h c hc => ⟨ne_of_mem_of_not_mem hc h.1, ne_of_mem_of_not_mem hc h.2⟩⟩
  rw [span, Language.mem_mul]
  constructor
  · rintro ⟨_, rfl, _, hrest, rfl⟩
    obtain ⟨code, hcode, _, rfl, rfl⟩ := Language.mem_mul.mp hrest
    obtain ⟨hsome, hplain⟩ := mem_several.mp hcode
    obtain ⟨hquote, hline⟩ := (hall code).mp hplain
    exact ⟨code, hsome, hquote, hline, rfl⟩
  · rintro ⟨code, hsome, hquote, hline, rfl⟩
    have hplain := (hall code).mpr ⟨hquote, hline⟩
    exact ⟨_, rfl, _, Language.append_mem_mul (mem_several.mpr ⟨hsome, hplain⟩) rfl, rfl⟩

/-- Every span has two backquotes. -/
theorem not_occurs_span (h : line.count '\x60' < 2) : ¬ Occurs span line := by
  rintro ⟨w, hw, hinfix⟩
  obtain ⟨code, -, -, -, rfl⟩ := mem_span_iff.mp hw
  have hle := hinfix.sublist.count_le '\x60'
  simp only [List.count_cons_self, List.count_append, List.count_nil] at hle
  omega

theorem IsBefore.exists_eq {v w u : List Char} (h : IsBefore before cs) (hw : w ∈ span)
    (hsame : v ++ w ++ u = before ++ cs) : ∃ v', v = before ++ v' ∧ v' ++ w ++ u = cs := by
  have hlength := h v w u hw hsame
  rw [List.append_assoc] at hsame
  obtain ⟨more, rfl, hmore⟩ | ⟨more, rfl, hmore⟩ := List.append_eq_append_iff.mp hsame
  · have hnil : more = [] := by
      rw [List.length_append] at hlength
      exact List.eq_nil_of_length_eq_zero (by omega)
    subst hnil
    exact ⟨[], by simp, by simpa using hmore⟩
  · exact ⟨more, rfl, by rw [List.append_assoc]; exact hmore.symm⟩

/-- Spans start with a backquote. -/
theorem isBefore_of_not_mem (h : '\x60' ∉ before) : IsBefore before cs := by
  intro v w u hw hsame
  obtain ⟨code, -, -, -, rfl⟩ := mem_span_iff.mp hw
  rw [List.append_assoc] at hsame
  obtain ⟨more, rfl, hmore⟩ | ⟨more, rfl, -⟩ := List.append_eq_append_iff.mp hsame
  · cases more with
    | nil => rw [List.append_nil]
    | cons c more =>
      obtain rfl := (List.cons.inj hmore).1
      exact absurd (List.mem_append_right v List.mem_cons_self) h
  · rw [List.length_append]
    exact Nat.le_add_right _ _

theorem IsBefore.append {more : List Char} (h : IsBefore before (more ++ cs))
    (hmore : IsBefore more cs) : IsBefore (before ++ more) cs := by
  intro v w u hw hsame
  rw [List.append_assoc before] at hsame
  obtain ⟨v', rfl, hthere⟩ := h.exists_eq hw hsame
  have hle := hmore v' w u hw hthere
  rw [List.length_append, List.length_append]
  omega

/-- No span starts with the first of two backquotes. -/
theorem isBefore_backquote : IsBefore ['\x60'] ('\x60' :: cs) := by
  intro v w u hw hsame
  obtain ⟨code, hsome, hquote, -, rfl⟩ := mem_span_iff.mp hw
  cases v with
  | nil =>
    cases code with
    | nil => exact absurd rfl hsome
    | cons c code =>
      cases hsame
      exact absurd List.mem_cons_self hquote
  | cons c v => exact Nat.succ_le_succ (Nat.zero_le _)

theorem IsBefore.occurs_iff (h : IsBefore before cs) :
    Occurs span (before ++ cs) ↔ Occurs span cs := by
  constructor
  · rintro ⟨w, hw, v, u, hsame⟩
    obtain ⟨v', -, hrest⟩ := h.exists_eq hw hsame
    exact ⟨w, hw, v', u, hrest⟩
  · rintro ⟨w, hw, hinfix⟩
    exact ⟨w, hw, hinfix.trans (List.suffix_append _ _).isInfix⟩

/-- What stands before all spans stays. -/
theorem Strips.front (h : Strips cs rest) (hbefore : IsBefore before cs) :
    Strips (before ++ cs) (before ++ rest) := by
  cases h with
  | none hnone => exact .none fun hoccurs => hnone (hbefore.occurs_iff.mp hoccurs)
  | first hspan hfirst hrest =>
    rw [← List.append_assoc, ← List.append_assoc before]
    exact .first hspan (hbefore.append hfirst) hrest

theorem outsideSpans_of_isEmpty {text code next : List Char} {more : List (List Char)}
    (h : code.isEmpty = true) : outsideSpans (text :: code :: next :: more)
      = (text ++ '\x60' :: (outsideSpans (code :: next :: more)).1,
        (outsideSpans (code :: next :: more)).2) := by
  rw [outsideSpans, if_pos h]

theorem outsideSpans_of_not_isEmpty {text code next : List Char} {more : List (List Char)}
    (h : ¬ code.isEmpty = true) : outsideSpans (text :: code :: next :: more)
      = (text ++ (outsideSpans (next :: more)).1, true) := by
  rw [outsideSpans, if_neg h]

/-- **Spans are found and taken out** from left to right, given the text between the backquotes of
a line. -/
theorem strips_outsideSpans (pieces : List (List Char))
    (h : ∀ piece ∈ pieces, '\x60' ∉ piece ∧ '\n' ∉ piece) :
    Strips (['\x60'].intercalate pieces) (outsideSpans pieces).1
      ∧ ((outsideSpans pieces).2 = true ↔ Occurs span (['\x60'].intercalate pieces)) := by
  have hfew : ∀ cs : List Char, cs.count '\x60' < 2 →
      Strips cs cs ∧ (false = true ↔ Occurs span cs) := fun cs hcount =>
    ⟨.none (not_occurs_span hcount), Bool.false_ne_true.elim, (not_occurs_span hcount · |>.elim)⟩
  induction pieces using outsideSpans.induct with
  | case1 => exact hfew [] (by decide)
  | case2 last =>
    have hlast := List.count_eq_zero.mpr (h last List.mem_cons_self).1
    rw [List.intercalate_singleton]
    exact hfew last (by omega)
  | case3 text last =>
    obtain ⟨htext, hrest⟩ := List.forall_mem_cons.mp h
    have hlast := List.count_eq_zero.mpr (hrest last List.mem_cons_self).1
    rw [List.intercalate_cons_cons, List.intercalate_singleton, List.append_assoc]
    refine hfew (text ++ '\x60' :: last) ?_
    rw [List.count_append, List.count_cons_self, List.count_eq_zero.mpr htext.1]
    omega
  | case4 text code next more hempty _ _ _ ih =>
    obtain ⟨htext, hrest⟩ := List.forall_mem_cons.mp h
    obtain ⟨hstrips, hfound⟩ := ih hrest
    obtain rfl := List.isEmpty_iff.mp hempty
    rw [outsideSpans_of_isEmpty hempty, List.intercalate_cons_cons]
    have hbefore : IsBefore (text ++ ['\x60']) (['\x60'].intercalate ([] :: next :: more)) := by
      rw [List.intercalate_cons_cons]
      exact (isBefore_of_not_mem htext.1).append isBefore_backquote
    refine ⟨?_, hfound.trans hbefore.occurs_iff.symm⟩
    have hboth := hstrips.front hbefore
    rw [List.append_assoc text _ (outsideSpans _).1] at hboth
    exact hboth
  | case5 text code next more hsome ih =>
    obtain ⟨htext, hrest⟩ := List.forall_mem_cons.mp h
    obtain ⟨hcode, hrest⟩ := List.forall_mem_cons.mp hrest
    obtain ⟨hstrips, -⟩ := ih hrest
    have hspan : '\x60' :: (code ++ ['\x60']) ∈ span :=
      mem_span_iff.mpr ⟨code, fun hnil => hsome (List.isEmpty_iff.mpr hnil), hcode.1, hcode.2, rfl⟩
    have htogether : ['\x60'].intercalate (text :: code :: next :: more)
        = text ++ ('\x60' :: (code ++ ['\x60']) ++ ['\x60'].intercalate (next :: more)) := by
      rw [List.intercalate_cons_cons, List.intercalate_cons_cons]
      simp only [List.append_assoc, List.cons_append, List.nil_append]
    rw [outsideSpans_of_not_isEmpty hsome, htogether]
    refine ⟨.first hspan (isBefore_of_not_mem htext.1) hstrips, fun _ => ?_, fun _ => rfl⟩
    exact ⟨_, hspan, List.infix_append' text _ _⟩

/-! ### Lines -/

/-- **What is found in a line** is what the patterns say of it, and but for code they are looked for
in what is left without spans. -/
theorem ofLine_spec (h : '\n' ∉ line) : ∃ text, Strips line text
    ∧ ((ofLine line).hasCode = true ↔ Occurs span line)
    ∧ ((ofLine line).hasLink = true ↔ Occurs address text ∨ Occurs link text)
    ∧ ((ofLine line).hasTaskList = true
      ↔ ∃ mark, Starts (taskItem mark) text ∧ (mark = ' ' ∨ mark = 'x' ∨ mark = 'X'))
    ∧ ((ofLine line).hasIncompleteTasks = true ↔ Starts (taskItem ' ') text) := by
  have hpieces : ∀ piece ∈ splitAt '\x60' line, '\x60' ∉ piece ∧ '\n' ∉ piece := fun piece hpiece =>
    ⟨fun hmem => (mem_of_mem_splitAt hpiece hmem).2 rfl,
      fun hmem => h (mem_of_mem_splitAt hpiece hmem).1⟩
  obtain ⟨hstrips, hfound⟩ := strips_outsideSpans _ hpieces
  rw [intercalate_splitAt] at hstrips hfound
  refine ⟨_, hstrips, hfound, ?_, ?_, ?_⟩
  · rw [← anySuffix_iff fun _ => startsAddress_iff, ← anySuffix_iff fun _ => startsLink_iff]
    exact Bool.or_eq_true_iff
  · simp only [← taskMark?_eq_some_iff]
    exact Option.isSome_iff_exists
  · exact beq_iff_eq.trans (taskMark?_eq_some_iff.trans (and_iff_left (.inl rfl)))

/-! ### Blanks at the end -/

theorem ne_of_isBlank {d : Char} (hc : isBlank c = true) (hd : isBlank d = false) : d ≠ c := by
  rintro rfl
  exact Bool.false_ne_true (hd.symm.trans hc)

/-- What stands behind the last backquote stays. -/
theorem outsideSpans_concat_append (init : List (List Char)) (last more : List Char) :
    outsideSpans (init ++ [last ++ more])
      = ((outsideSpans (init ++ [last])).1 ++ more, (outsideSpans (init ++ [last])).2) := by
  induction init using outsideSpans.induct with
  | case1 => rfl
  | case2 text => exact Prod.ext (List.append_assoc text ('\x60' :: last) more).symm rfl
  | case3 text code =>
    rw [List.cons_append, List.cons_append, List.nil_append, List.cons_append, List.cons_append,
      List.nil_append]
    by_cases hcode : code.isEmpty = true
    · rw [outsideSpans_of_isEmpty hcode, outsideSpans_of_isEmpty hcode]
      simp [outsideSpans]
    · rw [outsideSpans_of_not_isEmpty hcode, outsideSpans_of_not_isEmpty hcode]
      simp [outsideSpans]
  | case4 text code next rest hempty _ _ _ ih =>
    simp only [List.cons_append] at ih ⊢
    rw [outsideSpans_of_isEmpty hempty, outsideSpans_of_isEmpty hempty, ih, List.append_assoc,
      List.cons_append]
  | case5 text code next rest hsome ih =>
    simp only [List.cons_append] at ih ⊢
    rw [outsideSpans_of_not_isEmpty hsome, outsideSpans_of_not_isEmpty hsome, ih, List.append_assoc]

section

variable (hc : isBlank c = true)
include hc

theorem closes_fence : Closes c fence := by
  refine (Closes.add ?_ ?_).mul _
  · exact closes_word "``".toList rfl (ne_of_isBlank hc (by decide))
  · exact closes_word "~~".toList rfl (ne_of_isBlank hc (by decide))

theorem closes_taskItem (mark : Char) : Closes c (taskItem mark) :=
  (((((closes_word [] rfl (ne_of_isBlank hc (by decide))).mul _).mul _).mul _).mul _).mul _

theorem closes_address : Closes c address := by
  have hout : isAddressChar c = false := by
    rw [isAddressChar, hc]
    rfl
  exact (((closes_several hout).mul _).mul _).mul _

theorem closes_link : Closes c link :=
  ((((closes_word [] rfl (ne_of_isBlank hc (by decide))).mul _).mul _).mul _).mul _

theorem isFence_concat : isFence (line ++ [c]) = isFence line := by
  rw [Bool.eq_iff_iff, isFence_iff, isFence_iff, starts_concat_iff (closes_fence hc)]

theorem taskMark?_concat : taskMark? (line ++ [c]) = taskMark? line := by
  refine Option.ext fun mark => ?_
  rw [taskMark?_eq_some_iff, taskMark?_eq_some_iff, starts_concat_iff (closes_taskItem hc mark)]

theorem anySuffix_startsAddress_concat :
    anySuffix startsAddress (line ++ [c]) = anySuffix startsAddress line := by
  have hiff : ∀ cs, anySuffix startsAddress cs = true ↔ Occurs address cs :=
    fun _ => anySuffix_iff fun _ => startsAddress_iff
  rw [Bool.eq_iff_iff, hiff, hiff, occurs_concat_iff (closes_address hc)]

theorem anySuffix_startsLink_concat :
    anySuffix startsLink (line ++ [c]) = anySuffix startsLink line := by
  have hiff : ∀ cs, anySuffix startsLink cs = true ↔ Occurs link cs :=
    fun _ => anySuffix_iff fun _ => startsLink_iff
  rw [Bool.eq_iff_iff, hiff, hiff, occurs_concat_iff (closes_link hc)]

/-- **A blank at the end of a line makes no difference.** -/
theorem ofLine_concat : ofLine (line ++ [c]) = ofLine line := by
  have hquote : '\x60' ∉ [c] :=
    fun hmem => ne_of_isBlank hc (by decide) (List.mem_singleton.mp hmem)
  obtain ⟨init, last, hline, hconcat⟩ := splitAt_append_of_not_mem hquote line
  simp only [ofLine, hline, hconcat, outsideSpans_concat_append, taskMark?_concat hc,
    anySuffix_startsAddress_concat hc, anySuffix_startsLink_concat hc]

end

/-- A carriage return is dropped from the end of a line, or there is none. -/
theorem eq_dropReturn_or (line : List Char) :
    line = dropReturn line ∨ line = dropReturn line ++ ['\r'] := by
  rw [dropReturn]
  split
  · rename_i rest hreverse
    right
    rw [← List.reverse_reverse line, hreverse, List.reverse_cons]
  · exact .inl rfl

theorem isFence_dropReturn (line : List Char) : isFence (dropReturn line) = isFence line := by
  rcases eq_dropReturn_or line with hsame | hreturn
  · rw [← hsame]
  · conv_rhs => rw [hreturn, isFence_concat (by decide)]

/-- **Line endings make no difference.** -/
theorem ofLine_dropReturn (line : List Char) : ofLine (dropReturn line) = ofLine line := by
  rcases eq_dropReturn_or line with hsame | hreturn
  · rw [← hsame]
  · conv_rhs => rw [hreturn, ofLine_concat (by decide)]

end SharedMemos.Property
