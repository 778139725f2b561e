import Mathlib.Computability.Language
import Mathlib.Data.List.TakeWhile

/-!
# Patterns of texts

Sets of texts that are put together from single characters of a class, any number of them, and given
words, by choice and by writing one behind another. A pattern is looked for at the start of a text
(`Starts`) or anywhere in it (`Occurs`).

A function that reads a text once from its start, and never goes back, finds what a pattern says if
behind any number of characters of a class the pattern goes on with one that is not in the class:
then there is only one place to go on from (`starts_many_mul`).

## Main definitions

* `many`, `one`, `several`, `word` — what patterns are put together from
* `Starts`, `Occurs` — where they are looked for
* `Leaves` — patterns that start with a character outside a class
* `Closes` — patterns that end with another character than a given one

## Main results

* `starts_add`, `starts_word_mul`, `starts_one_mul`, `starts_many_mul`, `starts_several_mul` —
  looking for a pattern part by part
* `starts_concat_iff`, `occurs_concat_iff` — a character that no text of the pattern ends with makes
  no difference at the end
-/

namespace SharedMemos.Pattern

/-! ### Patterns -/

/-- Any number of characters of a class. -/
def many (p : Char → Bool) : Language Char :=
  {cs | ∀ c ∈ cs, p c = true}

/-- One character of a class. -/
def one (p : Char → Bool) : Language Char :=
  {cs | ∃ c, p c = true ∧ cs = [c]}

/-- At least one character of a class. -/
def several (p : Char → Bool) : Language Char :=
  one p * many p

/-- The text itself. -/
def word (text : String) : Language Char :=
  {text.toList}

/-- The text starts with one of the pattern. -/
def Starts (pattern : Language Char) (cs : List Char) : Prop :=
  ∃ w ∈ pattern, w <+: cs

/-- One of the pattern stands in the text. -/
def Occurs (pattern : Language Char) (cs : List Char) : Prop :=
  ∃ w ∈ pattern, w <:+: cs

variable {p : Char → Bool} {c : Char} {cs : List Char} {K L : Language Char} {text : String}

theorem mem_several : cs ∈ several p ↔ cs ≠ [] ∧ ∀ c ∈ cs, p c = true := by
  rw [several, Language.mem_mul]
  constructor
  · rintro ⟨_, ⟨c, hc, rfl⟩, rest, hrest, rfl⟩
    exact ⟨List.cons_ne_nil c rest, List.forall_mem_cons.mpr ⟨hc, hrest⟩⟩
  · rintro ⟨hsome, hall⟩
    cases cs with
    | nil => exact absurd rfl hsome
    | cons c rest =>
      obtain ⟨hc, hrest⟩ := List.forall_mem_cons.mp hall
      exact ⟨[c], ⟨c, hc, rfl⟩, rest, hrest, rfl⟩

/-! ### Looking at the start -/

theorem starts_add : Starts (K + L) cs ↔ Starts K cs ∨ Starts L cs := by
  constructor
  · rintro ⟨w, hw | hw, hpre⟩
    · exact .inl ⟨w, hw, hpre⟩
    · exact .inr ⟨w, hw, hpre⟩
  · rintro (⟨w, hw, hpre⟩ | ⟨w, hw, hpre⟩)
    · exact ⟨w, .inl hw, hpre⟩
    · exact ⟨w, .inr hw, hpre⟩

theorem starts_mul : Starts (K * L) cs ↔ ∃ v ∈ K, ∃ rest, cs = v ++ rest ∧ Starts L rest := by
  constructor
  · rintro ⟨w, hw, after, rfl⟩
    obtain ⟨v, hv, u, hu, rfl⟩ := Language.mem_mul.mp hw
    exact ⟨v, hv, u ++ after, List.append_assoc _ _ _, u, hu, List.prefix_append _ _⟩
  · rintro ⟨v, hv, rest, rfl, w, hw, after, rfl⟩
    refine ⟨v ++ w, Language.append_mem_mul hv hw, after, ?_⟩
    rw [List.append_assoc]

theorem starts_word : Starts (word text) cs ↔ text.toList <+: cs := by
  constructor
  · rintro ⟨w, rfl, hpre⟩
    exact hpre
  · exact fun hpre => ⟨_, rfl, hpre⟩

theorem starts_word_mul :
    Starts (word text * L) cs ↔ ∃ rest, cs = text.toList ++ rest ∧ Starts L rest := by
  rw [starts_mul]
  constructor
  · rintro ⟨v, rfl, hrest⟩
    exact hrest
  · exact fun hrest => ⟨_, rfl, hrest⟩

theorem starts_one_mul :
    Starts (one p * L) cs ↔ ∃ c rest, cs = c :: rest ∧ p c = true ∧ Starts L rest := by
  rw [starts_mul]
  constructor
  · rintro ⟨v, ⟨c, hc, rfl⟩, rest, rfl, hrest⟩
    exact ⟨c, rest, rfl, hc, hrest⟩
  · rintro ⟨c, rest, rfl, hc, hrest⟩
    exact ⟨[c], ⟨c, hc, rfl⟩, rest, rfl, hrest⟩

/-- All texts of the pattern start with a character that is not in the class. -/
def Leaves (p : Char → Bool) (pattern : Language Char) : Prop :=
  ∀ w ∈ pattern, ∃ c rest, w = c :: rest ∧ p c = false

/-- **There is one place to go on from** behind any number of characters of a class. -/
theorem starts_many_mul (h : Leaves p L) : Starts (many p * L) cs ↔ Starts L (cs.dropWhile p) := by
  rw [starts_mul]
  constructor
  · rintro ⟨v, hv, rest, rfl, w, hw, after, rfl⟩
    obtain ⟨c, more, rfl, hc⟩ := h w hw
    rw [List.dropWhile_append_of_pos hv, List.cons_append,
      List.dropWhile_cons_of_neg (by rw [hc]; decide)]
    exact ⟨c :: more, hw, List.prefix_append (c :: more) after⟩
  · intro hrest
    refine ⟨cs.takeWhile p, fun c hc => List.mem_takeWhile_imp hc, cs.dropWhile p, ?_, hrest⟩
    exact List.takeWhile_append_dropWhile.symm

theorem leaves_word {rest : List Char} (htext : text.toList = c :: rest) (hc : p c = false) :
    Leaves p (word text) := by
  rintro w rfl
  exact ⟨c, rest, htext, hc⟩

theorem leaves_one {q : Char → Bool} (h : ∀ c, q c = true → p c = false) : Leaves p (one q) := by
  rintro w ⟨c, hc, rfl⟩
  exact ⟨c, [], rfl, h c hc⟩

theorem Leaves.mul (h : Leaves p K) (L : Language Char) : Leaves p (K * L) := by
  intro w hw
  obtain ⟨v, hv, u, -, rfl⟩ := Language.mem_mul.mp hw
  obtain ⟨c, rest, rfl, hc⟩ := h v hv
  exact ⟨c, rest ++ u, rfl, hc⟩

theorem Leaves.add (hK : Leaves p K) (hL : Leaves p L) : Leaves p (K + L) := by
  rintro w (hw | hw)
  · exact hK w hw
  · exact hL w hw

theorem starts_several_mul (h : Leaves p L) : Starts (several p * L) cs
    ↔ ∃ c rest, cs = c :: rest ∧ p c = true ∧ Starts L (rest.dropWhile p) := by
  rw [several, mul_assoc, starts_one_mul]
  simp only [starts_many_mul h]

theorem starts_several : Starts (several p) cs ↔ ∃ c rest, cs = c :: rest ∧ p c = true := by
  rw [several, starts_one_mul]
  constructor
  · rintro ⟨c, rest, rfl, hc, -⟩
    exact ⟨c, rest, rfl, hc⟩
  · rintro ⟨c, rest, rfl, hc⟩
    exact ⟨c, rest, rfl, hc, [], fun _ => List.not_mem_nil.elim, List.nil_prefix⟩

/-- Characters of a class up to another that is not in it. -/
theorem starts_several_word {d : Char} (hd : p d = false) (hword : text.toList = [d]) :
    Starts (several p * word text) cs
      ↔ (!(cs.takeWhile p).isEmpty && (cs.dropWhile p).head? == Option.some d) = true := by
  rw [starts_several_mul (leaves_word hword hd), Bool.and_eq_true, beq_iff_eq]
  simp only [starts_word, hword]
  have hhead : ∀ more : List Char, [d] <+: more ↔ more.head? = Option.some d := by
    intro more
    cases more with
    | nil => simp
    | cons e more => simp [List.cons_prefix_cons, eq_comm]
  simp only [hhead]
  constructor
  · rintro ⟨c, rest, rfl, hc, hrest⟩
    rw [List.takeWhile_cons_of_pos hc, List.dropWhile_cons_of_pos hc]
    exact ⟨rfl, hrest⟩
  · rintro ⟨hsome, hrest⟩
    cases cs with
    | nil => cases hsome
    | cons c rest =>
      by_cases hc : p c = true
      · rw [List.dropWhile_cons_of_pos hc] at hrest
        exact ⟨c, rest, rfl, hc, hrest⟩
      · rw [List.takeWhile_cons_of_neg hc] at hsome
        cases hsome

/-! ### Looking from the end -/

/-- All texts of the pattern end, and with another character. -/
def Closes (c : Char) (pattern : Language Char) : Prop :=
  ∀ w ∈ pattern, ∃ before d, w = before ++ [d] ∧ d ≠ c

theorem closes_word (before : List Char) {d : Char} (htext : text.toList = before ++ [d])
    (hd : d ≠ c) : Closes c (word text) := by
  rintro w rfl
  exact ⟨before, d, htext, hd⟩

theorem Closes.mul (h : Closes c L) (K : Language Char) : Closes c (K * L) := by
  intro w hw
  obtain ⟨v, -, u, hu, rfl⟩ := Language.mem_mul.mp hw
  obtain ⟨before, d, rfl, hd⟩ := h u hu
  exact ⟨v ++ before, d, (List.append_assoc _ _ _).symm, hd⟩

theorem Closes.add (hK : Closes c K) (hL : Closes c L) : Closes c (K + L) := by
  rintro w (hw | hw)
  · exact hK w hw
  · exact hL w hw

theorem closes_several (h : p c = false) : Closes c (several p) := by
  intro w hw
  obtain ⟨hsome, hall⟩ := mem_several.mp hw
  refine ⟨w.dropLast, w.getLast hsome, (List.dropLast_append_getLast hsome).symm, ?_⟩
  intro hsame
  have hthere := hall _ (List.getLast_mem hsome)
  rw [hsame, h] at hthere
  cases hthere

/-- **A character that no text of the pattern ends with makes no difference** at the end. -/
theorem starts_concat_iff (h : Closes c L) : Starts L (cs ++ [c]) ↔ Starts L cs := by
  constructor
  · rintro ⟨w, hw, hpre⟩
    refine ⟨w, hw, (List.prefix_concat_iff.mp hpre).resolve_left ?_⟩
    rintro rfl
    obtain ⟨before, d, hsame, hd⟩ := h _ hw
    exact hd (List.append_inj_right' hsame rfl |> List.singleton_inj.mp).symm
  · rintro ⟨w, hw, hpre⟩
    exact ⟨w, hw, hpre.trans (List.prefix_append _ _)⟩

theorem occurs_concat_iff (h : Closes c L) : Occurs L (cs ++ [c]) ↔ Occurs L cs := by
  constructor
  · rintro ⟨w, hw, hinfix⟩
    refine ⟨w, hw, (List.infix_concat_iff.mp hinfix).resolve_left ?_⟩
    rintro ⟨before, hsame⟩
    obtain ⟨front, d, rfl, hd⟩ := h _ hw
    rw [← List.append_assoc] at hsame
    exact hd (List.singleton_inj.mp (List.append_inj_right' hsame rfl))
  · rintro ⟨w, hw, hinfix⟩
    exact ⟨w, hw, hinfix.trans (List.prefix_append _ _).isInfix⟩

end SharedMemos.Pattern
