import SharedMemos.Proofs.Filter.Grammar

/-!
# Reading with fewer levels

The parser of a level is built from the parser of the level below, and below the last one there is a
parser that fails. So to read with fewer levels is to replace a parser somewhere inside by that one.
Every parser hands on the first error of the parsers that it calls: what is read with fewer levels is
the same, or the error that there were too few.

## Main results

* `Within` — the same outcome, or too few levels for it
* `Approximates` — a parser that gives what another gives, within the levels it has
* `within_expression` — so does the parser of fewer levels
-/

namespace SharedMemos.Filter.Parser

/-- The outcome is the other one, unless there were too few levels for it. -/
def Within {α : Type} (r r' : Except SyntaxError α) : Prop :=
  r = r' ∨ ∃ offset, r = .error ⟨.nestedTooDeeply, offset⟩

theorem Within.refl {α : Type} (r : Except SyntaxError α) : Within r r :=
  .inl rfl

/-- The parser gives what the other one gives, within its levels. -/
def Approximates (p p' : P) : Prop :=
  ∀ ts, Within (p ts) (p' ts)

theorem Approximates.refl (p : P) : Approximates p p := fun ts => .refl (p ts)

/-- Nothing is below the last level. -/
theorem approximates_tooDeep (stop : Nat) (p : P) : Approximates (tooDeep stop) p :=
  fun ts => .inr ⟨offset stop ts, rfl⟩

variable {p p' inner inner' : P}

/-! ### Chains of operators -/

theorem Approximates.chain (h : Approximates p p') (operator? : Token → Option Op) :
    ∀ (fuel : Nat) (left : Expr),
      Approximates (chain operator? p fuel left) (chain operator? p' fuel left) := by
  intro fuel
  induction fuel with
  | zero => exact fun left ts => .refl _
  | succ fuel ih =>
    intro left ts
    rcases ts with _ | ⟨⟨t, pos⟩, rest⟩
    · exact .refl _
    · simp only [Parser.chain]
      cases operator? t with
      | none => exact .refl _
      | some op =>
        rcases h rest with heq | ⟨offset, herror⟩
        · simp only [heq]
          cases p' rest with
          | error e => exact .refl _
          | ok r => exact ih _ r.2
        · exact .inr ⟨offset, by simp only [herror]⟩

theorem Approximates.infixLeft (h : Approximates p p') (operator? : Token → Option Op) :
    Approximates (infixLeft operator? p) (infixLeft operator? p') := by
  intro ts
  simp only [Parser.infixLeft]
  rcases h ts with heq | ⟨offset, herror⟩
  · simp only [heq]
    cases p' ts with
    | error e => exact .refl _
    | ok r => exact h.chain operator? _ _ r.2
  · exact .inr ⟨offset, by simp only [herror]⟩

theorem Approximates.expressionOver (h : Approximates p p') :
    Approximates (expressionOver p) (expressionOver p') :=
  ((((h.infixLeft product?).infixLeft sum?).infixLeft relation?).infixLeft
    conjunction?).infixLeft disjunction?

/-! ### Arguments and items -/

variable (stop : Nat)

theorem Approximates.argumentsFrom (h : Approximates p p') : ∀ (fuel : Nat) (ts : List Lexeme),
    Within (argumentsFrom p stop fuel ts) (argumentsFrom p' stop fuel ts)
  | 0, _ => .refl _
  | fuel + 1, ts => by
    simp only [Parser.argumentsFrom]
    rcases h ts with heq | ⟨offset, herror⟩
    · simp only [heq]
      split
      · exact .refl _
      · rename_i arg pos rest _
        rcases h.argumentsFrom fuel rest with heq | ⟨offset, herror⟩
        · exact .inl (by simp only [heq])
        · exact .inr ⟨offset, by simp only [herror]⟩
      · exact .refl _
      · exact .refl _
    · exact .inr ⟨offset, by simp only [herror]⟩

theorem Approximates.arguments (h : Approximates p p') (ts : List Lexeme) :
    Within (arguments p stop ts) (arguments p' stop ts) := by
  unfold Parser.arguments
  split
  · exact .refl _
  · exact h.argumentsFrom stop _ _

theorem Approximates.itemsFrom (h : Approximates p p') (start : Nat) :
    ∀ (fuel : Nat) (ts : List Lexeme),
      Within (itemsFrom p stop start fuel ts) (itemsFrom p' stop start fuel ts)
  | 0, _ => .refl _
  | fuel + 1, ts => by
    simp only [Parser.itemsFrom]
    rcases h ts with heq | ⟨offset, herror⟩
    · simp only [heq]
      split
      · exact .refl _
      · exact .refl _
      · rename_i item pos rest _ _
        rcases h.itemsFrom start fuel rest with heq | ⟨offset, herror⟩
        · exact .inl (by simp only [heq])
        · exact .inr ⟨offset, by simp only [herror]⟩
      · exact .refl _
      · exact .refl _
    · exact .inr ⟨offset, by simp only [herror]⟩

theorem Approximates.items (h : Approximates p p') (start : Nat) (ts : List Lexeme) :
    Within (items p stop start ts) (items p' stop start ts) := by
  unfold Parser.items
  split
  · exact .refl _
  · exact h.itemsFrom stop start _ _

/-! ### Members and prefix operators -/

theorem Approximates.members (h : Approximates p p') : ∀ (fuel : Nat) (base : Expr),
    Approximates (members p stop fuel base) (members p' stop fuel base)
  | 0, _, _ => .refl _
  | fuel + 1, base, ts => by
    unfold Parser.members
    split
    · rename_i pos name pos' pos'' rest
      rcases h.arguments stop rest with heq | ⟨offset, herror⟩
      · simp only [heq]
        cases Parser.arguments p' stop rest with
        | error e => exact .refl _
        | ok r =>
          dsimp only
          split
          · exact .refl _
          · exact h.members fuel _ r.2
      · exact .inr ⟨offset, by simp only [herror]⟩
    · split
      · exact .refl _
      · exact h.members fuel _ _
    · exact .refl _
    · exact .refl _

theorem Approximates.primary (h : Approximates p p') :
    Approximates (primary p stop) (primary p' stop) := by
  intro ts
  unfold Parser.primary
  split
  · exact .refl _
  · exact .refl _
  · exact .refl _
  · rename_i pos rest
    rcases h rest with heq | ⟨offset, herror⟩
    · exact .inl (by simp only [heq])
    · exact .inr ⟨offset, by simp only [herror]⟩
  · rename_i pos rest
    rcases h.items stop pos rest with heq | ⟨offset, herror⟩
    · exact .inl (by simp only [heq])
    · exact .inr ⟨offset, by simp only [herror]⟩
  · split
    · exact .refl _
    split
    · exact .refl _
    split
    · exact .refl _
    split
    · rename_i pos' rest
      rcases h.arguments stop rest with heq | ⟨offset, herror⟩
      · exact .inl (by simp only [heq])
      · exact .inr ⟨offset, by simp only [herror]⟩
    · exact .refl _
  · exact .refl _

theorem Approximates.prefixed (h : Approximates p p') (op : Op) :
    Approximates (prefixed op p) (prefixed op p') := by
  intro ts
  rcases h ts with heq | ⟨offset, herror⟩
  · exact .inl (by simp only [Parser.prefixed, heq])
  · exact .inr ⟨offset, by simp only [Parser.prefixed, herror]⟩

theorem Approximates.unaryOver (h : Approximates p p') (hinner : Approximates inner inner') :
    Approximates (unaryOver p inner stop) (unaryOver p' inner' stop) := by
  intro ts
  unfold Parser.unaryOver
  split
  · exact hinner.prefixed .not _
  · exact h.members stop _ _ _
  · exact hinner.prefixed .neg _
  · rcases h.primary stop ts with heq | ⟨offset, herror⟩
    · simp only [heq]
      cases Parser.primary p' stop ts with
      | error e => exact .refl _
      | ok r => exact h.members stop _ _ r.2
    · exact .inr ⟨offset, by simp only [herror]⟩

/-! ### Levels -/

theorem approximates_unary (more : Nat) : ∀ depth : Nat,
    Approximates (unary stop depth) (unary stop (depth + more))
  | 0 => by
    cases more with
    | zero => exact .refl _
    | succ more =>
      rw [Nat.zero_add]
      exact (approximates_tooDeep stop _).unaryOver stop (approximates_tooDeep stop _)
  | depth + 1 => by
    rw [Nat.add_right_comm]
    exact (approximates_unary more depth).expressionOver.unaryOver stop
      (approximates_unary more depth)

/-- **With fewer levels the same is read, or there are too few.** -/
theorem within_expression (depth more : Nat) (ts : List Lexeme) :
    Within (expression stop (depth + 1) ts) (expressionOver (unary stop (depth + more)) ts) :=
  (approximates_unary stop more depth).expressionOver ts

end SharedMemos.Filter.Parser
