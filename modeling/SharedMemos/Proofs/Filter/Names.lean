import SharedMemos.Proofs.Filter.Expansion
import SharedMemos.Proofs.Filter.Grammar

/-!
# The names in an expression

A name stands in an expression as a variable or as the variable of a comprehension. Where a filter
text is read, a name that comes to stand in the expression was an identifier of the text, with one
exception: the selections from `property` are named anew. Writing tag tests out adds two names, and
those are always the same.

## Main results

* `Derives.spells` — where the names of an expression come from
* `Expands.mentions` — and those of its expansion
-/

namespace SharedMemos.Filter

namespace Expr

mutual

/-- Does the name stand in the expression, as a variable or as a binder? -/
def mentions (name : String) : Expr → Bool
  | .const _ => false
  | .var n => n == name
  | .list items => anyMentions name items
  | .call _ args => anyMentions name args
  | .method _ receiver args => receiver.mentions name || anyMentions name args
  | .quantified _ binder range body =>
    binder == name || range.mentions name || body.mentions name

/-- Does the name stand in one of the expressions? -/
def anyMentions (name : String) : List Expr → Bool
  | [] => false
  | e :: es => e.mentions name || anyMentions name es

end

end Expr

/-! ### Names that are read -/

/-- Is the name an identifier among the tokens, or can it have been selected from `property`? -/
def Spells (ts : List Token) (name : String) : Prop :=
  .ident name ∈ ts ∨ .ident "property" ∈ ts

theorem Spells.mono {us ts : List Token} {name : String} (h : Spells us name) (hsub : us ⊆ ts) :
    Spells ts name :=
  h.imp (hsub ·) (hsub ·)

mutual

/-- **A name comes from its identifier**, or from a selection from `property`. -/
theorem Derives.spells {name : String} : ∀ {depth : Nat} {c : Category} {ts : List Token}
    {e : Expr}, Derives depth c ts e → e.mentions name = true → Spells ts name
  | _, _, _, _, .operand h, hname => h.spells hname
  | _, _, _, _, .infixed _ hl hr, hname => by
    simp only [Expr.mentions, Expr.anyMentions, Bool.or_false, Bool.or_eq_true] at hname
    rcases hname with hname | hname
    · exact (hl.spells hname).mono (by simp)
    · exact (hr.spells hname).mono fun t ht => by simp [ht]
  | _, _, _, _, .not h, hname | _, _, _, _, .neg _ h, hname => by
    simp only [Expr.mentions, Expr.anyMentions, Bool.or_false] at hname
    exact (h.spells hname).mono (by simp)
  | _, _, _, _, .member h, hname => h.spells hname
  | _, _, _, _, .int _, hname | _, _, _, _, .negative _, hname | _, _, _, _, .string _, hname
  | _, _, _, _, .true, hname | _, _, _, _, .false, hname => by
    simp [Expr.mentions] at hname
  | _, _, _, _, .var _, hname => by
    rw [Expr.mentions, beq_iff_eq] at hname
    exact .inl (by simp [hname])
  | _, _, _, _, .group h, hname => (h.spells hname).mono (by simp)
  | _, _, _, _, .list h, hname | _, _, _, _, .listWithComma h _, hname
  | _, _, _, _, .function _ h, hname => by
    rw [Expr.mentions] at hname
    exact (h.spells hname).mono fun t ht => by simp [ht]
  | _, _, _, _, .selection h _, _ => by
    have hproperty : Spells _ "property" := h.spells (by simp [Expr.mentions])
    exact .inr (List.mem_append_left _ (hproperty.elim id id))
  | _, _, _, _, .method _ h hargs, hname => by
    rw [Expr.mentions, Bool.or_eq_true] at hname
    rcases hname with hname | hname
    · exact (h.spells hname).mono (by simp)
    · exact (hargs.spells hname).mono fun t ht => by simp [ht]
  | _, _, _, _, @Derives.quantified _ _ _ _ _ binder body h hargs, hname => by
    have hargs' : (binder == name || body.mentions name) = true → Spells _ name := fun hname =>
      hargs.spells (by simpa [Expr.anyMentions, Expr.mentions] using hname)
    rw [Expr.mentions, Bool.or_eq_true, Bool.or_eq_true] at hname
    rcases hname with (hname | hname) | hname
    · exact (hargs' (by rw [hname, Bool.true_or])).mono fun t ht => by simp [ht]
    · exact (h.spells hname).mono (by simp)
    · exact (hargs' (by rw [hname, Bool.or_true])).mono fun t ht => by simp [ht]

theorem DerivesAll.spells {name : String} : ∀ {depth : Nat} {ts : List Token} {es : List Expr},
    DerivesAll depth ts es → Expr.anyMentions name es = true → Spells ts name
  | _, _, _, .none, hname => by simp [Expr.anyMentions] at hname
  | _, _, _, .last h, hname => by
    rw [Expr.anyMentions, Expr.anyMentions, Bool.or_false] at hname
    exact h.spells hname
  | _, _, _, .cons h _ hall, hname => by
    rw [Expr.anyMentions, Bool.or_eq_true] at hname
    rcases hname with hname | hname
    · exact (h.spells hname).mono (by simp)
    · exact (hall.spells hname).mono fun t ht => by simp [ht]

end

/-! ### Names that tag tests bring along -/

theorem mentions_underTag {name tag : String} (h : (underTag tag).mentions name = true) :
    name = tagBinder := by
  simp only [underTag, Expr.mentions, Expr.anyMentions, Bool.or_false, Bool.or_self,
    beq_iff_eq] at h
  exact h.symm

theorem mentions_orUnderTags {name : String} : ∀ {tags : List String} {test : Expr},
    (orUnderTags test tags).mentions name = true → test.mentions name = true ∨ name = tagBinder
  | [], _, h => .inl h
  | tag :: tags, test, h => by
    rw [orUnderTags] at h
    rcases mentions_orUnderTags h with h | h
    · rw [Expr.mentions, Expr.anyMentions, Expr.anyMentions, Bool.or_eq_true, Expr.anyMentions,
        Bool.or_false] at h
      exact h.imp_right mentions_underTag
    · exact .inr h

theorem mentions_tagTest {name : String} {tags : List String}
    (h : (tagTest tags).mentions name = true) : name = "tags" ∨ name = tagBinder := by
  cases tags with
  | nil => simp [tagTest, Expr.mentions] at h
  | cons tag tags =>
    simp only [tagTest, Expr.mentions, Bool.or_eq_true, beq_iff_eq] at h
    rcases h with (h | h) | h
    · exact .inr h.symm
    · exact .inl h.symm
    · exact .inr ((mentions_orUnderTags h).elim mentions_underTag id)

mutual

/-- **Only two names are added** where tag tests are written out. -/
theorem Expands.mentions {name : String} : ∀ {e e' : Expr}, Expands e e' →
    e'.mentions name = true → e.mentions name = true ∨ name = "tags" ∨ name = tagBinder
  | _, _, .const _, hname | _, _, .var _, hname => .inl hname
  | _, _, .list h, hname => h.anyMentions hname
  | _, _, .tagTest _ _, hname => .inr (mentions_tagTest hname)
  | _, _, .call _ h, hname => h.anyMentions hname
  | _, _, .method _ hr h, hname => by
    rw [Expr.mentions, Bool.or_eq_true] at hname
    rw [Expr.mentions, Bool.or_eq_true]
    rcases hname with hname | hname
    · exact (hr.mentions hname).imp_left .inl
    · exact (h.anyMentions hname).imp_left .inr
  | _, _, .quantified _ _ hr hb, hname => by
    rw [Expr.mentions, Bool.or_eq_true, Bool.or_eq_true] at hname
    rw [Expr.mentions, Bool.or_eq_true, Bool.or_eq_true]
    rcases hname with (hname | hname) | hname
    · exact .inl (.inl (.inl hname))
    · exact (hr.mentions hname).imp_left fun h => .inl (.inr h)
    · exact (hb.mentions hname).imp_left .inr

theorem ExpandsAll.anyMentions {name : String} : ∀ {es es' : List Expr}, ExpandsAll es es' →
    Expr.anyMentions name es' = true →
    Expr.anyMentions name es = true ∨ name = "tags" ∨ name = tagBinder
  | _, _, .nil, hname => .inl hname
  | _, _, .cons h hall, hname => by
    rw [Expr.anyMentions, Bool.or_eq_true] at hname
    rw [Expr.anyMentions, Bool.or_eq_true]
    rcases hname with hname | hname
    · exact (h.mentions hname).imp_left .inl
    · exact (hall.anyMentions hname).imp_left .inr

end

end SharedMemos.Filter
