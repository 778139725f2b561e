import SharedMemos.Proofs.Filter.Literals
import SharedMemos.Proofs.Filter.Prefilter

/-!
# What a checked filter can come to

A filter is checked before it is used, and a mismatch of kinds that the check let through would go
unnoticed: an expression without a value just is not satisfied. So the check is sound if a checked
filter has a value, or fails for an arithmetic reason.

A type is read as a set of values (`Value.HasType`). The type `any` has none: it is that of the
elements of an empty list, and an expression of that type never comes to a value. That is why it may
fit everywhere, and why a list of nothing is a list of whatever is asked for (`Ty.le`).

## Where a type is lost

The check takes a list literal for a list of what its first items are, and a sum for what its left
operand is, and it is content if the other items and the right operand are *compatible* with that.
Being compatible goes both ways. A list of texts is compatible with the list of nothing before it,
and from there on its texts are taken for elements of an empty list, which fit everywhere: as a
truth value, as a number. `compile_overlooks_mismatch` is such a filter.

`Expr.keepsTypes` says that this does not happen: what is taken into a list, or added to one, has a
type below the one that is kept. Nothing else has to be asked for (`checked_lands`).

## Main results

* `Op.apply_lands` — one operator or function
* `infer_lands` — every expression, in every scope
* `checked_lands` — a compiled filter has a truth value, or overflows, or divides by zero
-/

namespace SharedMemos.Filter

open SharedMemos.Text

/-! ### Types as sets of values -/

/-- Is the value one of the type? The type `any` has no values. -/
inductive Value.HasType : Value → Ty → Prop
  | bool (b : Bool) : HasType (.bool b) .bool
  | int (n : Int) : HasType (.int n) .int
  | string (s : String) : HasType (.string s) .string
  | list {items : List Value} {t : Ty} (h : ∀ v ∈ items, HasType v t) :
    HasType (.list items) (.list t)

namespace Ty

/-- Does every value of the one type have the other? -/
def le : Ty → Ty → Bool
  | .any, _ => true
  | .list a, .list b => a.le b
  | a, b => a == b

theorem le_refl : ∀ t : Ty, t.le t = true
  | .bool | .int | .string | .any => rfl
  | .list t => by rw [le, le_refl t]

@[simp] theorem any_le (t : Ty) : Ty.any.le t = true := by
  cases t <;> rfl

end Ty

namespace Value.HasType

theorem of_le : ∀ {a b : Ty} {v : Value}, v.HasType a → a.le b = true → v.HasType b
  | .list a, b, _, .list hitems, h => by
    cases b with
    | list b => exact .list fun v hv => of_le (hitems v hv) (by rwa [Ty.le] at h)
    | _ => simp [Ty.le] at h
  | .bool, b, _, .bool _, h => by
    cases b <;> simp [Ty.le] at h
    exact .bool _
  | .int, b, _, .int _, h => by
    cases b <;> simp [Ty.le] at h
    exact .int _
  | .string, b, _, .string _, h => by
    cases b <;> simp [Ty.le] at h
    exact .string _

theorem exists_bool {v : Value} (h : v.HasType .bool) : ∃ b, v = .bool b := by
  cases h
  exact ⟨_, rfl⟩

theorem exists_int {v : Value} (h : v.HasType .int) : ∃ n, v = .int n := by
  cases h
  exact ⟨_, rfl⟩

theorem exists_string {v : Value} (h : v.HasType .string) : ∃ s, v = .string s := by
  cases h
  exact ⟨_, rfl⟩

theorem exists_list {v : Value} {t : Ty} (h : v.HasType (.list t)) :
    ∃ items, v = .list items ∧ ∀ w ∈ items, w.HasType t := by
  cases h with
  | list hitems => exact ⟨_, rfl, hitems⟩

/-- A value of a type that fits where another is asked for has that other type. -/
theorem of_fits {v : Value} {t want : Ty} (h : v.HasType t) (hfits : t.fits want = true) :
    v.HasType want := by
  rw [Ty.fits, Bool.or_eq_true, beq_iff_eq, beq_iff_eq] at hfits
  rcases hfits with rfl | rfl
  · cases h
  · exact h

/-- Two values of compatible types are of one kind. -/
theorem same_kind {v w : Value} {a b : Ty} (hv : v.HasType a) (hw : w.HasType b)
    (h : a.compatible b = true) :
    (∃ x y, v = .bool x ∧ w = .bool y) ∨ (∃ x y, v = .int x ∧ w = .int y)
      ∨ (∃ x y, v = .string x ∧ w = .string y) ∨ ∃ x y, v = .list x ∧ w = .list y := by
  cases hv <;> cases hw <;> simp_all [Ty.compatible]

end Value.HasType

/-- Scalars are of the type that they are taken for. -/
theorem Value.hasType_of_isScalar {v : Value} (h : v.isScalar = true) : v.HasType v.type := by
  cases v with
  | bool b => exact .bool b
  | int n => exact .int n
  | string s => exact .string s
  | list items => cases h

theorem Attribute.hasType (m : Memo) (a : Attribute) : (a.value m).HasType a.type := by
  cases a with
  | creator | created | updated => exact .int _
  | visibility | state | content => exact .string _
  | pinned | hasLink | hasTaskList | hasCode | hasIncompleteTasks => exact .bool _
  | tags =>
    refine .list fun v hv => ?_
    obtain ⟨tag, -, rfl⟩ := List.mem_map.mp hv
    exact .string tag

/-! ### Landing -/

/-- Did the arithmetic fail, not the kinds of its operands? -/
def EvalError.isArithmetic : EvalError → Bool
  | .overflow | .divisionByZero => true
  | .noOverload _ | .unbound _ => false

/-- Is the result a value of the type, or an arithmetic failure? -/
def Result.Lands (r : Result) (t : Ty) : Prop :=
  match r with
  | .ok v => v.HasType t
  | .error e => e.isArithmetic = true

namespace Result.Lands

variable {r l : Result} {t s : Ty}

theorem of_le (h : Lands r t) (hle : t.le s = true) : Lands r s := by
  cases r with
  | ok v => exact Value.HasType.of_le h hle
  | error e => exact h

theorem ofInt (n : Int) : Lands (Filter.ofInt n) .int := by
  rw [Filter.ofInt, checkedInt64]
  split
  · exact Value.HasType.int n
  · rfl

/-- What fits as a truth value is one, if there is a value at all. -/
theorem truth (h : Lands r t) (hfits : t.fits .bool = true) :
    (∃ b, r = .ok (.bool b)) ∨ ∃ e, r = .error e ∧ e.isArithmetic = true := by
  cases r with
  | ok v =>
    obtain ⟨b, rfl⟩ := (Value.HasType.of_fits h hfits).exists_bool
    exact .inl ⟨b, rfl⟩
  | error e => exact .inr ⟨e, rfl, h⟩

end Result.Lands

open Result (Lands)

/-- The results land in the types, one by one. -/
abbrev LandAll (rs : List Result) (ts : List Ty) : Prop := List.Forall₂ Lands rs ts

/-- All operands have values of their types, or one of them failed. -/
theorem LandAll.values {rs : List Result} {ts : List Ty} (h : LandAll rs ts) :
    (∃ vs, Filter.values rs = .ok vs ∧ List.Forall₂ Value.HasType vs ts)
      ∨ ∃ e, Filter.values rs = .error e ∧ e.isArithmetic = true := by
  induction h with
  | nil => exact .inl ⟨[], rfl, .nil⟩
  | @cons r t rs ts hr hrs ih =>
    cases r with
    | error e => exact .inr ⟨e, rfl, hr⟩
    | ok v =>
      rcases ih with ⟨vs, hvs, hall⟩ | ⟨e, he, harith⟩
      · refine .inl ⟨v :: vs, ?_, .cons hr hall⟩
        rw [Filter.values, hvs]
        rfl
      · refine .inr ⟨e, ?_, harith⟩
        rw [Filter.values, he]
        rfl

theorem LandAll.bind {rs : List Result} {ts : List Ty} {f : List Value → Result} {t : Ty}
    (hrs : LandAll rs ts) (hf : ∀ vs, List.Forall₂ Value.HasType vs ts → Lands (f vs) t) :
    Lands ((Filter.values rs).bind f) t := by
  rcases hrs.values with ⟨vs, hvs, hall⟩ | ⟨e, he, harith⟩
  · rw [hvs]
    exact hf vs hall
  · rw [he]
    exact harith

/-- The results of items that all land in a type make a list of that type. -/
theorem values_lands {rs : List Result} {t : Ty} (h : ∀ r ∈ rs, Lands r t) :
    Lands ((values rs).map .list) (.list t) := by
  induction rs with
  | nil => exact Value.HasType.list (by simp)
  | cons r rs ih =>
    obtain ⟨hr, hrs⟩ := List.forall_mem_cons.mp h
    have hrest := ih hrs
    cases r with
    | error e => exact hr
    | ok v =>
      rw [values]
      cases hvs : values rs with
      | error e =>
        rw [hvs] at hrest
        exact hrest
      | ok vs =>
        rw [hvs] at hrest
        obtain ⟨items, hitems, hall⟩ := Value.HasType.exists_list hrest
        cases hitems
        exact Value.HasType.list (List.forall_mem_cons.mpr ⟨hr, hall⟩)

/-! ### Operators and functions -/

theorem conjunction_lands {l r : Result} {a b : Ty} (hl : Lands l a) (hr : Lands r b)
    (ha : a.fits .bool = true) (hb : b.fits .bool = true) : Lands (conjunction l r) .bool := by
  rcases hl.truth ha with ⟨x, rfl⟩ | ⟨e, rfl, he⟩ <;>
    rcases hr.truth hb with ⟨y, rfl⟩ | ⟨f, rfl, hf⟩
  · cases x <;> cases y <;> exact Value.HasType.bool _
  · cases x
    · exact Value.HasType.bool _
    · exact hf
  · cases y
    · exact Value.HasType.bool _
    · exact he
  · exact he

theorem disjunction_lands {l r : Result} {a b : Ty} (hl : Lands l a) (hr : Lands r b)
    (ha : a.fits .bool = true) (hb : b.fits .bool = true) : Lands (disjunction l r) .bool := by
  rcases hl.truth ha with ⟨x, rfl⟩ | ⟨e, rfl, he⟩ <;>
    rcases hr.truth hb with ⟨y, rfl⟩ | ⟨f, rfl, hf⟩
  · cases x <;> cases y <;> exact Value.HasType.bool _
  · cases x
    · exact hf
    · exact Value.HasType.bool _
  · cases y
    · exact he
    · exact Value.HasType.bool _
  · exact he

/-- A comprehension over bodies that land as truth values. -/
theorem Quantifier.join_lands (q : Quantifier) {rs : List Result} {t : Ty}
    (hfits : t.fits .bool = true) (h : ∀ r ∈ rs, Lands r t) : Lands (q.join rs) .bool := by
  rw [join]
  split
  · exact Value.HasType.bool _
  · split
    · rename_i e he
      obtain ⟨r, hr, herror⟩ := List.mem_filterMap.mp (List.mem_of_getLast? he)
      rcases (h r hr).truth hfits with ⟨b, rfl⟩ | ⟨f, rfl, hf⟩
      · cases herror
      · cases herror
        exact hf
    · exact Value.HasType.bool _

/-- The arithmetic operators. -/
def Op.arithmetic : List Op := [.add, .sub, .mul, .div, .mod]

theorem Op.onValues_ints_lands (op : Op) (hop : op ∈ arithmetic) (a b : Int) :
    Lands (op.onValues none [.int a, .int b]) .int := by
  simp only [arithmetic, List.mem_cons, List.not_mem_nil, or_false] at hop
  rcases hop with rfl | rfl | rfl | rfl | rfl
  · exact .ofInt _
  · exact .ofInt _
  · exact .ofInt _
  · simp only [onValues, onInts]
    split
    · rfl
    · exact .ofInt _
  · simp only [onValues, onInts]
    split
    · rfl
    · split
      · rfl
      · exact .ofInt _

theorem sizeOf_lands {v : Value} {a : Ty} (hv : v.HasType a)
    (ha : a = .string ∨ (∃ b, a = .list b) ∨ a = .any) : Lands (sizeOf v) .int := by
  rcases ha with rfl | ⟨b, rfl⟩ | rfl
  · obtain ⟨s, rfl⟩ := hv.exists_string
    exact Value.HasType.int _
  · obtain ⟨items, rfl, -⟩ := hv.exists_list
    exact Value.HasType.int _
  · cases hv

/-- Does a sum have the type of both operands? -/
def Op.keepsType (op : Op) (args : List Ty) : Bool :=
  match op, args with
  | .add, [l, r] => l == .any || r.le l
  | _, _ => true

section Operators

variable {op : Op} {v w : Value} {a b t : Ty}

theorem Op.onValues_unary_lands (htype : op.resultType? none [a] = some t) (hv : v.HasType a) :
    Lands (op.onValues none [v]) t := by
  cases op <;> simp only [resultType?, reduceCtorEq, Option.ite_none_right_eq_some,
    Option.some.injEq] at htype
  case not =>
    obtain ⟨hfits, rfl⟩ := htype
    obtain ⟨x, rfl⟩ := (hv.of_fits hfits).exists_bool
    exact Value.HasType.bool _
  case neg =>
    obtain ⟨hfits, rfl⟩ := htype
    obtain ⟨x, rfl⟩ := (hv.of_fits hfits).exists_int
    exact .ofInt _
  case size =>
    split at htype <;> cases htype
    · exact sizeOf_lands hv (.inl rfl)
    · exact sizeOf_lands hv (.inr (.inl ⟨_, rfl⟩))
    · exact sizeOf_lands hv (.inr (.inr rfl))

/-- Relations of order are defined on two numbers and on two texts. -/
theorem Op.ofOrder_lands {name : String} (hv : v.HasType a) (hw : w.HasType b)
    (hcompatible : a.compatible b = true) (hordered : (a.fits .int || a.fits .string) = true) :
    Lands ((order? v w).elim (.error (.noOverload name)) fun o => .ok (.bool (op.ofOrder o)))
      .bool := by
  have hkind := hv.same_kind hw hcompatible
  rw [Bool.or_eq_true] at hordered
  rcases hordered with hint | hstring
  · obtain ⟨x, rfl⟩ := (hv.of_fits hint).exists_int
    obtain ⟨y, rfl⟩ : ∃ y, w = .int y := by simpa using hkind
    exact Value.HasType.bool _
  · obtain ⟨x, rfl⟩ := (hv.of_fits hstring).exists_string
    obtain ⟨y, rfl⟩ : ∃ y, w = .string y := by simpa using hkind
    exact Value.HasType.bool _

/-- A sum of two values of one kind. The type that is kept is above both, so a list that is appended
has items of the kept type too. -/
theorem Op.onValues_add_lands (hv : v.HasType a) (hw : w.HasType b) (hbool : a ≠ .bool)
    (hle : b.le a = true) : Lands (Op.add.onValues none [v, w]) a := by
  have hwa := hw.of_le hle
  cases hv with
  | bool x => exact absurd rfl hbool
  | int x =>
    obtain ⟨y, rfl⟩ := hwa.exists_int
    exact Op.onValues_ints_lands .add (by decide) x y
  | string x =>
    obtain ⟨y, rfl⟩ := hwa.exists_string
    exact Value.HasType.string _
  | list hitems =>
    obtain ⟨others, rfl, hothers⟩ := hwa.exists_list
    refine Value.HasType.list fun u hu => ?_
    rcases List.mem_append.mp hu with hu | hu
    · exact hitems u hu
    · exact hothers u hu

theorem Op.onValues_binary_lands (hand : op ≠ .and) (hor : op ≠ .or)
    (htype : op.resultType? none [a, b] = some t) (hkeeps : op.keepsType [a, b] = true)
    (hv : v.HasType a) (hw : w.HasType b) : Lands (op.onValues none [v, w]) t := by
  cases op <;> simp only [resultType?, reduceCtorEq, Option.ite_none_right_eq_some,
    Option.some.injEq, Bool.and_eq_true] at htype
  case or => exact absurd rfl hor
  case and => exact absurd rfl hand
  case eq | ne =>
    obtain ⟨-, rfl⟩ := htype
    exact Value.HasType.bool _
  case lt | le | gt | ge =>
    obtain ⟨⟨hcompatible, hordered⟩, rfl⟩ := htype
    exact ofOrder_lands hv hw hcompatible hordered
  case isIn =>
    split at htype
    · rw [Option.ite_none_right_eq_some] at htype
      cases htype.2
      obtain ⟨items, rfl, -⟩ := hw.exists_list
      exact Value.HasType.bool _
    · cases htype
  case add =>
    obtain ⟨⟨-, hbool⟩, rfl⟩ := htype
    have hany : (a == .any) = false := by cases hv <;> rfl
    rw [keepsType, hany, Bool.false_or] at hkeeps
    rw [hany]
    exact onValues_add_lands hv hw (by simpa using hbool) hkeeps
  case sub | mul | div | mod =>
    obtain ⟨⟨ha, hb⟩, rfl⟩ := htype
    obtain ⟨x, rfl⟩ := (hv.of_fits ha).exists_int
    obtain ⟨y, rfl⟩ := (hw.of_fits hb).exists_int
    exact onValues_ints_lands _ (by decide) x y

/-- A function called on a receiver. -/
theorem Op.onValues_method_lands {vs : List Value} {ts : List Ty}
    (htype : op.resultType? (some a) ts = some t) (hv : v.HasType a)
    (hvs : List.Forall₂ Value.HasType vs ts) : Lands (op.onValues (some v) vs) t := by
  cases hvs with
  | nil =>
    have hsize : Op.size.onValues (some v) [] = sizeOf v := by cases v <;> rfl
    simp only [resultType?] at htype
    split at htype <;> cases htype <;> rw [hsize]
    · exact sizeOf_lands hv (.inl rfl)
    · exact sizeOf_lands hv (.inr (.inl ⟨_, rfl⟩))
    · exact sizeOf_lands hv (.inr (.inr rfl))
  | cons hw hrest =>
    cases hrest with
    | nil =>
      cases op <;> simp only [resultType?, reduceCtorEq, Option.ite_none_right_eq_some,
        Option.some.injEq, Bool.and_eq_true] at htype
      all_goals
        obtain ⟨⟨ha, hb⟩, rfl⟩ := htype
        obtain ⟨x, rfl⟩ := (hv.of_fits ha).exists_string
        obtain ⟨y, rfl⟩ := (hw.of_fits hb).exists_string
        exact Value.HasType.bool _
    | cons _ _ => simp [resultType?] at htype

/-- **An operator or function lands in the type that it is given.** Only a junction and `now` are
not defined through the values of all operands. -/
theorem Op.apply_lands {rs : List Result} {ts : List Ty} (now : Int)
    (htype : op.resultType? none ts = some t) (hkeeps : op.keepsType ts = true)
    (hrs : LandAll rs ts) : Lands (op.apply now none rs) t := by
  match rs, ts, hrs with
  | [], [], .nil =>
    simp only [resultType?, Option.ite_none_right_eq_some] at htype
    obtain ⟨rfl, htype⟩ := htype
    cases htype
    exact Value.HasType.int now
  | [r], [a], hr =>
    have happly : op.apply now none [r] = (values [r]).bind fun vs => op.onValues none vs := by
      cases op <;> rfl
    rw [happly]
    refine LandAll.bind hr fun vs hvs => ?_
    match vs, hvs with
    | [v], .cons hv .nil => exact onValues_unary_lands htype hv
  | [l, r], [a, b], .cons hl (.cons hr .nil) =>
    by_cases hjunction : op = .and ∨ op = .or
    · have hfits : a.fits .bool = true ∧ b.fits .bool = true ∧ t = .bool := by
        rcases hjunction with rfl | rfl <;>
          simpa [resultType?, and_assoc, eq_comm (a := Ty.bool)] using htype
      obtain ⟨ha, hb, rfl⟩ := hfits
      rcases hjunction with rfl | rfl
      · exact conjunction_lands hl hr ha hb
      · exact disjunction_lands hl hr ha hb
    · rw [not_or] at hjunction
      have happly : op.apply now none [l, r]
          = (values [l, r]).bind fun vs => op.onValues none vs := by
        cases op <;> first | rfl | simp at hjunction
      rw [happly]
      refine LandAll.bind (.cons hl (.cons hr .nil)) fun vs hvs => ?_
      match vs, hvs with
      | [v, w], .cons hv (.cons hw .nil) =>
        exact onValues_binary_lands hjunction.1 hjunction.2 htype hkeeps hv hw
  | _ :: _ :: _ :: _, _ :: _ :: _ :: _, _ => simp [resultType?] at htype

/-- A function on a receiver lands in the type that it is given. -/
theorem Op.apply_method_lands {r : Result} {rs : List Result} {ts : List Ty} (now : Int)
    (htype : op.resultType? (some a) ts = some t) (hr : Lands r a)
    (hrs : LandAll rs ts) : Lands (op.apply now (some r) rs) t := by
  have hjunction : ∀ l m, rs = [l, m] → False := by
    rintro l m rfl
    match ts, hrs with
    | [_, _], _ => simp [resultType?] at htype
  rw [apply.eq_def]
  split
  · exact (hjunction _ _ rfl).elim
  · exact (hjunction _ _ rfl).elim
  · cases r with
    | error e => exact hr
    | ok v => exact hrs.bind fun vs hvs => onValues_method_lands htype hr hvs

end Operators

/-! ### Expressions that keep their types -/

mutual

/-- Does the expression keep the types of what it takes into a list and of what it adds? -/
def Expr.keepsTypes (scope : Scope) : Expr → Bool
  | .const _ | .var _ => true
  | .list items => keepsItems scope .any items
  | .call op args => keepsAll scope args && (inferAll scope args).toOption.all op.keepsType
  | .method _ receiver args => receiver.keepsTypes scope && keepsAll scope args
  | .quantified q binder range body =>
    range.keepsTypes scope
      && ((infer scope range).bind (elementType q)).toOption.all fun element =>
        body.keepsTypes ((binder, element) :: scope)

/-- Do all the expressions? -/
def Expr.keepsAll (scope : Scope) : List Expr → Bool
  | [] => true
  | e :: es => e.keepsTypes scope && keepsAll scope es

/-- Do the items of a list, and is each of a type below the one that is kept? That is `element`
after the items before. -/
def Expr.keepsItems (scope : Scope) (element : Ty) : List Expr → Bool
  | [] => true
  | e :: es =>
    e.keepsTypes scope
      && (infer scope e).toOption.all fun t =>
        if element = .any then keepsItems scope t es
        else t.le element && keepsItems scope element es

end

/-! ### Every expression -/

/-- Has every variable that is bound a value of its type? -/
abbrev BoundFits (bound : List (String × Value)) (scope : Scope) : Prop :=
  List.Forall₂ (fun b s => b.1 = s.1 ∧ b.2.HasType s.2) bound scope

theorem BoundFits.find? {bound : List (String × Value)} {scope : Scope} (name : String)
    (h : BoundFits bound scope) :
    (bound.find? (·.1 == name) = none ∧ scope.find? (·.1 == name) = none)
      ∨ ∃ b s, bound.find? (·.1 == name) = some b ∧ scope.find? (·.1 == name) = some s
          ∧ b.2.HasType s.2 := by
  induction h with
  | nil => exact .inl ⟨rfl, rfl⟩
  | @cons b s bound scope hb hrest ih =>
    rw [List.find?_cons, List.find?_cons, hb.1]
    cases hname : s.1 == name with
    | true => exact .inr ⟨b, s, rfl, rfl, hb.2⟩
    | false => exact ih

/-- Does the environment fit the scope? -/
def Env.Fits (env : Env) (scope : Scope) : Prop :=
  BoundFits env.bound scope

theorem Env.Fits.bind {env : Env} {scope : Scope} {v : Value} {t : Ty} (h : env.Fits scope)
    (binder : String) (hv : v.HasType t) : (env.bind binder v).Fits ((binder, t) :: scope) :=
  .cons ⟨rfl, hv⟩ h

/-- A variable with a type has a value of it. -/
theorem Env.Fits.lookup_lands {env : Env} {scope : Scope} {name : String} {t : Ty}
    (h : env.Fits scope) (htype : scope.typeOf? name = some t) : Lands (env.lookup name) t := by
  rw [Scope.typeOf?] at htype
  rw [Env.lookup]
  rcases h.find? name with ⟨hbound, hscope⟩ | ⟨b, s, hbound, hscope, hb⟩
  · rw [hscope] at htype
    obtain ⟨a, ha, rfl⟩ := Option.map_eq_some_iff.mp htype
    rw [hbound, ha]
    exact a.hasType env.memo
  · rw [hscope] at htype
    cases htype
    rw [hbound]
    exact hb

theorem elementType_eq_ok {q : Quantifier} {t element : Ty} (h : elementType q t = .ok element) :
    t = .list element ∨ t = .any := by
  rw [elementType.eq_def] at h
  split at h
  · cases h
    exact .inl rfl
  · exact .inr rfl
  · cases h

mutual

/-- **Every expression lands in its type**, in a scope that its environment fits, if its literals
are plain and it keeps its types. -/
theorem infer_lands : ∀ {e : Expr} {scope : Scope} {env : Env} {t : Ty}, infer scope e = .ok t →
    e.isPlain = true → e.keepsTypes scope = true → env.Fits scope → Lands (eval env e) t
  | .const v, scope, env, t, htype, hplain, hkeeps, hfits => by
    rw [infer] at htype
    cases htype
    rw [eval]
    exact Value.hasType_of_isScalar hplain
  | .var name, scope, env, t, htype, hplain, hkeeps, hfits => by
    rw [infer] at htype
    rw [eval]
    exact hfits.lookup_lands (elim_eq_ok.mp htype)
  | .list items, scope, env, t, htype, hplain, hkeeps, hfits => by
    rw [infer] at htype
    obtain ⟨element, hitems, rfl⟩ := map_eq_ok.mp htype
    rw [Expr.keepsTypes] at hkeeps
    rw [eval]
    exact values_lands (inferItems_lands hitems hplain hkeeps hfits).2
  | .call op args, scope, env, t, htype, hplain, hkeeps, hfits => by
    rw [infer] at htype
    rw [Expr.keepsTypes, Bool.and_eq_true] at hkeeps
    split at htype
    · cases htype
    · rename_i types htypes
      rw [htypes] at hkeeps
      rw [eval]
      exact Op.apply_lands env.now (elim_eq_ok.mp htype) hkeeps.2
        (inferAll_lands htypes hplain hkeeps.1 hfits)
  | .method op receiver args, scope, env, t, htype, hplain, hkeeps, hfits => by
    rw [infer] at htype
    rw [Expr.keepsTypes, Bool.and_eq_true] at hkeeps
    rw [Expr.isPlain, Bool.and_eq_true] at hplain
    split at htype
    · cases htype
    · rename_i s hs
      split at htype
      · cases htype
      · rename_i types htypes
        rw [eval]
        exact Op.apply_method_lands env.now (elim_eq_ok.mp htype)
          (infer_lands hs hplain.1 hkeeps.1 hfits) (inferAll_lands htypes hplain.2 hkeeps.2 hfits)
  | .quantified q binder range body, scope, env, t, htype, hplain, hkeeps, hfits => by
    rw [infer] at htype
    rw [Expr.keepsTypes, Bool.and_eq_true] at hkeeps
    rw [Expr.isPlain, Bool.and_eq_true] at hplain
    split at htype
    · cases htype
    · rename_i rangeType hrange
      have hlands := infer_lands hrange hplain.1 hkeeps.1 hfits
      split at htype
      · cases htype
      · rename_i element helement
        split at htype
        · cases htype
        · rename_i bodyType hbody
          split at htype
          · rename_i hbool
            cases htype
            have hkeepsBody : body.keepsTypes ((binder, element) :: scope) = true := by
              simpa [hrange, Except.bind, helement, Except.toOption] using hkeeps.2
            rw [eval]
            cases hvalue : eval env range with
            | error e => rwa [hvalue] at hlands
            | ok v =>
              rw [hvalue] at hlands
              rcases elementType_eq_ok helement with rfl | rfl
              · obtain ⟨items, rfl, hitems⟩ := Value.HasType.exists_list hlands
                refine q.join_lands hbool fun r hr => ?_
                obtain ⟨v, hv, rfl⟩ := List.mem_map.mp hr
                exact infer_lands hbody hplain.2 hkeepsBody (hfits.bind binder (hitems v hv))
              · cases hlands
          · cases htype

theorem inferAll_lands : ∀ {es : List Expr} {scope : Scope} {env : Env} {ts : List Ty},
    inferAll scope es = .ok ts → Expr.allPlain es = true → Expr.keepsAll scope es = true →
    env.Fits scope → LandAll (evalAll env es) ts
  | [], scope, env, ts, htype, hplain, hkeeps, hfits => by
    rw [inferAll] at htype
    cases htype
    rw [evalAll]
    exact .nil
  | e :: es, scope, env, ts, htype, hplain, hkeeps, hfits => by
    rw [inferAll] at htype
    rw [Expr.keepsAll, Bool.and_eq_true] at hkeeps
    rw [Expr.allPlain, Bool.and_eq_true] at hplain
    split at htype
    · cases htype
    · rename_i t ht
      obtain ⟨types, htypes, rfl⟩ := map_eq_ok.mp htype
      rw [evalAll]
      exact .cons (infer_lands ht hplain.1 hkeeps.1 hfits)
        (inferAll_lands htypes hplain.2 hkeeps.2 hfits)

/-- The items of a list land in the type that is kept, which is above that of the items before. -/
theorem inferItems_lands : ∀ {es : List Expr} {scope : Scope} {env : Env} {element t : Ty},
    inferItems scope element es = .ok t → Expr.allPlain es = true →
    Expr.keepsItems scope element es = true → env.Fits scope →
    element.le t = true ∧ ∀ r ∈ evalAll env es, Lands r t
  | [], scope, env, element, t, htype, hplain, hkeeps, hfits => by
    rw [inferItems] at htype
    cases htype
    rw [evalAll]
    exact ⟨element.le_refl, by simp⟩
  | e :: es, scope, env, element, t, htype, hplain, hkeeps, hfits => by
    rw [inferItems] at htype
    rw [Expr.keepsItems, Bool.and_eq_true] at hkeeps
    rw [Expr.allPlain, Bool.and_eq_true] at hplain
    split at htype
    · cases htype
    · rename_i first hfirst
      have hlands := infer_lands hfirst hplain.1 hkeeps.1 hfits
      rw [hfirst] at hkeeps
      simp only [Except.toOption, Option.all_some] at hkeeps
      rw [evalAll]
      split at htype
      · rename_i hany
        rw [if_pos hany] at hkeeps
        obtain ⟨hle, hrest⟩ := inferItems_lands htype hplain.2 hkeeps.2 hfits
        rw [hany]
        exact ⟨t.any_le, List.forall_mem_cons.mpr ⟨hlands.of_le hle, hrest⟩⟩
      · rename_i hany
        rw [if_neg hany, Bool.and_eq_true] at hkeeps
        split at htype
        · obtain ⟨hle, hrest⟩ := inferItems_lands htype hplain.2 hkeeps.2.2 hfits
          exact ⟨hle, List.forall_mem_cons.mpr ⟨(hlands.of_le hkeeps.2.1).of_le hle, hrest⟩⟩
        · cases htype

end

/-! ### Compiled filters -/

theorem infer_of_checkFilter {e : Expr} (h : checkFilter e = .ok ()) : infer [] e = .ok .bool := by
  rw [checkFilter] at h
  split at h
  · cases h
  · rename_i htype
    exact htype
  · cases h

theorem checked_eq_ok {source kept : String} {e : Expr}
    (h : compile source = .ok (.checked kept e)) :
    expression source = .ok e ∧ checkFilter e = .ok () := by
  rw [compile] at h
  split at h
  · cases h
  · split at h
    · cases h
    · rename_i hread
      split at h
      · cases h
      · rename_i hcheck
        cases h
        exact ⟨hread, hcheck⟩

/-- **A compiled filter that keeps its types** has a truth value for every memo at every time, or
overflows, or divides by zero. It never meets a mismatch of kinds or a variable without a value. -/
theorem checked_lands {source kept : String} {e : Expr}
    (h : compile source = .ok (.checked kept e)) (hkeeps : e.keepsTypes [] = true) (m : Memo)
    (now : Int) :
    (∃ b, eval ⟨m, now, []⟩ e = .ok (.bool b)) ∨ eval ⟨m, now, []⟩ e = .error .overflow
      ∨ eval ⟨m, now, []⟩ e = .error .divisionByZero := by
  obtain ⟨hread, hcheck⟩ := checked_eq_ok h
  have hlands : Lands (eval ⟨m, now, []⟩ e) .bool :=
    infer_lands (infer_of_checkFilter hcheck) (isPlain_of_expression hread) hkeeps .nil
  cases hvalue : eval ⟨m, now, []⟩ e with
  | ok v =>
    rw [hvalue] at hlands
    obtain ⟨b, rfl⟩ := Value.HasType.exists_bool hlands
    exact .inl ⟨b, rfl⟩
  | error failure =>
    rw [hvalue] at hlands
    cases failure with
    | overflow => exact .inr (.inl rfl)
    | divisionByZero => exact .inr (.inr rfl)
    | noOverload | unbound => cases hlands

/-- The expression of a filter that is not satisfied by everything. -/
def Compiled.expr? : Compiled → Option Expr
  | .everything => none
  | .checked _ e => some e

/-- A test that the expression of a filter text passes, where the text compiles. -/
theorem exists_checked {source : String} {test : Expr → Bool}
    (h : (compile source).toOption.any (fun f => f.expr?.any test) = true) :
    ∃ e, compile source = .ok (.checked source e) ∧ test e = true := by
  rw [compile] at h ⊢
  split at h
  · cases h
  · rename_i hblank
    rw [if_neg hblank]
    split at h
    · cases h
    · rename_i e hread
      split at h
      · cases h
      · rename_i hcheck
        exact ⟨e, rfl, h⟩

/-- A sum of lists and a quotient: the types are kept, and this filter divides by zero. -/
theorem checked_lands_sums :
    let source := "tags.exists(t, t in [\"a\"] + []) || creator_id / 0 == 1"
    ∃ e, compile source = .ok (.checked source e) ∧ e.keepsTypes [] = true
      ∧ ((∃ b, eval ⟨plannedMemo, 0, []⟩ e = .ok (.bool b))
        ∨ eval ⟨plannedMemo, 0, []⟩ e = .error .overflow
        ∨ eval ⟨plannedMemo, 0, []⟩ e = .error .divisionByZero) := by
  intro source
  have htest : (compile source).toOption.any (fun f => f.expr?.any (·.keepsTypes [])) = true := by
    decide +kernel
  obtain ⟨e, hcompile, hkeeps⟩ := exists_checked htest
  exact ⟨e, hcompile, hkeeps, checked_lands hcompile hkeeps plannedMemo 0⟩

/-- The elements of a sum that starts with an empty list are taken for elements of an empty list,
and a text passes for a truth value. -/
theorem compile_overlooks_mismatch :
    let source := "([] + [\"a\"]).exists(t, t)"
    ∃ e, compile source = .ok (.checked source e)
      ∧ eval ⟨plannedMemo, 0, []⟩ e = .error (.noOverload "comprehension") := by
  intro source
  have htest : (compile source).toOption.any (fun f => f.expr?.any fun e =>
      decide (eval ⟨plannedMemo, 0, []⟩ e = .error (.noOverload "comprehension"))) = true := by
    decide +kernel
  obtain ⟨e, hcompile, hvalue⟩ := exists_checked htest
  exact ⟨e, hcompile, of_decide_eq_true hvalue⟩

end SharedMemos.Filter
