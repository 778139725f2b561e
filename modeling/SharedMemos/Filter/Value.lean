import SharedMemos.Text.Numeral
import SharedMemos.Text.Quoted

/-!
# Values of the filter language

Truth values, integers, texts and lists. Equality is structural and defined across kinds: values of
two kinds differ.
-/

namespace SharedMemos.Filter

open SharedMemos.Text

/-- A value of the filter language. -/
inductive Value where
  | bool (value : Bool)
  | int (value : Int)
  | string (value : String)
  | list (items : List Value)
deriving Repr, Inhabited

namespace Value

mutual

/-- Are two values equal? -/
def same : Value → Value → Bool
  | .bool a, .bool b => a == b
  | .int a, .int b => a == b
  | .string a, .string b => a == b
  | .list as, .list bs => sameAll as bs
  | _, _ => false

/-- Are two lists of values equal, item by item? -/
def sameAll : List Value → List Value → Bool
  | [], [] => true
  | a :: as, b :: bs => same a b && sameAll as bs
  | _, _ => false

end

mutual

theorem eq_of_same : ∀ {a b : Value}, same a b = true → a = b
  | .bool a, b, h => by cases b <;> simp_all [same]
  | .int a, b, h => by cases b <;> simp_all [same]
  | .string a, b, h => by cases b <;> simp_all [same]
  | .list as, b, h => by
    cases b with
    | list bs => rw [same] at h; rw [eq_of_sameAll h]
    | _ => simp [same] at h

theorem eq_of_sameAll : ∀ {as bs : List Value}, sameAll as bs = true → as = bs
  | [], bs, h => by cases bs <;> simp_all [sameAll]
  | a :: as, bs, h => by
    cases bs with
    | nil => simp [sameAll] at h
    | cons b bs =>
      rw [sameAll, Bool.and_eq_true] at h
      rw [eq_of_same h.1, eq_of_sameAll h.2]

end

mutual

theorem same_refl : ∀ a : Value, same a a = true
  | .bool a => by simp [same]
  | .int a => by simp [same]
  | .string a => by simp [same]
  | .list as => by rw [same]; exact sameAll_refl as

theorem sameAll_refl : ∀ as : List Value, sameAll as as = true
  | [] => by simp [sameAll]
  | a :: as => by rw [sameAll, same_refl a, sameAll_refl as]; rfl

end

/-- Structural equality is decided by `same`. -/
theorem same_iff {a b : Value} : same a b = true ↔ a = b :=
  ⟨eq_of_same, fun h => h ▸ same_refl a⟩

instance : DecidableEq Value := fun _ _ =>
  decidable_of_iff _ same_iff

mutual

/-- The text of a value: texts are quoted, the items of a list stand in square brackets. -/
def print : Value → String
  | .bool b => if b then "true" else "false"
  | .int n => showInt n
  | .string s => quoted s
  | .list items => "[" ++ printItems items ++ "]"

/-- The texts of values, separated by commas. -/
def printItems : List Value → String
  | [] => ""
  | [v] => v.print
  | v :: vs => v.print ++ ", " ++ printItems vs

end

end Value

end SharedMemos.Filter
