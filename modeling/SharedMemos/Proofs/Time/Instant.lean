import SharedMemos.Time.Timestamp
import Mathlib.Order.Basic
import Mathlib.Tactic.Common

/-!
# The order of instants

Instants are ordered by their microseconds. A written time can be finer than an instant, and what it
has below a microsecond is dropped when it is read; an instant that is written is read as itself.

## Main results

* `Instant.earlier_window` — windows whose start may be after their end
* `Timestamp.toInstant_ofInstant` — an instant is written and read
-/

namespace SharedMemos

namespace Instant

theorem lt_iff {a b : Instant} : a < b ↔ a.micros < b.micros := Iff.rfl

theorem eq_iff {a b : Instant} : a = b ↔ a.micros = b.micros := by
  cases a
  cases b
  rw [Instant.mk.injEq]

instance : LinearOrder Instant where
  le_refl a := Int.le_refl a.micros
  le_trans _ _ _ hab hbc := Int.le_trans hab hbc
  lt_iff_le_not_ge _ _ := Int.lt_iff_le_and_not_ge
  le_antisymm _ _ hab hba := eq_iff.mpr (Int.le_antisymm hab hba)
  le_total a b := Int.le_total a.micros b.micros
  toDecidableLE := inferInstance

/-- A window that would start after its end is empty either way. -/
theorem earlier_window {since upTo t : Instant} :
    since.earlier upTo < t ∧ t ≤ upTo ↔ since < t ∧ t ≤ upTo := by
  rw [earlier]
  split
  · rename_i hlate
    constructor
    · rintro ⟨hafter, hupTo⟩
      exact absurd hupTo (not_le.mpr hafter)
    · rintro ⟨hafter, hupTo⟩
      exact absurd hupTo (not_le.mpr (hlate.trans hafter))
  · rfl

end Instant

theorem Timestamp.toInstant_ofInstant (t : Instant) : (ofInstant t).toInstant = t := by
  obtain ⟨micros⟩ := t
  rw [ofInstant, toInstant, Instant.seconds, Instant.mk.injEq]
  simp only
  rw [Int.fdiv_eq_ediv_of_nonneg _ (by decide), Nat.mul_div_cancel _ (by decide)]
  omega

end SharedMemos
