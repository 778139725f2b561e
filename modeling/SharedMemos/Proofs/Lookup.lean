import Mathlib.Data.List.Basic
import Mathlib.Tactic.Common

/-!
# Looking up rows

Tables, files, objects and scratch files are lists in which a row is found by a key. What is found
by one key does not change when rows with another key are taken out or put in front.
-/

namespace SharedMemos

variable {α κ : Type} [BEq κ] [LawfulBEq κ] {key : α → κ} {k k' : κ}

theorem find?_filter_of_ne (h : k' ≠ k) (rows : List α) :
    (rows.filter (key · != k)).find? (key · == k') = rows.find? (key · == k') := by
  induction rows with
  | nil => rfl
  | cons row rows ih =>
    by_cases hrow : key row = k
    · have hother : (key row == k') = false := by
        rw [hrow]
        exact beq_false_of_ne (Ne.symm h)
      rw [List.filter_cons_of_neg (by simp [hrow]), List.find?_cons, hother, ih]
    · rw [List.filter_cons_of_pos (by simpa using hrow), List.find?_cons, List.find?_cons, ih]

theorem find?_filter_self (rows : List α) :
    (rows.filter (key · != k)).find? (key · == k) = none := by
  rw [List.find?_eq_none]
  intro row hrow
  have hne : (key row != k) = true := (List.mem_filter.mp hrow).2
  simpa using hne

theorem find?_cons_self {ν : Type} (k : κ) (v : ν) (rows : List (κ × ν)) :
    ((k, v) :: rows).find? (·.1 == k) = some (k, v) := by
  rw [List.find?_cons, beq_self_eq_true]

theorem find?_cons_of_ne {ν : Type} (h : k' ≠ k) (v : ν) (rows : List (κ × ν)) :
    ((k, v) :: rows).find? (·.1 == k') = rows.find? (·.1 == k') := by
  rw [List.find?_cons, beq_false_of_ne (Ne.symm h)]

omit [LawfulBEq κ] in
/-- A change that keeps the keys is seen in the row that is found. -/
theorem find?_map_of_keeps {change : α → α} (h : ∀ row, key (change row) = key row)
    (rows : List α) :
    (rows.map change).find? (key · == k) = (rows.find? (key · == k)).map change := by
  rw [List.find?_map]
  congr 2
  funext row
  rw [Function.comp_apply, h]

/-- A row that is the only one with its key is found by it. -/
theorem find?_eq_some_of_only {rows : List α} {row : α} (hrow : row ∈ rows)
    (h : ∀ other ∈ rows, key other = key row → other = row) :
    rows.find? (key · == key row) = some row := by
  have hfound : (rows.find? (key · == key row)).isSome :=
    List.find?_isSome.mpr ⟨row, hrow, beq_self_eq_true (key row)⟩
  obtain ⟨found, hfound⟩ := Option.isSome_iff_exists.mp hfound
  rw [hfound, h found (List.mem_of_find?_eq_some hfound) (eq_of_beq (List.find?_some hfound :))]

/-- Where keys tell rows apart, the row that is found by a key is the row with the key. -/
theorem find?_eq_some_iff_of_nodup {rows : List α} (h : (rows.map key).Nodup) {row : α} :
    rows.find? (key · == k) = some row ↔ row ∈ rows ∧ key row = k := by
  induction rows with
  | nil => simp
  | cons first rows ih =>
    rw [List.map_cons, List.nodup_cons] at h
    rw [List.find?_cons, List.mem_cons]
    cases hfirst : key first == k with
    | true =>
      have hk : key first = k := eq_of_beq hfirst
      constructor
      · rintro ⟨⟩
        exact ⟨.inl rfl, hk⟩
      · rintro ⟨rfl | hrow, hkey⟩
        · rfl
        · exact absurd (List.mem_map.mpr ⟨row, hrow, hkey.trans hk.symm⟩) h.1
    | false =>
      rw [ih h.2]
      constructor
      · rintro ⟨hrow, hkey⟩
        exact ⟨.inr hrow, hkey⟩
      · rintro ⟨rfl | hrow, hkey⟩
        · rw [hkey, beq_self_eq_true] at hfirst
          cases hfirst
        · exact ⟨hrow, hkey⟩

/-- Where keys tell rows apart, a row with a key meets a condition if the one that is found does. -/
theorem any_find?_of_nodup {rows : List α} (h : (rows.map key).Nodup) (p : α → Bool) :
    (rows.find? (key · == k)).any p = rows.any fun row => key row == k && p row := by
  rw [Bool.eq_iff_iff, Option.any_eq_true, List.any_eq_true]
  constructor
  · rintro ⟨row, hfound, hp⟩
    obtain ⟨hrow, hkey⟩ := (find?_eq_some_iff_of_nodup h).mp hfound
    exact ⟨row, hrow, by rw [hkey, beq_self_eq_true, hp]; rfl⟩
  · rintro ⟨row, hrow, hboth⟩
    obtain ⟨hkey, hp⟩ := Bool.and_eq_true_iff.mp hboth
    exact ⟨row, (find?_eq_some_iff_of_nodup h).mpr ⟨hrow, eq_of_beq hkey⟩, hp⟩

/-- Tables that have the same rows of a sort give the same one of them by a key. -/
theorem filter_find?_congr {rows rows' : List α} {p : α → Bool} (h : (rows.map key).Nodup)
    (h' : (rows'.map key).Nodup) (hsame : ∀ row, p row = true → (row ∈ rows ↔ row ∈ rows')) :
    (rows.find? (key · == k)).filter p = (rows'.find? (key · == k)).filter p := by
  ext row
  simp only [Option.filter_eq_some_iff, find?_eq_some_iff_of_nodup h, find?_eq_some_iff_of_nodup h']
  constructor
  · rintro ⟨⟨hrow, hkey⟩, hp⟩
    exact ⟨⟨(hsame row hp).mp hrow, hkey⟩, hp⟩
  · rintro ⟨⟨hrow, hkey⟩, hp⟩
    exact ⟨⟨(hsame row hp).mpr hrow, hkey⟩, hp⟩

/-- Where repeated entries are dropped, each is left once. The induction is on the length, since
the entries dropped can be anywhere in the rest. -/
theorem nodup_eraseDups (ks : List κ) : ks.eraseDups.Nodup := by
  induction hlength : ks.length using Nat.strongRecOn generalizing ks with
  | ind n ih =>
    cases ks with
    | nil => exact List.nodup_nil
    | cons k ks =>
      rw [List.eraseDups_cons, List.nodup_cons, List.mem_eraseDups]
      refine ⟨?_, ih _ ?_ _ rfl⟩
      · intro hk
        simpa using (List.mem_filter.mp hk).2
      · rw [← hlength, List.length_cons]
        exact Nat.lt_succ_of_le (List.length_filter_le _ _)

end SharedMemos
