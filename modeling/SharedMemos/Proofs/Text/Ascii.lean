import SharedMemos.Text.CharSet
import Mathlib.Tactic.Common

/-!
# ASCII text and its size

How long a text is depends on what is counted. Characters are what the library works with, and bytes
of UTF-8 are what offsets and the names of files are measured in. Where all characters are ASCII the
two are the same.

## Main definitions

* `byteSize` — how many bytes characters take

## Main results

* `byteSize_of_ascii` — ASCII characters take one byte each
* `isAsciiAlphanumeric_bounds`, `isAsciiAlphanumeric_toLower` — letters and digits
-/

namespace SharedMemos.Text

variable {c : Char} {cs ds : List Char}

/-! ### Bytes -/

/-- How many bytes of UTF-8 the characters take. -/
def byteSize (cs : List Char) : Nat :=
  (String.ofList cs).utf8ByteSize

@[simp] theorem byteSize_nil : byteSize [] = 0 := rfl

@[simp] theorem byteSize_append (cs ds : List Char) :
    byteSize (cs ++ ds) = byteSize cs + byteSize ds := by
  rw [byteSize, String.ofList_append, String.utf8ByteSize_append, byteSize, byteSize]

@[simp] theorem byteSize_cons (c : Char) (cs : List Char) :
    byteSize (c :: cs) = c.utf8Size + byteSize cs := by
  have hone : byteSize [c] = c.utf8Size := by
    rw [byteSize, ← String.singleton_eq_ofList, String.utf8ByteSize_singleton]
  rw [← List.singleton_append, byteSize_append, hone]

theorem byteSize_toList (s : String) : byteSize s.toList = s.utf8ByteSize := by
  rw [byteSize, String.ofList_toList]

/-- ASCII characters take one byte each. -/
theorem byteSize_of_ascii (h : ∀ c ∈ cs, c.toNat ≤ 127) : byteSize cs = cs.length := by
  induction cs with
  | nil => rfl
  | cons c cs ih =>
    obtain ⟨hc, hcs⟩ := List.forall_mem_cons.mp h
    have hone : c.utf8Size = 1 := by
      rw [Char.utf8Size_eq_one_iff, UInt32.le_iff_toNat_le]
      exact hc
    rw [byteSize_cons, hone, ih hcs, List.length_cons, Nat.add_comm]

/-! ### Letters and digits -/

theorem isAsciiAlphanumeric_bounds (h : isAsciiAlphanumeric c = true) :
    48 ≤ c.toNat ∧ c.toNat ≤ 122 := by
  rcases Bool.or_eq_true_iff.mp h with halpha | hdigit
  · rcases Bool.or_eq_true_iff.mp halpha with hupper | hlower
    · have hrange : 65 ≤ c.toNat ∧ c.toNat ≤ 90 := of_decide_eq_true hupper
      omega
    · have hrange : 97 ≤ c.toNat ∧ c.toNat ≤ 122 :=
        (Bool.and_eq_true_iff.mp hlower).imp of_decide_eq_true of_decide_eq_true
      omega
  · have hrange : 48 ≤ c.toNat ∧ c.toNat ≤ 57 :=
      (Bool.and_eq_true_iff.mp hdigit).imp of_decide_eq_true of_decide_eq_true
    omega

/-- Lower case leaves a character as it is or gives a letter. -/
theorem toLower_cases (c : Char) : c.toLower = c ∨ c.toLower.isLower = true := by
  delta Char.toLower
  split
  · rename_i hupper
    have hlow : 65 ≤ c.val.toNat := hupper.1
    have hhigh : c.val.toNat ≤ 90 := hupper.2
    have hsum : (c.val + 32).toNat = c.val.toNat + 32 := by
      rw [UInt32.toNat_add]
      exact Nat.mod_eq_of_lt (show c.val.toNat + 32 < 4294967296 by omega)
    refine .inr (Bool.and_eq_true_iff.mpr ⟨decide_eq_true ?_, decide_eq_true ?_⟩)
    · show (97 : Nat) ≤ (c.val + 32).toNat
      omega
    · show (c.val + 32).toNat ≤ 122
      omega
  · exact .inl rfl

theorem isAsciiAlphanumeric_toLower (h : isAsciiAlphanumeric c = true) :
    isAsciiAlphanumeric c.toLower = true := by
  rcases toLower_cases c with hsame | hlower
  · rw [hsame, h]
  · exact Bool.or_eq_true_iff.mpr (.inl (Bool.or_eq_true_iff.mpr (.inr hlower)))

end SharedMemos.Text
