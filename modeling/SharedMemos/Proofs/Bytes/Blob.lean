import SharedMemos.Bytes.Blob
import Mathlib.Tactic.Common

/-!
# What the operations on contents do

Contents are kept as bytes and a number of zeros. Each operation is described here on the list of
all bytes, in which the two are not told apart; nothing after this looks at how contents are kept.

## Main results

* `Blob.toList_write` — writing within contents replaces a piece of them
* `Blob.data_bytes` — the bytes as an array are the bytes
-/

namespace SharedMemos.Blob

theorem length_head (b : ByteArray) : b.data.toList.length = b.size := rfl

@[simp] theorem length_toList (b : Blob) : b.toList.length = b.size := by
  rw [toList, List.length_append, length_head, List.length_replicate, size]

@[simp] theorem toList_ofBytes (bytes : ByteArray) : (ofBytes bytes).toList = bytes.data.toList :=
  List.append_nil _

@[simp] theorem size_ofZeros (n : Nat) : (ofZeros n).size = n := Nat.zero_add n

theorem toList_head_extract (b : ByteArray) (first last : Nat) :
    (b.extract first last).data.toList = (b.data.toList.drop first).take (last - first) := by
  rw [ByteArray.data_extract, Array.toList_extract]

@[simp] theorem toList_take (b : Blob) (n : Nat) : (b.take n).toList = b.toList.take n := by
  rw [take]
  split
  · rename_i h
    show (b.head.extract 0 n).data.toList ++ _ = (b.head.data.toList ++ _).take n
    rw [toList_head_extract, List.take_append_of_le_length h]
    simp
  · rename_i h
    show b.head.data.toList ++ _ = (b.head.data.toList ++ _).take n
    rw [List.take_append, length_head, List.take_replicate, Nat.min_comm,
      List.take_of_length_le (by rw [length_head]; omega)]

@[simp] theorem toList_drop (b : Blob) (n : Nat) : (b.drop n).toList = b.toList.drop n := by
  rw [drop]
  split
  · rename_i h
    show (b.head.extract n b.head.size).data.toList ++ _ = (b.head.data.toList ++ _).drop n
    have hall : (b.head.data.toList.drop n).length = b.head.size - n := by
      rw [List.length_drop, length_head]
    rw [toList_head_extract, List.drop_append_of_le_length h,
      List.take_of_length_le (Nat.le_of_eq hall)]
  · rename_i h
    show ([] : List UInt8) ++ _ = (b.head.data.toList ++ _).drop n
    rw [List.drop_append, length_head, List.drop_replicate,
      List.drop_eq_nil_of_le (by rw [length_head]; omega)]

/-- The bytes as an array are the bytes. -/
@[simp] theorem data_bytes (b : Blob) : b.bytes.data.toList = b.toList := by
  rw [bytes, toList]
  split
  · rename_i h
    rw [h, List.replicate_zero, List.append_nil]
  · rw [ByteArray.data_append, Array.toList_append, Array.toList_replicate]

@[simp] theorem toList_append (a b : Blob) : (a.append b).toList = a.toList ++ b.toList := by
  rw [append]
  split
  · rename_i h
    have hempty : b.head.data.toList = [] :=
      List.eq_nil_of_length_eq_zero (beq_iff_eq.mp h)
    simp only [toList, hempty, List.nil_append, List.append_assoc, List.replicate_append_replicate]
  · show (a.bytes ++ b.head).data.toList ++ _ = _
    rw [ByteArray.data_append, Array.toList_append, data_bytes, List.append_assoc]
    rfl

theorem toList_resize_of_le {b : Blob} {n : Nat} (h : n ≤ b.size) :
    (b.resize n).toList = b.toList.take n := by
  rw [resize, if_pos h, toList_take]

/-- **Writing within contents replaces a piece of them.** -/
theorem toList_write {b : Blob} {offset : Nat} (bytes : ByteArray) (h : offset ≤ b.size) :
    (b.write offset bytes).toList
      = b.toList.take offset ++ bytes.data.toList ++ b.toList.drop (offset + bytes.size) := by
  have hresize : (b.resize (max b.size offset)).toList = b.toList := by
    rw [Nat.max_eq_left h, toList_resize_of_le (Nat.le_refl _), ← length_toList, List.take_length]
  rw [write, toList_append, toList_append, toList_take, toList_drop, toList_ofBytes, hresize,
    List.append_assoc]

theorem size_take (b : Blob) (n : Nat) : (b.take n).size = min n b.size := by
  rw [← length_toList, toList_take, List.length_take, length_toList]

/-- Contents are not made longer by writing within them. -/
theorem size_write {b : Blob} {offset : Nat} {bytes : ByteArray}
    (h : offset + bytes.size ≤ b.size) : (b.write offset bytes).size = b.size := by
  rw [← length_toList, toList_write bytes (by omega)]
  simp only [List.length_append, List.length_take, List.length_drop, length_toList, length_head]
  omega

end SharedMemos.Blob
