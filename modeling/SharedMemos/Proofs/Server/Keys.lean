import SharedMemos.Proofs.Attachment.Filename
import SharedMemos.Proofs.Server.Objects
import SharedMemos.Proofs.Text.Numeral

/-!
# Keys that the server gives out

The server makes a storage key of every name that it draws for one. As long as the names do not come
again, a key that it makes is different from all keys before, whether anything is stored there yet
or not. Different keys are apart in both kinds of store, and so are the keys of their thumbnails.

Drawing is counted: the names of a run are those from the first draw up to the next. Nothing is
asked of names that are drawn later, since only so many can be different.

## Main results

* `Filename.IsKey.apart`, `Filename.IsKey.apart_thumbnail`, `Filename.IsKey.thumbnail_apart`,
  `Filename.IsKey.thumbnails_apart` — keys and keys of thumbnails do not touch each other
* `Source.NeverRepeats.isNew` — a key is not one of those before
-/

namespace SharedMemos

open SharedMemos.Storage

/-! ### Keys that are apart -/

namespace Filename

open SharedMemos.Server

variable {key other : String}

theorem IsFile.apart {name name' : String} (h : IsFile name) (h' : IsFile name')
    (hne : name ≠ name') (kind : Kind) :
    Apart kind ("attachments" ++ "/" ++ name) ("attachments" ++ "/" ++ name') := by
  cases kind with
  | disk => exact Disk.apart_of_names (by decide) h h' hne
  | bucket =>
    intro hsame
    have hlist := congrArg String.toList hsame
    simp only [String.toList_append] at hlist
    exact hne (String.toList_injective (List.append_cancel_left hlist)).symm

/-- **Different keys are apart.** -/
theorem IsKey.apart (h : IsKey key) (h' : IsKey other) (hne : key ≠ other) (kind : Kind) :
    Apart kind key other := by
  obtain ⟨name, rfl, hfile, -⟩ := h.exists_name
  obtain ⟨name', rfl, hfile', -⟩ := h'.exists_name
  exact hfile.apart hfile' (fun hsame => hne (by rw [hsame])) kind

/-- A key is apart from the key of any thumbnail. -/
theorem IsKey.apart_thumbnail (h : IsKey key) (h' : IsKey other) (kind : Kind) :
    Apart kind key (thumbnailKey other) := by
  obtain ⟨name, rfl, hfile, hpoints⟩ := h.exists_name
  obtain ⟨name', hname', hfile', hpoints'⟩ := h'.exists_thumbnail_name
  rw [hname']
  refine hfile.apart hfile' ?_ kind
  rintro rfl
  omega

/-- The key of a thumbnail is apart from any key. -/
theorem IsKey.thumbnail_apart (h : IsKey key) (h' : IsKey other) (kind : Kind) :
    Apart kind (thumbnailKey key) other := by
  obtain ⟨name, hname, hfile, hpoints⟩ := h.exists_thumbnail_name
  obtain ⟨name', rfl, hfile', hpoints'⟩ := h'.exists_name
  rw [hname]
  refine hfile.apart hfile' ?_ kind
  rintro rfl
  omega

theorem thumbnailKey_injective (h : thumbnailKey key = thumbnailKey other) : key = other := by
  have hlist := congrArg String.toList h
  rw [thumbnailKey, thumbnailKey, String.toList_append, String.toList_append] at hlist
  exact String.toList_injective (List.append_cancel_right hlist)

/-- The thumbnails of different keys are apart. -/
theorem IsKey.thumbnails_apart (h : IsKey key) (h' : IsKey other) (hne : key ≠ other)
    (kind : Kind) : Apart kind (thumbnailKey key) (thumbnailKey other) := by
  have hneither : thumbnailKey key ≠ thumbnailKey other :=
    fun hsame => hne (thumbnailKey_injective hsame)
  obtain ⟨name, hname, hfile, -⟩ := h.exists_thumbnail_name
  obtain ⟨name', hname', hfile', -⟩ := h'.exists_thumbnail_name
  rw [hname, hname'] at hneither ⊢
  exact hfile.apart hfile' (fun hsame => hneither (by rw [hsame])) kind

end Filename

/-! ### Keys of drawn names -/

namespace Server.Source

variable {source : Source} {first next last i : Nat} {key : String}

/-- The name for a storage key that comes with a draw. -/
def keyName (source : Source) (draw : Nat) : String :=
  source.name draw Limit.keyLength

/-- The names for storage keys from the first draw up to the last can be drawn, and no two of them
are the same. -/
structure NeverRepeats (source : Source) (first last : Nat) : Prop where
  isDrawn : ∀ i, first ≤ i → i < last → Filename.IsDrawn (source.keyName i)
  ne : ∀ i j, first ≤ i → i < j → j < last → source.keyName i ≠ source.keyName j

/-- The key was made of one of the names from the first draw up to the next. -/
def Issued (source : Source) (first next : Nat) (key : String) : Prop :=
  ∃ i name, first ≤ i ∧ i < next ∧ Filename.IsDrawn (source.keyName i)
    ∧ key = Filename.storageKey (source.keyName i) name

theorem Issued.isKey (h : source.Issued first next key) : Filename.IsKey key := by
  obtain ⟨i, name, -, -, hdrawn, hkey⟩ := h
  exact ⟨_, name, hdrawn, hkey⟩

theorem Issued.mono (h : source.Issued first next key) (hle : next ≤ last) :
    source.Issued first last key := by
  obtain ⟨i, name, hfirst, hi, hdrawn, hkey⟩ := h
  exact ⟨i, name, hfirst, by omega, hdrawn, hkey⟩

/-- A key that is made of a name is given out. -/
theorem NeverRepeats.issued (h : source.NeverRepeats first last) (hfirst : first ≤ i)
    (hi : i < last) (name : String) :
    source.Issued first (i + 1) (Filename.storageKey (source.keyName i) name) :=
  ⟨i, name, hfirst, Nat.lt_succ_self i, h.isDrawn i hfirst hi, rfl⟩

/-- **A key is not one of those before.** -/
theorem NeverRepeats.isNew (h : source.NeverRepeats first last) (hfirst : first ≤ i) (hi : i < last)
    (name : String) : ¬ source.Issued first i (Filename.storageKey (source.keyName i) name) := by
  rintro ⟨j, name', hfirst', hj, hdrawn, hkey⟩
  refine h.ne j i hfirst' hj hi ?_
  exact (Filename.storageKey_injective (h.isDrawn i hfirst hi) hdrawn hkey).symm

end Server.Source

/-- Names that count up do not come again. -/
theorem Server.numberedServer_neverRepeats (first last : Nat) :
    Server.numberedServer.source.NeverRepeats first last where
  isDrawn i _ _ := by
    refine ⟨Text.showPadded_ne_empty _ i, fun c hc => ?_⟩
    have hdigit := Text.isDigit_of_mem_showPadded hc
    rw [Text.isAsciiAlphanumeric, hdigit, Bool.or_true]
  ne i j _ hij _ hsame := by
    have heq : i = j := Text.showPadded_injective hsame
    omega

end SharedMemos
