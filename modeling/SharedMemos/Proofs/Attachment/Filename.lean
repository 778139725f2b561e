import SharedMemos.Attachment.Filename
import SharedMemos.Proofs.Storage.Disk
import SharedMemos.Proofs.Text.Ascii

/-!
# The shape of storage keys

A storage key is made of a drawn name and the extension of a file. Since the name consists of
letters and digits, and an extension has no point but the one it starts with, the name can be read
off the key, and a key that a mark has been put behind is no storage key: it has one point too many.

All keys are files of one directory. Their names have no slash of their own and are not idle, and so
different keys are different paths (`Disk.apart_of_names`).

## Main definitions

* `Filename.IsDrawn` — names that can be drawn
* `Filename.IsKey` — keys made of such a name
* `Filename.IsFile` — names of files in the directory of the keys

## Main results

* `Filename.storageKey_injective` — a key tells the name it was made of
* `Filename.IsKey.exists_name`, `Filename.IsKey.exists_thumbnail_name` — keys have one point at
  most, and those of thumbnails have two at least
-/

namespace SharedMemos

open SharedMemos.Text SharedMemos.Storage

/-! ### Names in one directory -/

/-- The name of a file in a directory: it goes no further down, and it is not passed over. -/
structure Filename.IsFile (name : String) : Prop where
  not_mem : '/' ∉ name.toList
  isIdle : Path.isIdle name = false

theorem Filename.IsFile.splitOnChar_eq {directory name : String}
    (hdirectory : '/' ∉ directory.toList) (hname : Filename.IsFile name) :
    splitOnChar '/' (directory ++ "/" ++ name) = [directory, name] := by
  have hlist : (directory ++ "/" ++ name).toList = directory.toList ++ '/' :: name.toList := by
    simp [String.toList_append]
  rw [splitOnChar, hlist, splitAt_append_sep hdirectory, splitAt_of_not_mem hname.not_mem]
  simp

/-- Different names in one directory are different paths. -/
theorem Storage.Disk.apart_of_names {directory name other : String}
    (hdirectory : '/' ∉ directory.toList) (hname : Filename.IsFile name)
    (hother : Filename.IsFile other) (hne : name ≠ other) :
    Disk.Apart (directory ++ "/" ++ name) (directory ++ "/" ++ other) := by
  intro p q hp hq hnames
  have hp' := (Path.names_of_ofKey hp).1
  have hq' := (Path.names_of_ofKey hq).1
  rw [hname.splitOnChar_eq hdirectory] at hp'
  rw [hother.splitOnChar_eq hdirectory] at hq'
  rw [hp', hq'] at hnames
  cases hidle : Path.isIdle directory <;>
    simp [hname.isIdle, hother.isIdle, hidle] at hnames <;> exact hne hnames

/-- A file in a directory lies right below it. -/
theorem Storage.Path.parents_of_isFile {directory name : String} {p : Path}
    (hdirectory : '/' ∉ directory.toList) (hname : Filename.IsFile name)
    (hp : Path.ofKey (directory ++ "/" ++ name) = .ok p) :
    p.parents = [directory].filter (!isIdle ·) := by
  have hlast : [name].filter (!isIdle ·) = [name] := by
    rw [List.filter_singleton, hname.isIdle]
    rfl
  have hnames := (names_of_ofKey hp).1
  rw [hname.splitOnChar_eq hdirectory, names, ← List.singleton_append (l := [name]),
    List.filter_append, hlast] at hnames
  exact (List.append_inj' hnames rfl).1

namespace Filename

/-! ### Characters of keys -/

theorem ne_of_isAsciiAlphanumeric {c d : Char} (hc : isAsciiAlphanumeric c = true)
    (hd : isAsciiAlphanumeric d = false) : c ≠ d := by
  rintro rfl
  rw [hc] at hd
  cases hd

/-- An extension is empty, or a point with a few letters and digits behind it. -/
theorem extension_cases (name : String) : (extension name).toList = []
    ∨ ∃ ending, (extension name).toList = '.' :: ending ∧ ending.length ≤ 10
      ∧ ∀ c ∈ ending, isAsciiAlphanumeric c = true := by
  rw [extension]
  split
  · split
    · rename_i stem ending _ hending
      refine .inr ⟨ending.map Char.toLower, ?_, ?_, fun c hc => ?_⟩
      · rw [asciiLower, String.toList_ofList, String.toList_ofList]
        rfl
      · rw [List.length_map]
        exact hending.2.2.1
      · obtain ⟨d, hd, rfl⟩ := List.mem_map.mp hc
        exact isAsciiAlphanumeric_toLower (List.all_eq_true.mp hending.2.2.2 d hd)
    · exact .inl rfl
  · exact .inl rfl

/-! ### Keys of drawn names -/

/-- A name that can be drawn: letters and digits, one at least. -/
structure IsDrawn (name : String) : Prop where
  ne_empty : name ≠ ""
  all : ∀ c ∈ name.toList, isAsciiAlphanumeric c = true

theorem IsDrawn.not_mem {name : String} {c : Char} (h : IsDrawn name)
    (hc : isAsciiAlphanumeric c = false) : c ∉ name.toList :=
  fun hmem => ne_of_isAsciiAlphanumeric (h.all c hmem) hc rfl

theorem toList_storageKey (random name : String) : (storageKey random name).toList
    = "attachments/".toList ++ (random.toList ++ (extension name).toList) := by
  rw [storageKey, String.toList_append, String.toList_append, List.append_assoc]

/-- What stands before the first point of a key's last name is the drawn name. -/
theorem takeWhile_drawn {random : String} (h : IsDrawn random) (name : String) :
    (random.toList ++ (extension name).toList).takeWhile (· != '.') = random.toList := by
  have hall : ∀ c ∈ random.toList, (c != '.') = true := by
    intro c hc
    exact bne_iff_ne.mpr (ne_of_isAsciiAlphanumeric (h.all c hc) (by decide))
  rw [List.takeWhile_append_of_pos hall]
  rcases extension_cases name with hempty | ⟨ending, hending, -⟩
  · rw [hempty, List.takeWhile_nil, List.append_nil]
  · rw [hending, List.takeWhile_cons_of_neg (by decide), List.append_nil]

/-- **A key tells the name that it was made of.** -/
theorem storageKey_injective {random random' name name' : String} (h : IsDrawn random)
    (h' : IsDrawn random') (hkey : storageKey random name = storageKey random' name') :
    random = random' := by
  have hlist := congrArg String.toList hkey
  rw [toList_storageKey, toList_storageKey] at hlist
  have htail := List.append_cancel_left hlist
  have hdrawn := takeWhile_drawn h name
  rw [htail, takeWhile_drawn h' name'] at hdrawn
  exact String.toList_injective hdrawn.symm

/-- A key made of a name that can be drawn. -/
def IsKey (key : String) : Prop :=
  ∃ random name, IsDrawn random ∧ key = storageKey random name

/-- A drawn name with something behind it that starts no directory is the name of a file. -/
theorem IsDrawn.isFile_append {random rest : String} (h : IsDrawn random)
    (hrest : '/' ∉ rest.toList) : IsFile (random ++ rest) := by
  obtain ⟨c, cs, hcs⟩ : ∃ c cs, random.toList = c :: cs := by
    refine List.exists_cons_of_ne_nil fun hnil => h.ne_empty ?_
    exact String.toList_injective hnil
  refine ⟨?_, ?_⟩
  · rw [String.toList_append, List.mem_append]
    exact not_or.mpr ⟨h.not_mem (by decide), hrest⟩
  · have hc : isAsciiAlphanumeric c = true := h.all c (hcs ▸ List.mem_cons_self)
    have hlist : (random ++ rest).toList = c :: (cs ++ rest.toList) := by
      rw [String.toList_append, hcs, List.cons_append]
    refine Bool.or_eq_false_iff.mpr ⟨beq_eq_false_iff_ne.mpr ?_, beq_eq_false_iff_ne.mpr ?_⟩
    · intro hempty
      rw [hempty] at hlist
      cases hlist
    · intro hpoint
      rw [hpoint] at hlist
      exact ne_of_isAsciiAlphanumeric hc (by decide) (List.cons.inj hlist).1.symm

theorem not_mem_extension (name : String) : '/' ∉ (extension name).toList := by
  rcases extension_cases name with hempty | ⟨ending, hending, -, hall⟩
  · rw [hempty]
    exact List.not_mem_nil
  · rw [hending, List.mem_cons]
    refine not_or.mpr ⟨by decide, fun hslash => ?_⟩
    exact ne_of_isAsciiAlphanumeric (hall '/' hslash) (by decide) rfl

/-- An extension has one point at most. -/
theorem count_extension (name : String) : (extension name).toList.count '.' ≤ 1 := by
  rcases extension_cases name with hempty | ⟨ending, hending, -, hall⟩
  · rw [hempty]
    exact Nat.zero_le _
  · have hpoint : '.' ∉ ending := fun hpoint =>
      ne_of_isAsciiAlphanumeric (hall '.' hpoint) (by decide) rfl
    have hone : (extension name).toList.count '.' = 1 := by
      rw [hending, List.count_cons_self, List.count_eq_zero.mpr hpoint]
    exact Nat.le_of_eq hone

/-- **A key is the name of a file with one point at most.** -/
theorem IsKey.exists_name {key : String} (h : IsKey key) :
    ∃ name, key = "attachments" ++ "/" ++ name ∧ IsFile name ∧ name.toList.count '.' ≤ 1 := by
  obtain ⟨random, name, hrandom, rfl⟩ := h
  refine ⟨random ++ extension name, ?_, hrandom.isFile_append (not_mem_extension name), ?_⟩
  · rw [storageKey, String.append_assoc]
    rfl
  · have hzero : random.toList.count '.' = 0 :=
      List.count_eq_zero.mpr (hrandom.not_mem (by decide))
    rw [String.toList_append, List.count_append, hzero, Nat.zero_add]
    exact count_extension name

/-- **The key of a thumbnail is the name of a file with two points at least.** -/
theorem IsKey.exists_thumbnail_name {key : String} (h : IsKey key) :
    ∃ name, thumbnailKey key = "attachments" ++ "/" ++ name ∧ IsFile name
      ∧ 2 ≤ name.toList.count '.' := by
  obtain ⟨random, name, hrandom, rfl⟩ := h
  refine ⟨random ++ (extension name ++ Limit.thumbnailMark), ?_, hrandom.isFile_append ?_, ?_⟩
  · rw [thumbnailKey, storageKey, String.append_assoc, String.append_assoc]
    rfl
  · rw [String.toList_append, List.mem_append]
    exact not_or.mpr ⟨not_mem_extension name, by decide⟩
  · have hmark : Limit.thumbnailMark.toList.count '.' = 2 := by decide
    rw [String.toList_append, String.toList_append, List.count_append, List.count_append, hmark]
    omega

end Filename

end SharedMemos
