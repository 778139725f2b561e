import SharedMemos.Proofs.Bytes.Blob
import SharedMemos.Proofs.Storage.Temporary
import Mathlib.Data.Set.Basic
import Mathlib.Logic.Function.Basic

/-!
# The objects of a directory as a map

Keys are paths, and paths can be in each other's way: nothing can be stored below an object, and no
object where a directory is. Among plain keys none of which is on the way to another (`IsFlat`) this
does not come up.

A tree mirrors a map if there is a file for each key of the map and no other, behind a way, and if
all directories are on the way to a key (`Mirrors`). No directory is then in the place of an object
and no file on the way to one, so that each call on the directory finds, writes or removes what the
map has at the key.

## Main definitions

* `IsFlat` — sets of keys none of which is in the way of another
* `Mirrors` — the tree has the objects of the map

## Main results

* `IsPlain.exists_path` — a plain key is a path that an object can be written at
* `Mirrors.find_eq`, `Mirrors.commit_eq` — what is found and written at a key
* `Mirrors.writeFile`, `Mirrors.removeFile` — tree and map change at one key
* `Mirrors.put_eq`, `Mirrors.putStream_of_size`, `Mirrors.putStream_of_ne`, `Mirrors.open_eq`,
  `Mirrors.openRange_eq`, `Mirrors.delete_eq`, `Mirrors.exists?_eq` — the calls
-/

namespace SharedMemos.Storage

open SharedMemos.Text

/-! ### Keys -/

/-- The names between the slashes of a key. -/
def components (key : String) : List String :=
  splitOnChar '/' key

/-- A key all of whose names are plain: none is empty, a point or two points, none has a backslash
or a NUL in it, and none is too long, nor would be that of a temporary file. -/
structure IsPlain (key : String) : Prop where
  usable : ∀ name ∈ components key, name ≠ "" ∧ name ≠ "." ∧ name ≠ ".."
    ∧ '\\' ∉ name.toList ∧ '\x00' ∉ name.toList
  parents : ∀ name ∈ (components key).dropLast, name.utf8ByteSize ≤ 255
  last : ∀ name ∈ (components key).getLast?, name.utf8ByteSize ≤ 237

/-- Plain keys none of which is on the way to another. -/
structure IsFlat (keys : Set String) : Prop where
  plain : ∀ key ∈ keys, IsPlain key
  apart : ∀ key ∈ keys, ∀ other ∈ keys, components key <+: components other →
    components key = components other

variable {key other : String} {keys : Set String}

theorem components_ne_nil (key : String) : components key ≠ [] :=
  fun h => splitAt_ne_nil '/' key.toList (List.map_eq_nil_iff.mp h)

theorem not_isIdle (h : IsPlain key) : ∀ name ∈ components key, Path.isIdle name = false := by
  intro name hname
  obtain ⟨hempty, hpoint, -⟩ := h.usable name hname
  rw [Path.isIdle, Bool.or_eq_false_iff]
  exact ⟨beq_false_of_ne hempty, beq_false_of_ne hpoint⟩

/-- **A plain key is a path that an object can be written at**, with the names of the key. -/
theorem IsPlain.exists_path (h : IsPlain key) :
    ∃ p, Path.ofKey key = .ok p ∧ p.names = components key ∧ p.IsFit := by
  have hhead : ((components key).head?.map Path.isIdle).getD true = false := by
    cases hfirst : components key with
    | nil => exact absurd hfirst (components_ne_nil key)
    | cons name rest => exact not_isIdle h name (hfirst ▸ List.mem_cons_self)
  have hup : (components key).contains ".." = false := by
    rw [Bool.eq_false_iff, Ne, List.contains_iff_mem]
    exact fun hmem => (h.usable _ hmem).2.2.1 rfl
  have hback : key.toList.contains '\\' = false := by
    rw [Bool.eq_false_iff, Ne, List.contains_iff_mem]
    intro hmem
    have hslash : '\\' ≠ '/' := by decide
    obtain ⟨piece, hpiece, hc⟩ := exists_mem_splitAt hslash hmem
    refine (h.usable _ (List.mem_map_of_mem hpiece)).2.2.2.1 ?_
    rwa [String.toList_ofList]
  have hbusy : (components key).filter (fun name => !Path.isIdle name) = components key := by
    refine List.filter_eq_self.mpr fun name hname => ?_
    rw [not_isIdle h name hname]
    rfl
  have hsome : ∃ p, Path.ofKey? key = some p := by
    unfold Path.ofKey?
    show ∃ p, (if ((components key).head?.map Path.isIdle).getD true
      || (components key).contains ".." || key.toList.contains '\\' then none else _) = some p
    rw [hhead, hup, hback, if_neg (by decide)]
    split
    · rename_i hnone
      rw [List.reverse_eq_nil_iff] at hnone
      exact absurd (hbusy.symm.trans hnone) (components_ne_nil key)
    · exact ⟨_, rfl⟩
  obtain ⟨p, hp⟩ := hsome
  have hok : Path.ofKey key = .ok p := Path.ofKey_eq_ok_iff.mpr hp
  obtain ⟨hnames, hdirectory⟩ := Path.names_of_ofKey hok
  have hnames' : p.names = components key := hnames.trans hbusy
  have hparents : (components key).dropLast = p.parents := by
    rw [← hnames', Path.names, List.dropLast_concat]
  have hlast : (components key).getLast? = some p.name := by
    rw [← hnames', Path.names, List.getLast?_concat]
  refine ⟨p, hok, hnames', ?_, ?_, ?_, ?_⟩
  · rw [hnames', List.any_eq_false]
    intro name hname
    rw [Path.isVoid, List.contains_iff_mem]
    exact (h.usable name hname).2.2.2.2
  · intro name hname
    have hshort := h.parents name (hparents ▸ hname)
    rw [Tree.isLong, Tree.maxName, decide_eq_false_iff_not]
    omega
  · have hshort := h.last p.name hlast
    rw [Disk.temporaryMark, Tree.maxName]
    omega
  · have hend : (splitOnChar '/' key).getLast? = some p.name := hlast
    rw [hdirectory, hend, Option.map_some, Option.getD_some]
    exact not_isIdle h p.name (List.mem_of_getLast? hlast)

/-! ### A tree and a map -/

/-- A map from keys to bytes. -/
abbrev Objects := String → Option (List UInt8)

/-- The bytes at a key, or the complaint that there are none. -/
def Objects.find (m : Objects) (key : String) : Except Error (List UInt8) :=
  match m key with
  | some bytes => .ok bytes
  | none => .error (.notFound ("object " ++ key))

/-- The bytes from the first to the last, or to the end. -/
def slice (bytes : List UInt8) (first : Nat) : Option Nat → List UInt8
  | some last => (bytes.drop first).take (last - first + 1)
  | none => bytes.drop first

/-- **The tree has the objects of the map**, and directories only on the way to keys. -/
structure Mirrors (keys : Set String) (t : Tree) (m : Objects) : Prop where
  files : ∀ names content, t.file? names = some content → ∃ key ∈ keys, components key = names
  directories : ∀ names ∈ t.directories, ∃ key ∈ keys,
    names <+: components key ∧ names ≠ components key
  objects : ∀ key ∈ keys, (t.file? (components key)).map Blob.toList = m key
  ways : ∀ key ∈ keys, (m key).isSome → t.IsWay [] (components key).dropLast

theorem mirrors_empty (keys : Set String) : Mirrors keys {} fun _ => none where
  files _ _ h := nomatch h
  directories _ h := nomatch h
  objects _ _ := rfl
  ways _ _ h := nomatch h

theorem prefix_ne_of_dropLast {pre : List String} (h : pre <+: (components key).dropLast) :
    pre ≠ components key := by
  rintro rfl
  have hlength := h.length_le
  have hpos := List.length_pos_of_ne_nil (components_ne_nil key)
  rw [List.length_dropLast] at hlength
  omega

/-- A stream is read up to one byte more than declared, which tells whether it is as long. -/
theorem Disk.putStream_eq {t : Tree} {p : Path} {stream : Blob} {declared : Nat}
    (hp : Path.ofKey key = .ok p) (hbounded : declared ≤ maxInt64) :
    Disk.putStream t key stream declared
      = (Disk.commit t p (stream.take (declared + 1))
          (if stream.size = declared then none
            else some (Disk.sizeMismatch key declared (min stream.size (declared + 1))))).map
        (·.map fun _ => declared) id := by
  have hword : (declared + 1) % wordCount64 = declared + 1 := by
    rw [maxInt64] at hbounded
    exact Nat.mod_eq_of_lt (by rw [wordCount64]; omega)
  have hsize : (stream.take (declared + 1)).size = min stream.size (declared + 1) := by
    rw [Blob.size_take, Nat.min_comm]
  have hwanted : min stream.size (declared + 1) = declared ↔ stream.size = declared := by omega
  rw [Disk.putStream, hp]
  dsimp only
  rw [hword, hsize]
  simp only [hwanted]
  rfl

namespace Mirrors

variable {t : Tree} {m : Objects} {p : Path} {pre : List String}

/-- There is no file on the way to a key. -/
theorem file?_eq_none (h : Mirrors keys t m) (hflat : IsFlat keys) (hkey : key ∈ keys)
    (hpre : pre <+: components key) (hne : pre ≠ components key) : t.file? pre = none := by
  refine Option.eq_none_iff_forall_ne_some.mpr fun content hfile => ?_
  obtain ⟨other, hother, rfl⟩ := h.files _ _ hfile
  exact hne (hflat.apart other hother key hkey hpre)

/-- No directory is in the place of an object. -/
theorem not_directory (h : Mirrors keys t m) (hflat : IsFlat keys) (hkey : key ∈ keys) :
    components key ∉ t.directories := by
  intro hmem
  obtain ⟨other, hother, hpre, hne⟩ := h.directories _ hmem
  exact hne (hflat.apart key hkey other hother hpre)

/-- The bytes that are found at a key are those of the map. -/
theorem find_eq (h : Mirrors keys t m) (hflat : IsFlat keys) (hkey : key ∈ keys)
    (hnames : p.names = components key) (hfit : p.IsFit) :
    Disk.find t p
      = match t.file? (components key) with
        | some content => .file content
        | none => .missing := by
  have hplace : p.parents ++ [p.name] ∉ t.directories := by
    rw [← Path.names, hnames]
    exact h.not_directory hflat hkey
  rw [Disk.find, hfit.usable, if_neg Bool.false_ne_true]
  cases hfile : t.file? (components key) with
  | some content =>
    have hsome : (m key).isSome := by
      rw [← h.objects key hkey, hfile]
      rfl
    have hway : t.IsWay [] p.parents := by
      have hway := h.ways key hkey hsome
      rwa [← hnames, Path.names, List.dropLast_concat] at hway
    rw [← hnames] at hfile
    rw [Path.names] at hfile ⊢
    rw [Disk.entry_of_isWay hway hfit.isLong_name hplace, hfile]
    dsimp only
    rw [hfit.isFile, if_neg Bool.false_ne_true]
  | none =>
    have hmissing : t.entry p.names = .missing := by
      refine Tree.entryFrom_eq_missing p.names_ne_nil ?_ ?_ ?_
      · intro name hname
        rcases List.mem_append.mp hname with hname | hname
        · exact hfit.parents name hname
        · rw [List.mem_singleton.mp hname]
          exact hfit.isLong_name
      · intro pre _ hpre
        rw [List.nil_append]
        by_cases hwhole : pre = components key
        · rw [hwhole, hfile]
        · exact h.file?_eq_none hflat hkey (hnames ▸ hpre) hwhole
      · exact hplace
    rw [hmissing]

/-- Making the directories on the way to a key brings no object and loses none. -/
theorem make (h : Mirrors keys t m) (hkey : key ∈ keys) :
    Mirrors keys (t.make (components key).dropLast).2 m where
  files names content hfile := h.files names content (by rwa [Disk.file?_make] at hfile)
  directories names hmem := by
    rcases Tree.mem_makeFrom hmem with hmem | ⟨pre, -, hpre, rfl⟩
    · exact h.directories names hmem
    · exact ⟨key, hkey, hpre.trans (List.dropLast_prefix _), prefix_ne_of_dropLast hpre⟩
  objects other hother := by
    rw [Disk.file?_make]
    exact h.objects other hother
  ways other hother hsome :=
    (h.ways other hother hsome).mono Tree.makeFrom_files Tree.makeFrom_directories

/-- **Writing the file of a key** sets the bytes at the key, and no other. -/
theorem writeFile (h : Mirrors keys t m) (hflat : IsFlat keys) (hkey : key ∈ keys)
    (hway : t.IsWay [] (components key).dropLast) (content : Blob) :
    Mirrors keys (t.writeFile (components key) content)
      (Function.update m key (some content.toList)) where
  files names found hfile := by
    by_cases hsame : names = components key
    · exact ⟨key, hkey, hsame.symm⟩
    · rw [Tree.file?_writeFile_of_ne hsame] at hfile
      exact h.files names found hfile
  directories := h.directories
  objects other hother := by
    by_cases hsame : other = key
    · subst hsame
      rw [Tree.file?_writeFile_self, Function.update_self, Option.map_some]
    · have hne : components other ≠ components key := fun hnames =>
        hsame (splitOnChar_injective hnames)
      rw [Tree.file?_writeFile_of_ne hne, Function.update_of_ne hsame]
      exact h.objects other hother
  ways other hother hsome := by
    have hbefore : t.IsWay [] (components other).dropLast := by
      by_cases hsame : other = key
      · exact hsame ▸ hway
      · rw [Function.update_of_ne hsame] at hsome
        exact h.ways other hother hsome
    refine hbefore.writeFile fun pre _ hpre hsame => prefix_ne_of_dropLast hpre ?_
    rw [List.nil_append] at hsame
    subst hsame
    exact hflat.apart key hkey other hother (hpre.trans (List.dropLast_prefix _))

/-- **Removing the file of a key** takes the bytes from the key, and from no other. -/
theorem removeFile (h : Mirrors keys t m) (hkey : key ∈ keys) :
    Mirrors keys (t.removeFile (components key)) (Function.update m key none) where
  files names found hfile := by
    by_cases hsame : names = components key
    · exact ⟨key, hkey, hsame.symm⟩
    · rw [Tree.file?_removeFile_of_ne hsame] at hfile
      exact h.files names found hfile
  directories := h.directories
  objects other hother := by
    by_cases hsame : other = key
    · subst hsame
      rw [Tree.file?_removeFile_self, Function.update_self, Option.map_none]
    · have hne : components other ≠ components key := fun hnames =>
        hsame (splitOnChar_injective hnames)
      rw [Tree.file?_removeFile_of_ne hne, Function.update_of_ne hsame]
      exact h.objects other hother
  ways other hother hsome := by
    by_cases hsame : other = key
    · subst hsame
      rw [Function.update_self] at hsome
      cases hsome
    · rw [Function.update_of_ne hsame] at hsome
      exact (h.ways other hother hsome).removeFile

/-- Where nothing is, nothing is removed. -/
theorem update_none (h : Mirrors keys t m) (hnone : m key = none) :
    Mirrors keys t (Function.update m key none) := by
  rwa [← hnone, Function.update_eq_self]

/-! ### Single operations -/

/-- Nothing bars the way to the path of a key. -/
theorem free (h : Mirrors keys t m) (hflat : IsFlat keys) (hkey : key ∈ keys)
    (hnames : p.names = components key) :
    ∀ pre, pre ≠ [] → pre <+: p.parents → t.file? pre = none := by
  intro pre _ hpre
  have hparents : p.parents = (components key).dropLast := by
    rw [← hnames, Path.names, List.dropLast_concat]
  rw [hparents] at hpre
  exact h.file?_eq_none hflat hkey (hpre.trans (List.dropLast_prefix _)) (prefix_ne_of_dropLast hpre)

/-- **Writing an object** makes directories, and writes the file of the key if the bytes are
wanted. -/
theorem commit_eq (h : Mirrors keys t m) (hflat : IsFlat keys) (hkey : key ∈ keys)
    (hnames : p.names = components key) (hfit : p.IsFit) (content : Blob) (fault : Option Error) :
    ∃ u, Mirrors keys u m ∧ u.IsWay [] (components key).dropLast
      ∧ Disk.commit t p content fault
        = match fault with
          | some e => (.error e, u)
          | none => (.ok (), u.writeFile (components key) content) := by
  have hparents : p.parents = (components key).dropLast := by
    rw [← hnames, Path.names, List.dropLast_concat]
  have hfree := h.free hflat hkey hnames
  have hmade : Mirrors keys (t.make p.parents).2 m := hparents ▸ h.make hkey
  have hplace : p.names ∉ (t.make p.parents).2.directories := hnames ▸ hmade.not_directory hflat hkey
  refine ⟨(t.make p.parents).2, hmade, ?_, ?_⟩
  · rw [← hparents]
    exact Tree.isWay_of_makeFrom (Disk.make_eq_true hfit hfree)
  · rw [← hnames]
    cases fault <;> exact Disk.commit_of_isFit hfit hfree hplace

theorem open_eq (h : Mirrors keys t m) (hflat : IsFlat keys) (hkey : key ∈ keys) :
    (Disk.open t key).map Blob.toList = m.find key := by
  obtain ⟨p, hp, hnames, hfit⟩ := (hflat.plain key hkey).exists_path
  have hfind := h.find_eq hflat hkey hnames hfit
  rw [Disk.open, hp, Objects.find, ← h.objects key hkey]
  dsimp only [bind, Except.bind]
  rw [hfind]
  cases t.file? (components key) <;> rfl

/-- A range is a piece of the bytes, cut off at their end. -/
theorem openRange_eq (h : Mirrors keys t m) (hflat : IsFlat keys) (hkey : key ∈ keys) {first : Nat}
    {last : Option Nat} (hbounded : ∀ n, last = some n → first ≤ n ∧ n ≤ maxInt64)
    (hfirst : first ≤ maxInt64) :
    (Disk.openRange t key first last).map Blob.toList
      = (m.find key).map (slice · first last) := by
  have hopen := h.open_eq hflat hkey
  have hordered : (last.map fun n => decide (n < first)).getD false = false := by
    cases last with
    | none => rfl
    | some n => exact decide_eq_false (Nat.not_lt.mpr (hbounded n rfl).1)
  have hreach : ¬ maxInt64 < first := Nat.not_lt.mpr hfirst
  rw [Disk.openRange, hordered, if_neg Bool.false_ne_true, ← hopen]
  cases Disk.open t key with
  | error e => rfl
  | ok content =>
    show ((if maxInt64 < first then throw Disk.systemFailure else _ : Except Error Blob)).map _ = _
    rw [if_neg hreach]
    cases last with
    | none => exact congrArg Except.ok (Blob.toList_drop content first)
    | some n =>
      have hlength : (n - first + 1) % wordCount64 = n - first + 1 := by
        have hn := (hbounded n rfl).2
        rw [maxInt64] at hn
        exact Nat.mod_eq_of_lt (by rw [wordCount64]; omega)
      show Except.ok _ = Except.ok _
      rw [hlength, Blob.toList_take, Blob.toList_drop]
      rfl

theorem exists?_eq (h : Mirrors keys t m) (hflat : IsFlat keys) (hkey : key ∈ keys) :
    Disk.exists? t key = .ok (m key).isSome := by
  obtain ⟨p, hp, hnames, hfit⟩ := (hflat.plain key hkey).exists_path
  have hfind := h.find_eq hflat hkey hnames hfit
  rw [Disk.exists?, hp, ← h.objects key hkey]
  dsimp only [bind, Except.bind]
  rw [hfind]
  cases t.file? (components key) <;> rfl

theorem delete_eq (h : Mirrors keys t m) (hflat : IsFlat keys) (hkey : key ∈ keys) :
    ∃ u, Disk.delete t key = (.ok (), u) ∧ Mirrors keys u (Function.update m key none) := by
  obtain ⟨p, hp, hnames, hfit⟩ := (hflat.plain key hkey).exists_path
  have hbytes := h.objects key hkey
  rw [Disk.delete, hp]
  dsimp only
  rw [h.find_eq hflat hkey hnames hfit]
  cases hfile : t.file? (components key) with
  | some content => exact ⟨_, rfl, hnames ▸ h.removeFile hkey⟩
  | none =>
    rw [hfile] at hbytes
    exact ⟨t, rfl, h.update_none hbytes.symm⟩

theorem put_eq (h : Mirrors keys t m) (hflat : IsFlat keys) (hkey : key ∈ keys) (content : Blob) :
    ∃ u, Disk.put t key content = (.ok content.size, u)
      ∧ Mirrors keys u (Function.update m key (some content.toList)) := by
  obtain ⟨p, hp, hnames, hfit⟩ := (hflat.plain key hkey).exists_path
  obtain ⟨u, hu, hway, hcommit⟩ := h.commit_eq hflat hkey hnames hfit content none
  rw [Disk.put, hp]
  dsimp only
  rw [hcommit]
  exact ⟨_, rfl, hu.writeFile hflat hkey hway content⟩

/-- **A stream that is as long as declared is stored.** -/
theorem putStream_of_size (h : Mirrors keys t m) (hflat : IsFlat keys) (hkey : key ∈ keys)
    {stream : Blob} {declared : Nat} (hbounded : declared ≤ maxInt64)
    (hsize : stream.size = declared) :
    ∃ u, Disk.putStream t key stream declared = (.ok declared, u)
      ∧ Mirrors keys u (Function.update m key (some stream.toList)) := by
  obtain ⟨p, hp, hnames, hfit⟩ := (hflat.plain key hkey).exists_path
  obtain ⟨u, hu, hway, hcommit⟩ :=
    h.commit_eq hflat hkey hnames hfit (stream.take (declared + 1)) none
  have hbytes : (stream.take (declared + 1)).toList = stream.toList := by
    rw [Blob.toList_take]
    exact List.take_of_length_le (by rw [Blob.length_toList]; omega)
  rw [Disk.putStream_eq hp hbounded, if_pos hsize, hcommit]
  exact ⟨_, rfl, hbytes ▸ hu.writeFile hflat hkey hway _⟩

/-- **A stream that is not as long as declared is refused**, and what was there stays. -/
theorem putStream_of_ne (h : Mirrors keys t m) (hflat : IsFlat keys) (hkey : key ∈ keys)
    {stream : Blob} {declared : Nat} (hbounded : declared ≤ maxInt64)
    (hsize : stream.size ≠ declared) :
    ∃ u, Disk.putStream t key stream declared
        = (.error (Disk.sizeMismatch key declared (min stream.size (declared + 1))), u)
      ∧ Mirrors keys u m := by
  obtain ⟨p, hp, hnames, hfit⟩ := (hflat.plain key hkey).exists_path
  obtain ⟨u, hu, -, hcommit⟩ := h.commit_eq hflat hkey hnames hfit (stream.take (declared + 1))
    (some (Disk.sizeMismatch key declared (min stream.size (declared + 1))))
  rw [Disk.putStream_eq hp hbounded, if_neg hsize, hcommit]
  exact ⟨_, rfl, hu⟩

end Mirrors

end SharedMemos.Storage
