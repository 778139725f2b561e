import SharedMemos.Proofs.Storage.Disk
import SharedMemos.Proofs.Storage.ObjectStore

/-!
# Keys where nothing is

That an object cannot be read is little to go by: there may be a file at its path, and only a
directory on the way missing, which the next call makes. What stays as it is says that there is no
file (`Disk.Lacks`). Where the way is open both say the same, and so what has been removed is
lacking (`Disk.lacks_delete_self`), and so is what cannot be read beside an object that can
(`Disk.lacks_of_open`).

## Main results

* `Disk.lacks_put`, `Disk.lacks_putStream` — what is stored elsewhere is not at the key
* `Disk.lacks_delete`, `Disk.lacks_delete_self` — removing objects adds none
* `ObjectStore.object?_delete_self` — what has been removed from a store is not there
-/

namespace SharedMemos.Storage

/-- There can be a file at the path: the system can use its names, and it does not end as only that
of a directory may. -/
def Path.MayHold (p : Path) : Prop :=
  p.names.any isVoid = false ∧ p.isDirectory = false ∧ Tree.isLong p.name = false

namespace Disk

/-- There is no file at the path of the key, whatever directories are there. -/
def Lacks (t : Tree) (key : String) : Prop :=
  ∀ p, Path.ofKey key = .ok p → p.MayHold → t.file? p.names = none

variable {t t' : Tree} {p q : Path} {key other : String} {content : Blob} {fault : Option Error}

/-- An object is a file behind a way. -/
theorem open_eq_ok_iff_isWay : Disk.open t key = .ok content
    ↔ ∃ p, Path.ofKey key = .ok p ∧ p.MayHold ∧ t.IsWay [] p.parents
      ∧ t.file? p.names = some content := by
  rw [open_eq_ok_iff]
  refine exists_congr fun p => and_congr_right fun _ => ?_
  rw [Path.MayHold, Path.names, Tree.entry, Tree.entryFrom_eq_file_iff, List.nil_append]
  tauto

theorem Lacks.open_ne (h : Lacks t key) : Disk.open t key ≠ .ok content := by
  intro hopen
  obtain ⟨p, hp, hmay, -, hfile⟩ := open_eq_ok_iff_isWay.mp hopen
  rw [h p hp hmay] at hfile
  cases hfile

/-- **What cannot be read beside an object that can is lacking.** -/
theorem lacks_of_open (hbeside : ∀ p q, Path.ofKey key = .ok p → Path.ofKey other = .ok q →
      p.parents = q.parents)
    (hother : Disk.open t other = .ok content) (hnone : ∀ found, Disk.open t key ≠ .ok found) :
    Lacks t key := by
  intro p hp hmay
  obtain ⟨q, hq, -, hway, -⟩ := open_eq_ok_iff_isWay.mp hother
  refine Option.eq_none_iff_forall_ne_some.mpr fun found hfound => hnone found ?_
  exact open_eq_ok_iff_isWay.mpr ⟨p, hp, hmay, hbeside p q hp hq ▸ hway, hfound⟩

theorem file?_commit_of_ne (hne : q.names ≠ p.names) :
    (commit t p content fault).2.file? q.names = t.file? q.names := by
  have hmade : (t.make p.parents).2.file? q.names = t.file? q.names := by
    rw [Tree.file?, Tree.make, Tree.makeFrom_files, Tree.file?]
  rcases commit_cases t p content fault with ⟨e, -, htree | htree⟩ | ⟨hok, -⟩
  · rw [htree]
  · rw [htree, hmade]
  · rw [hok, Tree.file?_writeFile_of_ne hne, hmade]

theorem Lacks.commit (h : Lacks t other) (hapart : Apart key other)
    (hp : Path.ofKey key = .ok p) : Lacks (commit t p content fault).2 other := by
  intro q hq hmay
  rw [file?_commit_of_ne (hapart p q hp hq).symm]
  exact h q hq hmay

theorem lacks_put (hapart : Apart key other) (h : Lacks t other) :
    Lacks (put t key content).2 other := by
  rw [put]
  cases hp : Path.ofKey key with
  | error e => exact h
  | ok p => exact h.commit hapart hp

theorem lacks_putStream {declared : Nat} (hapart : Apart key other) (h : Lacks t other) :
    Lacks (putStream t key content declared).2 other := by
  rw [putStream]
  cases hp : Path.ofKey key with
  | error e => exact h
  | ok p => exact h.commit hapart hp

/-- Removing an object adds none. -/
theorem lacks_delete (h : Lacks t other) : Lacks (delete t key).2 other := by
  rw [delete]
  cases hp : Path.ofKey key with
  | error e => exact h
  | ok p =>
    dsimp only
    cases find t p with
    | file content =>
      intro q hq hmay
      by_cases hsame : q.names = p.names
      · rw [hsame]
        exact Tree.file?_removeFile_self
      · rw [Tree.file?_removeFile_of_ne hsame]
        exact h q hq hmay
    | directory => exact h
    | missing => exact h
    | barred => exact h

/-- **What has been removed is lacking.** -/
theorem lacks_delete_self (h : Disk.open t key = .ok content) : Lacks (delete t key).2 key := by
  obtain ⟨p, hp, hvoid, hdirectory, hentry⟩ := open_eq_ok_iff.mp h
  have hfind : find t p = .file content := by
    rw [find, hvoid, hentry, hdirectory]
    rfl
  rw [delete, hp]
  dsimp only
  rw [hfind]
  intro q hq _
  rw [hp] at hq
  cases hq
  exact Tree.file?_removeFile_self

end Disk

namespace ObjectStore

variable {s : ObjectStore} {key : String}

/-- A store removes what it is asked to, unless such calls fail. -/
theorem object?_delete_self (hworks : s.failure? .delete = none) :
    (s.delete key).2.object? key = none := by
  have hsee : (s.see key).failure? .delete = none := by
    rw [failure?, see_failures]
    exact hworks
  rw [delete, «call», hsee]
  show ((List.filter _ _).find? _).map _ = none
  rw [find?_filter_self, Option.map_none]

/-- Removing an object does not change which calls fail. -/
theorem failure?_delete (call : Call) : (s.delete key).2.failure? call = s.failure? call := by
  rw [failure?, delete_failures, failure?]

end ObjectStore

end SharedMemos.Storage
