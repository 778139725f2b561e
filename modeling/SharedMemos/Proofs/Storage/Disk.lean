import SharedMemos.Proofs.Storage.Tree
import SharedMemos.Proofs.Text.Pieces
import SharedMemos.Storage.Disk

/-!
# Objects in a directory stay apart

An object is the file at the path of its key. Storing an object either changes nothing but
directories or writes that one file, and then it can be read back. An object at another path is
never lost by it.

Two keys may be written differently and have the same path, so that what matters is whether the
paths are apart, not the keys (`Apart`).

## Main results

* `Disk.commit_cases` — all that storing an object can do
* `Disk.open_put`, `Disk.open_putStream` — what was stored can be read back
* `Disk.open_put_of_apart`, `Disk.open_delete_of_apart` — other objects are not lost
* `Path.names_append_ne` — a key with something behind it has another path
-/

namespace SharedMemos.Storage

open SharedMemos.Text

/-! ### Paths -/

namespace Path

variable {key mark : String} {p p' : Path}

theorem ofKey_eq_ok_iff : ofKey key = .ok p ↔ ofKey? key = some p := by
  simp only [ofKey, InputFault.expect]
  cases ofKey? key <;> simp

/-- The names of a path are the pieces of its key that are not idle. -/
theorem names_of_ofKey (h : ofKey key = .ok p) :
    p.names = (splitOnChar '/' key).filter (!isIdle ·)
      ∧ p.isDirectory = ((splitOnChar '/' key).getLast?.map isIdle).getD false := by
  have hsome := ofKey_eq_ok_iff.mp h
  unfold ofKey? at hsome
  dsimp only at hsome
  split at hsome
  · cases hsome
  · split at hsome
    · cases hsome
    · rename_i name parents hpieces
      cases hsome
      refine ⟨?_, rfl⟩
      rw [names, ← List.reverse_cons, ← hpieces, List.reverse_reverse]

theorem names_ne_nil (p : Path) : p.names ≠ [] :=
  List.append_ne_nil_of_right_ne_nil _ (List.cons_ne_nil _ _)

/-- A key with something behind it that starts no directory has another path. -/
theorem names_append_ne (hmark : mark ≠ "") (hsep : '/' ∉ mark.toList) (h : ofKey key = .ok p)
    (hfile : p.isDirectory = false) (h' : ofKey (key ++ mark) = .ok p') : p'.names ≠ p.names := by
  obtain ⟨hnames, hdir⟩ := names_of_ofKey h
  obtain ⟨hnames', -⟩ := names_of_ofKey h'
  obtain ⟨init, last, hkey, happend⟩ := splitAt_append_of_not_mem hsep key.toList
  have hpieces : splitOnChar '/' key = init.map String.ofList ++ [String.ofList last] := by
    rw [splitOnChar, hkey, List.map_append, List.map_singleton]
  have hpieces' : splitOnChar '/' (key ++ mark)
      = init.map String.ofList ++ [String.ofList (last ++ mark.toList)] := by
    rw [splitOnChar, String.toList_append, happend, List.map_append, List.map_singleton]
  have hbusy : isIdle (String.ofList last) = false := by
    rw [hfile, hpieces, List.getLast?_append, List.getLast?_singleton] at hdir
    exact hdir.symm
  have hlast : last ≠ [] := by
    rintro rfl
    exact absurd hbusy (by decide)
  have hmark' : mark.toList ≠ [] := fun hnil => hmark (String.toList_eq_nil_iff.mp hnil)
  have hbusy' : isIdle (String.ofList (last ++ mark.toList)) = false := by
    have hlength : 2 ≤ (last ++ mark.toList).length := by
      have := List.length_pos_of_ne_nil hlast
      have := List.length_pos_of_ne_nil hmark'
      rw [List.length_append]
      omega
    rw [isIdle, Bool.or_eq_false_iff]
    constructor <;>
    · refine beq_false_of_ne fun hsame => ?_
      rw [← String.toList_inj, String.toList_ofList] at hsame
      rw [hsame] at hlength
      exact absurd hlength (by decide)
  rw [hnames, hnames', hpieces, hpieces']
  simp only [List.filter_append, List.filter_cons, hbusy, hbusy', Bool.not_false, if_true,
    List.filter_nil]
  intro hsame
  have hends := List.append_cancel_left hsame
  rw [List.singleton_inj, String.ofList_inj] at hends
  exact hmark' (List.append_right_eq_self.mp hends)

end Path

/-- The paths of two keys are apart, where both have one. -/
def Disk.Apart (key other : String) : Prop :=
  ∀ p q, Path.ofKey key = .ok p → Path.ofKey other = .ok q → p.names ≠ q.names

/-! ### Storing and removing -/

namespace Disk

variable {t t' : Tree} {p q : Path} {key other : String} {content found : Blob}
  {fault : Option Error}

/-- **All that storing an object can do**: it fails, and at most directories are made; or it writes
the file of the path, behind a way, and not onto a directory. -/
theorem commit_cases (t : Tree) (p : Path) (content : Blob) (fault : Option Error) :
    (∃ e, (commit t p content fault).1 = .error e
        ∧ ((commit t p content fault).2 = t ∨ (commit t p content fault).2 = (t.make p.parents).2))
      ∨ (commit t p content fault = (.ok (), (t.make p.parents).2.writeFile p.names content)
        ∧ fault = none ∧ p.isDirectory = false ∧ p.names.any Path.isVoid = false
        ∧ (t.make p.parents).2.IsWay [] p.parents ∧ Tree.isLong p.name = false
        ∧ (t.make p.parents).2.entry p.names ≠ .directory) := by
  rw [commit]
  by_cases hvoid : p.parents.any Path.isVoid = true
  · rw [if_pos hvoid]
    exact .inl ⟨_, rfl, .inl rfl⟩
  · rw [if_neg hvoid]
    dsimp only
    split
    · exact .inl ⟨_, rfl, .inr rfl⟩
    · rename_i hname
      simp only [Bool.or_eq_true, not_or, Bool.not_eq_true, Bool.not_eq_false',
        decide_eq_false_iff_not, Nat.not_lt] at hname
      obtain ⟨⟨hmade, hplain⟩, hshort⟩ := hname
      split
      · exact .inl ⟨_, rfl, .inr rfl⟩
      · split
        · exact .inl ⟨_, rfl, .inr rfl⟩
        · rename_i hfile
          have hway : (t.make p.parents).2.IsWay [] p.parents := Tree.isWay_of_makeFrom hmade
          have hlong : Tree.isLong p.name = false := by
            rw [Tree.isLong, decide_eq_false_iff_not]
            omega
          have hnull : p.names.any Path.isVoid = false := by
            rw [Path.names, List.any_append, List.any_cons, List.any_nil, hplain,
              Bool.eq_false_iff.mpr hvoid]
            rfl
          split
          · exact .inl ⟨_, rfl, .inr rfl⟩
          · exact .inl ⟨_, rfl, .inr rfl⟩
          · rename_i hentry
            refine .inr ⟨rfl, rfl, Bool.eq_false_iff.mpr hfile, hnull, hway, hlong, ?_⟩
            rw [hentry]
            exact Entry.noConfusion
          · rename_i hentry
            refine .inr ⟨rfl, rfl, Bool.eq_false_iff.mpr hfile, hnull, hway, hlong, ?_⟩
            rw [hentry]
            exact Entry.noConfusion

/-- What it takes for a key to lead to an object. -/
theorem open_eq_ok_iff : Disk.open t key = .ok content
    ↔ ∃ p, Path.ofKey key = .ok p ∧ p.names.any Path.isVoid = false ∧ p.isDirectory = false
      ∧ t.entry p.names = .file content := by
  simp only [Disk.open, find]
  cases hp : Path.ofKey key with
  | error e => simp [bind, Except.bind]
  | ok p =>
    cases hvoid : p.names.any Path.isVoid <;> cases hentry : t.entry p.names <;>
      cases hdir : p.isDirectory <;>
      simp [bind, Except.bind, pure, Except.pure, throw, throwThe, MonadExceptOf.throw, hvoid,
        hentry, hdir, -List.any_eq_false]

theorem entry_commit_of_ne (hne : q.names ≠ p.names) (h : t.entry q.names = .file found) :
    (commit t p content fault).2.entry q.names = .file found := by
  have hmade : (t.make p.parents).2.entry q.names = .file found :=
    Tree.entry_mono Tree.makeFrom_files Tree.makeFrom_directories h
  rcases commit_cases t p content fault with ⟨e, -, htree | htree⟩ | ⟨hok, -, -, -, -, -, hfree⟩
  · rwa [htree]
  · rwa [htree]
  · rw [hok]
    exact Tree.entry_writeFile_of_ne hne p.names_ne_nil hfree hmade

/-- What was stored is found. -/
theorem entry_commit (h : commit t p content fault = (.ok (), t')) :
    fault = none ∧ p.isDirectory = false ∧ p.names.any Path.isVoid = false
      ∧ t'.entry p.names = .file content := by
  rcases commit_cases t p content fault with
    ⟨e, herror, -⟩ | ⟨hok, hfault, hfile, hnull, hway, hlong, -⟩
  · rw [h] at herror
    cases herror
  · rw [h] at hok
    cases hok
    exact ⟨hfault, hfile, hnull, Tree.entry_writeFile_self hway hlong⟩

theorem open_of_commit_of_apart (hapart : Apart key other) (hp : Path.ofKey key = .ok p)
    (h : Disk.open t other = .ok found) :
    Disk.open (commit t p content fault).2 other = .ok found := by
  obtain ⟨q, hq, hnull, hfile, hentry⟩ := open_eq_ok_iff.mp h
  exact open_eq_ok_iff.mpr
    ⟨q, hq, hnull, hfile, entry_commit_of_ne (hapart p q hp hq).symm hentry⟩

/-- **What was stored can be read back.** -/
theorem open_put {n : Nat} (h : put t key content = (.ok n, t')) :
    n = content.size ∧ Disk.open t' key = .ok content := by
  rw [put] at h
  cases hp : Path.ofKey key with
  | error e =>
    rw [hp] at h
    cases h
  | ok p =>
    rw [hp] at h
    dsimp only at h
    rcases hcommit : commit t p content none with ⟨e | u, t₁⟩
    · rw [hcommit] at h
      cases h
    · rw [hcommit] at h
      cases h
      obtain ⟨-, hfile, hnull, hentry⟩ := entry_commit hcommit
      exact ⟨rfl, open_eq_ok_iff.mpr ⟨p, hp, hnull, hfile, hentry⟩⟩

theorem open_put_of_apart (hapart : Apart key other) (h : Disk.open t other = .ok found) :
    Disk.open (put t key content).2 other = .ok found := by
  rw [put]
  cases hp : Path.ofKey key with
  | error e => exact h
  | ok p => exact open_of_commit_of_apart hapart hp h

/-- A stream of the declared size can be read back: at most one byte more of it is read. -/
theorem open_putStream {declared n : Nat}
    (h : putStream t key content declared = (.ok n, t')) :
    n = declared ∧ (content.take ((declared + 1) % wordCount64)).size = declared
      ∧ Disk.open t' key = .ok (content.take ((declared + 1) % wordCount64)) := by
  rw [putStream] at h
  cases hp : Path.ofKey key with
  | error e =>
    rw [hp] at h
    cases h
  | ok p =>
    rw [hp] at h
    dsimp only at h
    split at h
    · rename_i hsize
      rcases hcommit : commit t p (content.take ((declared + 1) % wordCount64)) none
        with ⟨e | u, t₁⟩
      · rw [hcommit] at h
        cases h
      · rw [hcommit] at h
        cases h
        obtain ⟨-, hfile, hnull, hentry⟩ := entry_commit hcommit
        exact ⟨rfl, hsize, open_eq_ok_iff.mpr ⟨p, hp, hnull, hfile, hentry⟩⟩
    · rcases hcommit : commit t p (content.take ((declared + 1) % wordCount64))
        (some (sizeMismatch key declared (content.take ((declared + 1) % wordCount64)).size))
        with ⟨e | u, t₁⟩
      · rw [hcommit] at h
        cases h
      · cases (entry_commit hcommit).1

theorem open_putStream_of_apart {declared : Nat} (hapart : Apart key other)
    (h : Disk.open t other = .ok found) :
    Disk.open (putStream t key content declared).2 other = .ok found := by
  rw [putStream]
  cases hp : Path.ofKey key with
  | error e => exact h
  | ok p => exact open_of_commit_of_apart hapart hp h

theorem open_delete_of_apart (hapart : Apart key other) (h : Disk.open t other = .ok found) :
    Disk.open (delete t key).2 other = .ok found := by
  rw [delete]
  cases hp : Path.ofKey key with
  | error e => exact h
  | ok p =>
    dsimp only
    cases hfind : find t p with
    | file content =>
      obtain ⟨q, hq, hnull, hfile, hentry⟩ := open_eq_ok_iff.mp h
      exact open_eq_ok_iff.mpr ⟨q, hq, hnull, hfile,
        Tree.entry_removeFile_of_ne (hapart p q hp hq).symm hentry⟩
    | directory => exact h
    | missing => exact h
    | barred => exact h

/-- A key with something behind it is apart from the key of an object. -/
theorem apart_append {mark : String} (hmark : mark ≠ "") (hsep : '/' ∉ mark.toList)
    (h : Disk.open t key = .ok content) : Apart (key ++ mark) key := by
  obtain ⟨p, hp, -, hfile, -⟩ := open_eq_ok_iff.mp h
  intro p' q hp' hq
  rw [hp] at hq
  cases hq
  exact Path.names_append_ne hmark hsep hp hfile hp'

end Disk

end SharedMemos.Storage
