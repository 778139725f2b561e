import SharedMemos.Proofs.Storage.Disk
import SharedMemos.Storage.Temporary

/-!
# Temporary files leave no trace

Where a path is fit for an object and nothing bars the way, writing an object writes one file behind
the directories that are made for it (`Disk.commit_of_isFit`). Going through a temporary file comes
to the same, and to the same tree, as long as the temporary file has a place of its own
(`Disk.commitBeside_eq`): it is gone again whether the bytes are wanted or not.

## Main definitions

* `Path.IsFit` — paths that objects can be written at, with a temporary file beside them

## Main results

* `Disk.commit_of_isFit` — what writing an object comes to
* `Disk.commitBeside_eq` — a temporary file makes no difference
-/

namespace SharedMemos.Storage

/-- An object can be written at the path, with a temporary file beside it. -/
structure Path.IsFit (p : Path) : Prop where
  usable : p.names.any isVoid = false
  parents : ∀ name ∈ p.parents, Tree.isLong name = false
  name : p.name.utf8ByteSize + Disk.temporaryMark ≤ Tree.maxName
  isFile : p.isDirectory = false

namespace Path.IsFit

variable {p : Path}

theorem isVoid_parents (h : p.IsFit) : p.parents.any isVoid = false := by
  have husable := h.usable
  rw [names, List.any_append, Bool.or_eq_false_iff] at husable
  exact husable.1

theorem isVoid_name (h : p.IsFit) : isVoid p.name = false := by
  have husable := h.usable
  rw [names, List.any_append, Bool.or_eq_false_iff] at husable
  simpa using husable.2

theorem isLong_name (h : p.IsFit) : Tree.isLong p.name = false := by
  have hname := h.name
  rw [Tree.isLong, decide_eq_false_iff_not]
  omega

end Path.IsFit

namespace Disk

variable {t : Tree} {p : Path} {content : Blob} {fault : Option Error} {mark : String}

/-- The directories on the way can be made. -/
theorem make_eq_true (hfit : p.IsFit)
    (hfree : ∀ pre, pre ≠ [] → pre <+: p.parents → t.file? pre = none) :
    (t.make p.parents).1 = true :=
  Tree.makeFrom_eq_true hfit.parents hfree

theorem file?_make (t : Tree) (names other : List String) :
    (t.make names).2.file? other = t.file? other := by
  rw [Tree.file?, Tree.make, Tree.makeFrom_files, Tree.file?]

/-- What is found at a path behind a way, where there is no directory. -/
theorem entry_of_isWay {parents : List String} {name : String} (hway : t.IsWay [] parents)
    (hlong : Tree.isLong name = false) (hplace : parents ++ [name] ∉ t.directories) :
    t.entry (parents ++ [name])
      = match t.file? (parents ++ [name]) with
        | some content => .file content
        | none => .missing := by
  rw [Tree.entry, hway.entryFrom_append, List.nil_append, Tree.entryFrom, hlong,
    if_neg Bool.false_ne_true]
  cases t.file? (parents ++ [name]) with
  | some content => rfl
  | none =>
    dsimp only
    rw [if_neg fun hmem => hplace (List.contains_iff_mem.mp hmem)]

/-- **What writing an object comes to** where nothing bars the way. -/
theorem commit_of_isFit (hfit : p.IsFit)
    (hfree : ∀ pre, pre ≠ [] → pre <+: p.parents → t.file? pre = none)
    (hplace : p.names ∉ (t.make p.parents).2.directories) :
    commit t p content fault
      = match fault with
        | some e => (.error e, (t.make p.parents).2)
        | none => (.ok (), (t.make p.parents).2.writeFile p.names content) := by
  have hmade := make_eq_true hfit hfree
  have hway : (t.make p.parents).2.IsWay [] p.parents := Tree.isWay_of_makeFrom hmade
  have hshort : ¬ Tree.maxName < p.name.utf8ByteSize + temporaryMark := Nat.not_lt.mpr hfit.name
  rw [commit, hfit.isVoid_parents, if_neg Bool.false_ne_true]
  dsimp only
  rw [hmade, hfit.isVoid_name, decide_eq_false hshort, Bool.not_true, Bool.or_self, Bool.or_self,
    if_neg Bool.false_ne_true]
  cases fault with
  | some e => rfl
  | none =>
    dsimp only
    rw [hfit.isFile, if_neg Bool.false_ne_true, Path.names,
      entry_of_isWay hway hfit.isLong_name hplace]
    cases (t.make p.parents).2.file? (p.parents ++ [p.name]) <;> rfl

theorem utf8ByteSize_temporaryName (hmark : mark.utf8ByteSize = 12) (name : String) :
    (temporaryName name mark).utf8ByteSize = name.utf8ByteSize + temporaryMark := by
  have hends : ".".utf8ByteSize = 1 ∧ ".tmp".utf8ByteSize = 4 := by decide
  rw [temporaryName, temporaryMark]
  simp only [String.utf8ByteSize_append, hmark, hends]
  omega

/-- **A temporary file makes no difference** if it has a place of its own: it is gone again, whether
the bytes are wanted or not. -/
theorem commitBeside_eq (hfit : p.IsFit) (hmark : mark.utf8ByteSize = 12)
    (hfree : ∀ pre, pre ≠ [] → pre <+: p.parents → t.file? pre = none)
    (hplace : p.names ∉ (t.make p.parents).2.directories)
    (hfile : t.file? (temporaryNames p mark) = none)
    (hbeside : temporaryNames p mark ∉ (t.make p.parents).2.directories) :
    commitBeside mark t p content fault = commit t p content fault := by
  have hmade := make_eq_true hfit hfree
  rw [commit_of_isFit hfit hfree hplace, commitBeside, hfit.isVoid_parents,
    if_neg Bool.false_ne_true]
  dsimp only
  rw [hmade, hfit.isVoid_name, Bool.not_true, Bool.or_self, if_neg Bool.false_ne_true]
  have hway : (t.make p.parents).2.IsWay [] p.parents := Tree.isWay_of_makeFrom hmade
  have hnone : (t.make p.parents).2.file? (temporaryNames p mark) = none := by
    rw [file?_make, hfile]
  generalize (t.make p.parents).2 = u at *
  have hshort : Tree.isLong (temporaryName p.name mark) = false := by
    have hname := hfit.name
    rw [Tree.isLong, utf8ByteSize_temporaryName hmark, decide_eq_false_iff_not]
    omega
  have hentry : u.entry (temporaryNames p mark) = .missing := by
    rw [temporaryNames, entry_of_isWay hway hshort hbeside]
    rw [temporaryNames] at hnone
    rw [hnone]
  have hgone : (u.writeFile (temporaryNames p mark) content).removeFile (temporaryNames p mark) = u :=
    Tree.removeFile_writeFile hnone
  rw [hentry]
  cases fault with
  | some e =>
    dsimp only
    rw [hgone]
  | none =>
    have hway' : (u.writeFile (temporaryNames p mark) content).IsWay [] p.parents := by
      refine hway.writeFile ?_
      rintro pre - ⟨after, hafter⟩ hsame
      have hlength := congrArg List.length hsame
      have hparents := congrArg List.length hafter
      simp only [temporaryNames, List.nil_append, List.length_append, List.length_singleton]
        at hlength hparents
      omega
    dsimp only
    rw [moveInto, hfit.isFile, if_neg Bool.false_ne_true, hgone, Path.names,
      entry_of_isWay hway' hfit.isLong_name hplace]
    cases (u.writeFile (temporaryNames p mark) content).file? (p.parents ++ [p.name]) <;> rfl

end Disk

end SharedMemos.Storage
