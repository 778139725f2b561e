import SharedMemos.Proofs.Lookup
import SharedMemos.Storage.Tree

/-!
# Files in a directory tree

A list of names leads to a file if every name but the last leads to a directory. The directories on
the way are said by `IsWay`, which follows the names one by one, as looking up and making
directories do. Making directories and writing files elsewhere leave a way as it is, provided that
no file is written onto a directory of the way.

## Main results

* `Tree.entryFrom_eq_file_iff` — what it takes for names to lead to a file
* `Tree.entryFrom_eq_missing` — what it takes for names to lead nowhere
* `Tree.isWay_of_makeFrom` — directories that were made are a way
* `Tree.makeFrom_eq_true`, `Tree.mem_makeFrom` — when they can be made, and what else is made
* `Tree.entry_writeFile_of_ne` — a file is not lost by writing another
-/

namespace SharedMemos.Storage.Tree

variable {t t' : Tree} {names other base rest : List String} {name : String} {content : Blob}

/-! ### Single files -/

theorem file?_removeFile_self : (t.removeFile names).file? names = none := by
  rw [file?, removeFile, find?_filter_self, Option.map_none]

theorem file?_removeFile_of_ne (h : other ≠ names) :
    (t.removeFile names).file? other = t.file? other := by
  rw [file?, file?, removeFile, find?_filter_of_ne h]

theorem writeFile_files :
    (t.writeFile names content).files = (names, content) :: (t.removeFile names).files := rfl

theorem file?_writeFile_self : (t.writeFile names content).file? names = some content := by
  rw [file?, writeFile_files, find?_cons_self, Option.map_some]

theorem file?_writeFile_of_ne (h : other ≠ names) :
    (t.writeFile names content).file? other = t.file? other := by
  rw [file?, writeFile_files, find?_cons_of_ne h, ← file?_removeFile_of_ne h, file?]

/-- Where there is no file, nothing is removed. -/
theorem removeFile_of_none (h : t.file? names = none) : t.removeFile names = t := by
  have hothers : ∀ file ∈ t.files, (file.1 != names) = true := by
    intro file hfile
    rw [bne_iff_ne]
    intro hsame
    exact List.find?_eq_none.mp (Option.map_eq_none_iff.mp h) file hfile (beq_iff_eq.mpr hsame)
  rw [removeFile, List.filter_eq_self.mpr hothers]

/-- A file that was written where there was none is removed without a trace. -/
theorem removeFile_writeFile (h : t.file? names = none) :
    (t.writeFile names content).removeFile names = t := by
  show { t with files := ((names, content) :: (t.removeFile names).files).filter (·.1 != names) } = t
  rw [removeFile_of_none h, List.filter_cons_of_neg (by simp)]
  exact removeFile_of_none h

/-! ### Ways through directories -/

/-- The names lead from one directory to the next, starting in the directory `base`. -/
def IsWay (t : Tree) (base : List String) : List String → Prop
  | [] => True
  | name :: rest =>
    isLong name = false ∧ t.file? (base ++ [name]) = none ∧ base ++ [name] ∈ t.directories
      ∧ t.IsWay (base ++ [name]) rest

theorem IsWay.entryFrom (h : t.IsWay base rest) : t.entryFrom base rest = .directory := by
  induction rest generalizing base with
  | nil => rw [Tree.entryFrom]
  | cons name rest ih =>
    obtain ⟨hlong, hfile, hmem, hrest⟩ := h
    rw [Tree.entryFrom]
    simp only [hlong, hfile, List.contains_iff_mem.mpr hmem, Bool.false_eq_true, if_false, if_true]
    exact ih hrest

/-- Behind a way, looking up goes on. -/
theorem IsWay.entryFrom_append (h : t.IsWay base rest) :
    t.entryFrom base (rest ++ other) = t.entryFrom (base ++ rest) other := by
  induction rest generalizing base with
  | nil => rw [List.nil_append, List.append_nil]
  | cons name rest ih =>
    obtain ⟨hlong, hfile, hmem, hrest⟩ := h
    rw [List.cons_append, Tree.entryFrom]
    simp only [hlong, hfile, List.contains_iff_mem.mpr hmem, Bool.false_eq_true, if_false, if_true]
    rw [ih hrest, List.append_assoc]
    rfl

theorem IsWay.of_append (h : t.IsWay base (rest ++ other)) : t.IsWay base rest := by
  induction rest generalizing base with
  | nil => exact trivial
  | cons name rest ih =>
    obtain ⟨hlong, hfile, hmem, hrest⟩ := h
    exact ⟨hlong, hfile, hmem, ih hrest⟩

/-- More directories do not close a way. -/
theorem IsWay.mono (hfiles : t'.files = t.files) (hdirs : t.directories ⊆ t'.directories)
    (h : t.IsWay base rest) : t'.IsWay base rest := by
  induction rest generalizing base with
  | nil => exact trivial
  | cons name rest ih =>
    obtain ⟨hlong, hfile, hmem, hrest⟩ := h
    have hfile' : t'.file? (base ++ [name]) = none := by
      rw [file?, hfiles]
      exact hfile
    exact ⟨hlong, hfile', hdirs hmem, ih hrest⟩

/-- A file that is none of the directories of a way does not bar it. -/
theorem IsWay.writeFile (hne : ∀ pre, pre ≠ [] → pre <+: rest → base ++ pre ≠ names)
    (h : t.IsWay base rest) : (t.writeFile names content).IsWay base rest := by
  induction rest generalizing base with
  | nil => exact trivial
  | cons name rest ih =>
    obtain ⟨hlong, hfile, hmem, hrest⟩ := h
    have hname : base ++ [name] ≠ names :=
      hne [name] (List.cons_ne_nil _ _) ⟨rest, rfl⟩
    refine ⟨hlong, ?_, hmem, ih ?_ hrest⟩
    · rw [file?_writeFile_of_ne hname]
      exact hfile
    · rintro pre - ⟨after, rfl⟩
      rw [List.append_assoc]
      exact hne (name :: pre) (List.cons_ne_nil _ _) ⟨after, rfl⟩

theorem IsWay.removeFile (h : t.IsWay base rest) : (t.removeFile names).IsWay base rest := by
  induction rest generalizing base with
  | nil => exact trivial
  | cons name rest ih =>
    obtain ⟨hlong, hfile, hmem, hrest⟩ := h
    refine ⟨hlong, ?_, hmem, ih hrest⟩
    by_cases hname : base ++ [name] = names
    · rw [hname]
      exact file?_removeFile_self
    · rw [file?_removeFile_of_ne hname]
      exact hfile

/-! ### Making directories -/

theorem makeFrom_files : ∀ {t : Tree} {base : List String},
    (t.makeFrom base rest).2.files = t.files := by
  induction rest with
  | nil => exact fun {t base} => rfl
  | cons name rest ih =>
    intro t base
    rw [makeFrom]
    split
    · rfl
    · split
      · exact ih
      · exact ih

theorem makeFrom_directories : ∀ {t : Tree} {base : List String},
    t.directories ⊆ (t.makeFrom base rest).2.directories := by
  induction rest with
  | nil => exact fun {t base} => List.Subset.refl _
  | cons name rest ih =>
    intro t base
    rw [makeFrom]
    split
    · exact List.Subset.refl _
    · split
      · exact ih
      · intro directory hmem
        exact ih (List.mem_cons_of_mem _ hmem)

/-- **Directories that were made are a way.** -/
theorem isWay_of_makeFrom : ∀ {t : Tree} {base : List String},
    (t.makeFrom base rest).1 = true → (t.makeFrom base rest).2.IsWay base rest := by
  induction rest with
  | nil => exact fun _ => trivial
  | cons name rest ih =>
    intro t base
    rw [makeFrom]
    intro hmade
    split at hmade
    · cases hmade
    · rename_i hfree
      rw [if_neg hfree]
      simp only [Bool.or_eq_true, not_or, Bool.not_eq_true, Option.isSome_eq_false_iff,
        Option.isNone_iff_eq_none] at hfree
      split at hmade
      · rename_i hmem
        rw [if_pos hmem]
        refine ⟨hfree.1, ?_, makeFrom_directories (List.contains_iff_mem.mp hmem), ih hmade⟩
        rw [file?, makeFrom_files]
        exact hfree.2
      · rename_i hmem
        rw [if_neg hmem]
        refine ⟨hfree.1, ?_, makeFrom_directories (List.mem_cons_self), ih hmade⟩
        rw [file?, makeFrom_files]
        exact hfree.2

/-- Directories can be made unless a file or a name that is too long is in the way. -/
theorem makeFrom_eq_true : ∀ {t : Tree} {base : List String}, (∀ name ∈ rest, isLong name = false) →
    (∀ pre, pre ≠ [] → pre <+: rest → t.file? (base ++ pre) = none) →
    (t.makeFrom base rest).1 = true := by
  induction rest with
  | nil => exact fun _ _ => rfl
  | cons name rest ih =>
    intro t base hlong hfree
    have hhere : t.file? (base ++ [name]) = none :=
      hfree [name] (List.cons_ne_nil _ _) ⟨rest, rfl⟩
    have hbehind : ∀ pre, pre ≠ [] → pre <+: rest → t.file? (base ++ [name] ++ pre) = none := by
      rintro pre - ⟨after, rfl⟩
      rw [List.append_assoc]
      exact hfree (name :: pre) (List.cons_ne_nil _ _) ⟨after, rfl⟩
    have hrest : ∀ other ∈ rest, isLong other = false := fun other hother =>
      hlong other (List.mem_cons_of_mem _ hother)
    have hclear : (isLong name || (t.file? (base ++ [name])).isSome) = false := by
      rw [hlong name List.mem_cons_self, hhere]
      rfl
    rw [makeFrom, hclear, if_neg Bool.false_ne_true]
    split
    · exact ih hrest hbehind
    · exact ih hrest hbehind

/-- No other directories are made. -/
theorem mem_makeFrom : ∀ {t : Tree} {base : List String},
    names ∈ (t.makeFrom base rest).2.directories →
    names ∈ t.directories ∨ ∃ pre, pre ≠ [] ∧ pre <+: rest ∧ names = base ++ pre := by
  induction rest with
  | nil => exact fun h => .inl h
  | cons name rest ih =>
    intro t base h
    have hstep : (∃ pre, pre ≠ [] ∧ pre <+: rest ∧ names = base ++ [name] ++ pre) →
        ∃ pre, pre ≠ [] ∧ pre <+: name :: rest ∧ names = base ++ pre := by
      rintro ⟨pre, -, ⟨after, rfl⟩, rfl⟩
      exact ⟨name :: pre, List.cons_ne_nil _ _, ⟨after, rfl⟩, List.append_assoc _ _ _⟩
    rw [makeFrom] at h
    split at h
    · exact .inl h
    · split at h
      · exact (ih h).imp_right hstep
      · rcases ih h with hmem | hbelow
        · rcases List.mem_cons.mp hmem with rfl | hmem
          · exact .inr ⟨[name], List.cons_ne_nil _ _, ⟨rest, rfl⟩, rfl⟩
          · exact .inl hmem
        · exact .inr (hstep hbelow)

/-! ### Entries -/

/-- **Names lead nowhere** if no file is on the way and nothing at its end. -/
theorem entryFrom_eq_missing (hsome : rest ≠ []) (hlong : ∀ name ∈ rest, isLong name = false)
    (hfree : ∀ pre, pre ≠ [] → pre <+: rest → t.file? (base ++ pre) = none)
    (hend : base ++ rest ∉ t.directories) : t.entryFrom base rest = .missing := by
  induction rest generalizing base with
  | nil => exact absurd rfl hsome
  | cons name rest ih =>
    have hhere : t.file? (base ++ [name]) = none :=
      hfree [name] (List.cons_ne_nil _ _) ⟨rest, rfl⟩
    rw [entryFrom, hlong name List.mem_cons_self, hhere]
    dsimp only
    rw [if_neg Bool.false_ne_true]
    split
    · rename_i hmem
      have hmore : rest ≠ [] := by
        rintro rfl
        exact hend (List.contains_iff_mem.mp hmem)
      refine ih hmore (fun other hother => hlong other (List.mem_cons_of_mem _ hother)) ?_ ?_
      · rintro pre - ⟨after, rfl⟩
        rw [List.append_assoc]
        exact hfree (name :: pre) (List.cons_ne_nil _ _) ⟨after, rfl⟩
      · rw [List.append_assoc]
        exact hend
    · rfl

/-- **Names lead to a file if all but the last are a way**, and the last is the file's. -/
theorem entryFrom_eq_file_iff : t.entryFrom base (rest ++ [name]) = .file content
    ↔ t.IsWay base rest ∧ isLong name = false
      ∧ t.file? (base ++ (rest ++ [name])) = some content := by
  induction rest generalizing base with
  | nil =>
    rw [List.nil_append, entryFrom]
    cases hlong : isLong name <;> cases hfile : t.file? (base ++ [name]) <;>
      simp [IsWay]
    split <;> simp [entryFrom]
  | cons first rest ih =>
    rw [List.cons_append, entryFrom, IsWay]
    have hassoc : base ++ (first :: (rest ++ [name])) = base ++ [first] ++ (rest ++ [name]) := by
      simp
    rw [hassoc]
    cases hlong : isLong first <;> cases hfile : t.file? (base ++ [first]) <;>
      simp only [Bool.false_eq_true, if_false, if_true, true_and, false_and, reduceCtorEq]
    · by_cases hmem : base ++ [first] ∈ t.directories
      · rw [if_pos (List.contains_iff_mem.mpr hmem), ih]
        simp only [hmem, true_and]
      · rw [if_neg (by rwa [List.contains_iff_mem])]
        simp [hmem]
    · have hrest : (rest ++ [name]).isEmpty = false := by simp
      simp [hrest]

theorem entry_mono (hfiles : t'.files = t.files) (hdirs : t.directories ⊆ t'.directories)
    (h : t.entry (rest ++ [name]) = .file content) : t'.entry (rest ++ [name]) = .file content := by
  obtain ⟨hway, hlong, hfile⟩ := entryFrom_eq_file_iff.mp h
  refine entryFrom_eq_file_iff.mpr ⟨hway.mono hfiles hdirs, hlong, ?_⟩
  rw [file?, hfiles]
  exact hfile

/-- **A file is not lost by writing another** where there was no directory. -/
theorem entry_writeFile_of_ne {written : Blob} (hne : rest ++ [name] ≠ names)
    (hnames : names ≠ []) (hfree : t.entry names ≠ .directory)
    (h : t.entry (rest ++ [name]) = .file content) :
    (t.writeFile names written).entry (rest ++ [name]) = .file content := by
  obtain ⟨hway, hlong, hfile⟩ := entryFrom_eq_file_iff.mp h
  refine entryFrom_eq_file_iff.mpr ⟨hway.writeFile ?_, hlong, ?_⟩
  · rintro pre - ⟨after, rfl⟩ rfl
    exact hfree hway.of_append.entryFrom
  · rw [List.nil_append] at hfile ⊢
    rw [file?_writeFile_of_ne hne]
    exact hfile

theorem entry_removeFile_of_ne (hne : rest ++ [name] ≠ names)
    (h : t.entry (rest ++ [name]) = .file content) :
    (t.removeFile names).entry (rest ++ [name]) = .file content := by
  obtain ⟨hway, hlong, hfile⟩ := entryFrom_eq_file_iff.mp h
  refine entryFrom_eq_file_iff.mpr ⟨hway.removeFile, hlong, ?_⟩
  rw [List.nil_append] at hfile ⊢
  rw [file?_removeFile_of_ne hne]
  exact hfile

/-- What is written behind a way is found there. -/
theorem entry_writeFile_self (hway : t.IsWay [] rest) (hlong : isLong name = false) :
    (t.writeFile (rest ++ [name]) content).entry (rest ++ [name]) = .file content := by
  refine entryFrom_eq_file_iff.mpr ⟨hway.writeFile ?_, hlong, ?_⟩
  · rintro pre - ⟨after, rfl⟩ hsame
    have hlength := congrArg List.length hsame
    simp only [List.nil_append, List.length_append, List.length_cons, List.length_nil] at hlength
    omega
  · exact file?_writeFile_self

end SharedMemos.Storage.Tree
