import SharedMemos.Proofs.Server.Keys

/-!
# Scratch files of uploads

A session that the server fills has a scratch file, and a second one if a picture has been sent for
the thumbnail. The paths of both are made of the name of the session: of one session they differ in
how they end, and of two sessions in the name (`IsFileOf.id_eq`). So whoever writes only where the
name of a session leads does not touch the files of any other.

That holds for open sessions as long as their names differ, which the database sees to. A file is
written before the row of its session is added, though, and there a name that comes again would
do harm (`Source.NeverRepeatsSessions`).

## Main definitions

* `IsFileOf` — the paths that are made of a name
* `Upload.Session.Keeps` — the scratch files of a session
* `Footprint.filing` — steps that change one scratch file

## Main results

* `IsFileOf.id_eq` — a path tells whose it is
* `writeScratch_filing`, `writeScratchAt_filing`, `removeScratch_filing`
-/

namespace SharedMemos

open SharedMemos.Storage SharedMemos.Upload

/-- The session has a scratch file at the path. -/
def Upload.Session.Keeps (x : Session) (path : String) : Prop :=
  x.target = .scratch path ∨ x.thumbnailPath = some path

namespace Server

/-! ### Paths -/

/-- The path is one of those that are made of the name of a session. -/
def IsFileOf (directory id path : String) : Prop :=
  path = scratchPath directory id ".part" ∨ path = scratchPath directory id ".thumb"

variable {directory id id' path other : String}

theorem scratchPath_ends {mark mark' : String}
    (h : scratchPath directory id mark = scratchPath directory id' mark') :
    id.toList ++ mark.toList = id'.toList ++ mark'.toList := by
  have hlist := congrArg String.toList h
  simp only [scratchPath, String.toList_append, List.append_assoc] at hlist
  exact List.append_cancel_left (List.append_cancel_left hlist)

/-- The two ways in which paths end are different. -/
theorem scratchPath_ne : scratchPath directory id ".part" ≠ scratchPath directory id' ".thumb" := by
  intro h
  have hlast := congrArg List.getLast? (scratchPath_ends h)
  rw [List.getLast?_append, List.getLast?_append] at hlast
  have hends : some 't' = some 'b' := hlast
  exact absurd hends (by decide)

theorem scratchPath_inj {mark : String}
    (h : scratchPath directory id mark = scratchPath directory id' mark) : id = id' :=
  String.toList_injective (List.append_cancel_right (scratchPath_ends h))

/-- **A path tells whose it is.** -/
theorem IsFileOf.id_eq (h : IsFileOf directory id path) (h' : IsFileOf directory id' path) :
    id = id' := by
  rcases h with rfl | rfl <;> rcases h' with h' | h'
  · exact scratchPath_inj h'
  · exact absurd h' scratchPath_ne
  · exact absurd h'.symm scratchPath_ne
  · exact scratchPath_inj h'

/-! ### Changing files -/

/-- Steps that change the scratch file at a path, and nothing else. -/
def Footprint.filing (path : String) : Footprint State where
  rel s t :=
    t.holdings = { s.holdings with scratch := t.scratch }
      ∧ s.draws ≤ t.draws
      ∧ ∀ other, other ≠ path → t.scratch? other = s.scratch? other
  refl _ := ⟨rfl, Nat.le_refl _, fun _ _ => rfl⟩
  trans := by
    rintro s t u ⟨hst, hdraws, hkept⟩ ⟨htu, hdraws', hkept'⟩
    refine ⟨?_, Nat.le_trans hdraws hdraws', fun other hne => ?_⟩
    · rw [htu, hst]
    · rw [hkept' other hne, hkept other hne]

variable {s : State}

theorem scratch?_withoutScratch_of_ne (h : other ≠ path) :
    (s.withoutScratch path).scratch? other = s.scratch? other := by
  show (List.find? _ (s.scratch.filter (·.1 != path))).map _ = _
  rw [find?_filter_of_ne h]
  rfl

theorem scratch?_withScratch_of_ne {content : Scratch} (h : other ≠ path) :
    (s.withScratch path content).scratch? other = s.scratch? other := by
  show (List.find? _ ((path, content) :: s.scratch.filter (·.1 != path))).map _ = _
  rw [find?_cons_of_ne h, find?_filter_of_ne h]
  rfl

theorem writeScratch_filing (path : String) (content : Blob) :
    (writeScratch path content).Within (Footprint.filing path) := by
  intro s
  rw [writeScratch, Attempt.exec_atomic]
  split
  · exact Footprint.refl _ s
  · exact ⟨rfl, Nat.le_refl _, fun other => scratch?_withScratch_of_ne⟩

theorem writeScratchAt_filing (path : String) (offset : Nat) (bytes : ByteArray) :
    (writeScratchAt path offset bytes).Within (Footprint.filing path) := by
  intro s
  rw [writeScratchAt, Attempt.exec_atomic]
  split
  · exact ⟨rfl, Nat.le_refl _, fun other => scratch?_withScratch_of_ne⟩
  · exact Footprint.refl _ s

theorem removeScratch_filing (path : String) :
    (removeScratch path).Within (Footprint.filing path) := by
  intro s
  rw [removeScratch, Attempt.exec_atomic]
  split
  · exact Footprint.refl _ s
  · exact ⟨rfl, Nat.le_refl _, fun other => scratch?_withoutScratch_of_ne⟩

/-! ### Names of sessions -/

/-- The name for a session that comes with a draw. -/
def Source.sessionName (source : Source) (draw : Nat) : String :=
  source.name draw Limit.sessionIdLength

/-- No two names for sessions from the first draw up to the last are the same. -/
def Source.NeverRepeatsSessions (source : Source) (first last : Nat) : Prop :=
  ∀ i j, first ≤ i → i < j → j < last → source.sessionName i ≠ source.sessionName j

/-- The name was drawn for a session, from the first draw up to the next. -/
def Source.HasNamed (source : Source) (first next : Nat) (id : String) : Prop :=
  ∃ i, first ≤ i ∧ i < next ∧ id = source.sessionName i

theorem Source.HasNamed.mono {source : Source} {first next next' : Nat}
    (h : source.HasNamed first next id) (hle : next ≤ next') : source.HasNamed first next' id := by
  obtain ⟨i, hfirst, hi, hname⟩ := h
  exact ⟨i, hfirst, by omega, hname⟩

/-- Names that count up do not come again. -/
theorem numberedServer_neverRepeatsSessions (first last : Nat) :
    numberedServer.source.NeverRepeatsSessions first last := by
  intro i j _ hij _ hsame
  have heq : i = j := Text.showPadded_injective hsame
  omega

end Server

end SharedMemos
