import SharedMemos.Proofs.Server.Uploads.Commit
import SharedMemos.Proofs.Server.Uploads.Contracts

/-!
# Releasing what sessions hold

When a session is removed, its row goes first, and then what it has gathered: its scratch files, the
object that its client has stored, or an upload in parts. An object is only removed if no attachment
uses its key.

All of that only lets go of things (`State.LetsGo`). So what has been released once stays released
while other sessions are, and whatever fails does not keep the others from being released.

## Main definitions

* `State.LetsGo` — what may be different after sessions have been removed
* `IsReleased` — what a session held is gone
* `release`, `releaseAll` — removing one session, and many one after the other

## Main results

* `releaseObject_exec`, `abortParts_exec` — what a client has stored is removed
* `releaseSession_exec` — releasing a session only lets go of what it holds
* `releaseAll_exec` — whatever fails, all sessions are removed and released
-/

namespace SharedMemos.Server

open SharedMemos.Storage SharedMemos.Upload Attempt

variable {s t u : State} {x : Session} {xs : List Session}

/-! ### Letting go -/

/-- What may be different after sessions have been removed: scratch files, objects of the store and
uploads in parts may be gone, but none has come, and the keys of attachments have their objects. -/
structure State.LetsGo (s t : State) : Prop where
  attachments : t.database.attachments = s.database.attachments
  mishaps : t.database.mishaps = s.database.mishaps
  disk : t.disk = s.disk
  files : ∀ path, s.HasNoFile path → t.HasNoFile path
  objects : ∀ key, s.store.object? key = none → t.store.object? key = none
  uploads : ∀ id, s.store.upload? id = none → t.store.upload? id = none
  kept : ∀ key, s.database.usesKey key = true → t.store.object? key = s.store.object? key

theorem usesKey_of_attachments {d d' : Database} (h : d'.attachments = d.attachments)
    (key : String) : d'.usesKey key = d.usesKey key := by
  rw [Database.usesKey, Database.usesKey, h]

theorem usesKey_of_mem {d : Database} {a : Attachment} {key : String} (ha : a ∈ d.attachments)
    (hkey : key ∈ objectKeys a) : d.usesKey key = true := by
  refine List.any_eq_true.mpr ⟨a, ha, ?_⟩
  rcases List.mem_cons.mp hkey with rfl | hthumbnail
  · rw [beq_self_eq_true, Bool.true_or]
  · rw [Option.mem_toList, Option.map_eq_some_iff] at hthumbnail
    obtain ⟨thumbnail, hsome, rfl⟩ := hthumbnail
    rw [hsome, Option.map_some, beq_self_eq_true, Option.getD_some, Bool.or_true]

namespace State.LetsGo

theorem refl (s : State) : s.LetsGo s :=
  ⟨rfl, rfl, rfl, fun _ h => h, fun _ h => h, fun _ h => h, fun _ _ => rfl⟩

theorem trans (hst : s.LetsGo t) (htu : t.LetsGo u) : s.LetsGo u where
  attachments := htu.attachments.trans hst.attachments
  mishaps := htu.mishaps.trans hst.mishaps
  disk := htu.disk.trans hst.disk
  files path h := htu.files path (hst.files path h)
  objects key h := htu.objects key (hst.objects key h)
  uploads id h := htu.uploads id (hst.uploads id h)
  kept key h :=
    (htu.kept key ((usesKey_of_attachments hst.attachments key).trans h)).trans (hst.kept key h)

/-- Statements go on to be carried out. -/
theorem works (h : s.LetsGo t) {table : Table} {writing : Writing}
    (hworks : s.database.mishap? table writing = none) :
    t.database.mishap? table writing = none := by
  rw [Database.mishap?, h.mishaps]
  exact hworks

/-- An object at a key that an attachment uses stays, in whatever store. -/
theorem object?_eq (h : s.LetsGo t) {key : String} (huses : s.database.usesKey key = true)
    (kind : Kind) : t.object? kind key = s.object? kind key := by
  cases kind with
  | disk =>
    show (Disk.open t.disk key).toOption = (Disk.open s.disk key).toOption
    rw [h.disk]
  | bucket => exact h.kept key huses

end State.LetsGo

/-- Steps that only let go of things, and leave the rows of sessions alone. -/
def Footprint.releasing : Footprint State where
  rel s t := s.LetsGo t ∧ t.database.sessions = s.database.sessions
  refl s := ⟨.refl s, rfl⟩
  trans h h' := ⟨h.1.trans h'.1, h'.2.trans h.2⟩

theorem releasing_of_unasked (h : Footprint.unasked.rel s t) : Footprint.releasing.rel s t := by
  obtain ⟨⟨hholdings, -⟩, hstore⟩ := h
  refine ⟨?_, congrArg Holdings.sessions hholdings⟩
  refine ⟨congrArg Holdings.attachments hholdings, congrArg Holdings.mishaps hholdings,
    congrArg Holdings.disk hholdings, fun path hnone content => ?_, ?_, ?_, ?_⟩
  · rw [scratch?_of_holdings hholdings]
    exact hnone content
  · exact fun key hnone => hstore ▸ hnone
  · exact fun id hnone => hstore ▸ hnone
  · exact fun key _ => hstore ▸ rfl

theorem removeScratch_releasing (path : String) :
    (removeScratch path).Within Footprint.releasing := by
  intro s
  have hothers : ((removeScratch path).exec s).2
      = { s with scratch := ((removeScratch path).exec s).2.scratch } :=
    removeScratch_clearing path s
  refine ⟨?_, ?_⟩
  · refine ⟨?_, ?_, ?_, fun other h => h.removeScratch path, ?_, ?_, ?_⟩
    · rw [hothers]
    · rw [hothers]
    · rw [hothers]
    · exact fun key h => by rw [hothers]; exact h
    · exact fun id h => by rw [hothers]; exact h
    · exact fun key _ => by rw [hothers]
  · rw [hothers]

theorem clientStore_unasked : clientStore.Within Footprint.unasked :=
  .bind storageSetting_unasked fun _ => backendFor_unasked _ _

/-- Uploads by clients do not go to the directory. -/
theorem clientStore_spec {b : Backend} (h : clientStore.exec s = (.ok b, t)) : b ≠ .disk := by
  rw [clientStore, exec_bind_eq_ok] at h
  obtain ⟨setting, u, -, hbackend⟩ := h
  rintro rfl
  rcases backendFor_spec hbackend with ⟨-, htied⟩ | ⟨-, -, hkind⟩
  · cases htied
  · cases hkind

/-- Removing an object that no attachment uses only lets go of it. -/
theorem delete_lets {key : String} (hfree : s.database.usesKey key = false) :
    Footprint.releasing.rel s { s with store := (s.store.delete key).2 } := by
  refine ⟨⟨rfl, rfl, rfl, fun _ h => h, fun other hnone => ?_, fun id hnone => ?_,
    fun other huses => ?_⟩, rfl⟩
  · by_cases hsame : other = key
    · subst hsame
      exact ObjectStore.object?_delete_of_none hnone
    · exact (ObjectStore.object?_delete_of_ne hsame).trans hnone
  · show (s.store.delete key).2.upload? id = none
    rw [ObjectStore.upload?, ObjectStore.delete_uploads]
    exact hnone
  · refine ObjectStore.object?_delete_of_ne ?_
    rintro rfl
    exact Bool.false_ne_true (hfree.symm.trans huses)

/-- Giving up an upload in parts only lets go of it. -/
theorem abortUpload_lets (key id : String) :
    Footprint.releasing.rel s { s with store := (s.store.abortUpload key id).2 } := by
  have hobjects : ∀ other, (s.store.abortUpload key id).2.object? other = s.store.object? other :=
    ObjectStore.object?_of_objects ObjectStore.abortUpload_objects
  exact ⟨⟨rfl, rfl, rfl, fun _ h => h, fun other hnone => (hobjects other).trans hnone,
    fun _ => ObjectStore.upload?_abortUpload_of_none, fun other _ => hobjects other⟩, rfl⟩

/-- **An object that a client has stored is removed unless an attachment uses it.** -/
theorem releaseObject_exec (key : String) (s : State) :
    ∃ result t, (releaseObject key).exec s = (result, t) ∧ Footprint.releasing.rel s t
      ∧ (result = .ok () → t.database.usesKey key = true ∨ t.store.object? key = none) := by
  have hquery : (query (·.usesKey key)).exec s = (.ok (s.database.usesKey key), s) := rfl
  rw [releaseObject, exec_bind_of_ok hquery]
  cases huses : s.database.usesKey key with
  | true => exact ⟨_, _, rfl, Footprint.refl _ s, fun _ => .inl huses⟩
  | false =>
    rw [if_neg Bool.false_ne_true]
    rcases hstore : clientStore.exec s with ⟨e | b, u⟩
    · exact ⟨_, _, exec_bind_of_error hstore,
        releasing_of_unasked (clientStore_unasked.of_exec hstore), fun h => nomatch h⟩
    · have hunasked := releasing_of_unasked (clientStore_unasked.of_exec hstore)
      rw [exec_bind_of_ok hstore]
      cases b with
      | disk => exact absurd rfl (clientStore_spec hstore)
      | bucket c => exact ⟨_, _, rfl, hunasked, fun h => nomatch h⟩
      | tied =>
        have hfree : u.database.usesKey key = false :=
          (usesKey_of_attachments hunasked.1.attachments key).trans huses
        refine ⟨_, _, rfl, Footprint.trans _ hunasked (delete_lets hfree), fun hok => .inr ?_⟩
        exact ObjectStore.object?_delete (Prod.ext hok rfl)

/-- **An upload in parts is given up.** -/
theorem abortParts_exec (key id : String) (s : State) :
    ∃ result t, (abortParts key id).exec s = (result, t) ∧ Footprint.releasing.rel s t
      ∧ (result = .ok () → t.store.upload? id = none) := by
  rw [abortParts]
  rcases hstore : clientStore.exec s with ⟨e | b, u⟩
  · exact ⟨_, _, exec_bind_of_error hstore,
      releasing_of_unasked (clientStore_unasked.of_exec hstore), fun h => nomatch h⟩
  · have hunasked := releasing_of_unasked (clientStore_unasked.of_exec hstore)
    rw [exec_bind_of_ok hstore]
    cases b with
    | disk => exact ⟨_, _, rfl, hunasked, fun h => nomatch h⟩
    | bucket c => exact ⟨_, _, rfl, hunasked, fun h => nomatch h⟩
    | tied =>
      refine ⟨_, _, rfl, Footprint.trans _ hunasked (abortUpload_lets key id), fun hok => ?_⟩
      exact ObjectStore.upload?_abortUpload (Prod.ext hok rfl)

/-! ### One session -/

/-- What a session held is gone: its scratch files in any case, and what its client has stored
unless the release failed. An object that attachments use is not held by the session. -/
structure IsReleased (x : Session) (outcome : Except Error Unit) (t : State) : Prop where
  files : ∀ path, x.Keeps path → t.HasNoFile path
  object : ∀ key, x.target = .direct key → outcome = .ok () →
    t.database.usesKey key = true ∨ t.store.object? key = none
  upload : ∀ key id partSize, x.target = .multipart key id partSize → outcome = .ok () →
    t.store.upload? id = none

/-- What is gone does not come back. -/
theorem IsReleased.mono {outcome : Except Error Unit} (h : IsReleased x outcome t)
    (hlets : t.LetsGo u) : IsReleased x outcome u where
  files path hat := hlets.files path (h.files path hat)
  object key htarget hok := by
    rw [usesKey_of_attachments hlets.attachments]
    exact (h.object key htarget hok).imp_right (hlets.objects key)
  upload key id partSize htarget hok := hlets.uploads id (h.upload key id partSize htarget hok)

theorem releaseThumbnail_exec (x : Session) (s : State) :
    ∃ result t, (releaseThumbnail x).exec s = (result, t) ∧ Footprint.releasing.rel s t
      ∧ ∀ path, x.thumbnailPath = some path → t.HasNoFile path := by
  rw [releaseThumbnail]
  split
  · rename_i path hpath
    refine ⟨_, _, rfl, removeScratch_releasing path s, fun other hother => ?_⟩
    obtain rfl := Option.some.inj (hpath.symm.trans hother)
    exact removeScratch_hasNoFile path s
  · rename_i hnone
    refine ⟨_, _, rfl, Footprint.refl _ s, fun path hpath => ?_⟩
    exact absurd (hnone.symm.trans hpath) (Option.some_ne_none path).symm

theorem releaseTarget_exec (target : Target) (s : State) :
    ∃ result t, (releaseTarget target).exec s = (result, t) ∧ Footprint.releasing.rel s t
      ∧ (∀ path, target = .scratch path → t.HasNoFile path)
      ∧ (∀ key, target = .direct key → result = .ok () →
        t.database.usesKey key = true ∨ t.store.object? key = none)
      ∧ ∀ key id partSize, target = .multipart key id partSize → result = .ok () →
        t.store.upload? id = none := by
  cases target with
  | scratch path =>
    refine ⟨_, _, rfl, removeScratch_releasing path s, ?_, fun _ => Target.noConfusion,
      fun _ _ _ => Target.noConfusion⟩
    rintro _ ⟨⟩
    exact removeScratch_hasNoFile path s
  | direct key =>
    obtain ⟨result, t, hexec, hrel, hgone⟩ := releaseObject_exec key s
    refine ⟨result, t, hexec, hrel, fun _ => Target.noConfusion, ?_, fun _ _ _ => Target.noConfusion⟩
    rintro _ ⟨⟩
    exact hgone
  | multipart key id partSize =>
    obtain ⟨result, t, hexec, hrel, hgone⟩ := abortParts_exec key id s
    refine ⟨result, t, hexec, hrel, fun _ => Target.noConfusion, fun _ => Target.noConfusion, ?_⟩
    rintro _ _ _ ⟨⟩
    exact hgone

/-- **Releasing a session tries everything**, and only lets go of things. -/
theorem releaseSession_exec (x : Session) (s : State) :
    ∃ outcome t, (releaseSession x).exec s = (outcome, t) ∧ Footprint.releasing.rel s t
      ∧ IsReleased x outcome t := by
  obtain ⟨thumbnail, s₁, hthumbnail, hrel₁, hpicture⟩ := releaseThumbnail_exec x s
  obtain ⟨target, s₂, htarget, hrel₂, hfile, hobject, hupload⟩ := releaseTarget_exec x.target s₁
  have hexec : (releaseSession x).exec s = (thumbnail >>= fun _ => target, s₂) := by
    rw [releaseSession, exec_outcome_bind, hthumbnail, exec_outcome_bind, htarget, exec_ofExcept]
  have hok : (thumbnail >>= fun _ => target) = .ok () → target = .ok () := by
    cases thumbnail with
    | error e => exact fun h => nomatch h
    | ok done => exact fun h => h
  refine ⟨_, s₂, hexec, Footprint.trans _ hrel₁ hrel₂, ?_, ?_, ?_⟩
  · rintro path (hat | hat)
    · exact hfile path hat
    · exact hrel₂.1.files path (hpicture path hat)
  · exact fun key hkey h => hobject key hkey (hok h)
  · exact fun key id partSize hkey h => hupload key id partSize hkey (hok h)

/-- Removes a session and releases what it holds; tells what has come of that. -/
def release (x : Session) : Action (Except Error Unit) := do
  let _ ← transact (Database.deleteSession x.id)
  (releaseSession x).outcome

theorem release_exec (hworks : s.database.mishap? .session .delete = none) (x : Session) :
    ∃ outcome t, (release x).exec s = (.ok outcome, t) ∧ s.LetsGo t
      ∧ t.database.sessions = s.database.sessions.filter (·.id != x.id)
      ∧ IsReleased x outcome t := by
  obtain ⟨isDone, hrun⟩ := Database.run_deleteSession_of_works hworks x.id
  have hrow : (transact (Database.deleteSession x.id)).exec s = (.ok isDone, { s with
      database := { s.database with sessions := s.database.sessions.filter (·.id != x.id) } }) := by
    rw [transact, exec_atomic, hrun]
  obtain ⟨outcome, t, hexec, ⟨hlets, hsessions⟩, hreleased⟩ := releaseSession_exec x
    { s with database := { s.database with sessions := s.database.sessions.filter (·.id != x.id) } }
  refine ⟨outcome, t, ?_, ?_, hsessions, hreleased⟩
  · rw [release, exec_bind_of_ok hrow, exec_outcome, hexec]
  · exact ⟨hlets.attachments, hlets.mishaps, hlets.disk, hlets.files, hlets.objects, hlets.uploads,
      hlets.kept⟩

/-! ### Many sessions -/

/-- Removes sessions one after the other and releases what they hold; tells what has come of each
release. -/
def releaseAll : List Session → Action (List (Except Error Unit))
  | [] => return []
  | x :: xs => do
    let outcome ← release x
    let outcomes ← releaseAll xs
    return outcome :: outcomes

/-- The rows without those of some sessions. -/
def without (rows gone : List Session) : List Session :=
  rows.filter fun x => !(gone.map (·.id)).contains x.id

theorem without_nil (rows : List Session) : without rows [] = rows :=
  List.filter_eq_self.mpr fun _ _ => rfl

theorem without_cons (rows : List Session) (x : Session) (xs : List Session) :
    without rows (x :: xs) = without (rows.filter (·.id != x.id)) xs := by
  rw [without, without, List.filter_filter]
  refine List.filter_congr fun y _ => ?_
  rw [List.map_cons, List.contains_cons, Bool.not_or, Bool.and_comm]
  rfl

theorem exec_releaseAll_cons {outcome : Except Error Unit} {outcomes : List (Except Error Unit)}
    (hfirst : (release x).exec s = (.ok outcome, t))
    (hrest : (releaseAll xs).exec t = (.ok outcomes, u)) :
    (releaseAll (x :: xs)).exec s = (.ok (outcome :: outcomes), u) := by
  rw [releaseAll, exec_bind_of_ok hfirst, exec_bind_of_ok hrest, exec_pure]

/-- **Whatever fails, all sessions are removed and released.** -/
theorem releaseAll_exec (hworks : s.database.mishap? .session .delete = none) (xs : List Session) :
    ∃ outcomes t, (releaseAll xs).exec s = (.ok outcomes, t) ∧ s.LetsGo t
      ∧ t.database.sessions = without s.database.sessions xs ∧ outcomes.length = xs.length
      ∧ ∀ p ∈ xs.zip outcomes, IsReleased p.1 p.2 t := by
  induction xs generalizing s with
  | nil => exact ⟨[], s, rfl, .refl s, (without_nil _).symm, rfl, fun p hp => nomatch hp⟩
  | cons x xs ih =>
    obtain ⟨outcome, u, hfirst, hlets, hrows, hreleased⟩ := release_exec hworks x
    obtain ⟨outcomes, t, hrest, hlets', hrows', hlength, hall⟩ := ih (hlets.works hworks)
    refine ⟨_, t, exec_releaseAll_cons hfirst hrest, hlets.trans hlets', ?_, ?_, ?_⟩
    · rw [hrows', hrows, without_cons]
    · rw [List.length_cons, List.length_cons, hlength]
    · intro p hp
      rcases List.mem_cons.mp hp with rfl | hp
      · exact hreleased.mono hlets'
      · exact hall p hp

theorem exec_releaseAll_append {ys : List Session} {outcomes outcomes' : List (Except Error Unit)}
    (hxs : (releaseAll xs).exec s = (.ok outcomes, t))
    (hys : (releaseAll ys).exec t = (.ok outcomes', u)) :
    (releaseAll (xs ++ ys)).exec s = (.ok (outcomes ++ outcomes'), u) := by
  induction xs generalizing s outcomes with
  | nil =>
    cases hxs
    exact hys
  | cons x xs ih =>
    rw [releaseAll, exec_bind_eq_ok] at hxs
    obtain ⟨outcome, s₁, hfirst, hxs⟩ := hxs
    rw [exec_bind_eq_ok] at hxs
    obtain ⟨rest, s₂, hrest, hdone⟩ := hxs
    cases hdone
    exact exec_releaseAll_cons hfirst (ih hrest)

end SharedMemos.Server
