import SharedMemos.Proofs.Server.Uploads.Closing

/-!
# Races between completing an upload and giving it up

Requests to complete or to cancel an upload come one after the other, and the sweep works on its
own. Both can find the upload open, and what they have found out may be out of date when they act on
it. Only one thing can go wrong: one request has found the object and is bound to add its row, while
another has found no row and is bound to remove the object. From then on nothing stops either of
them, and if the row is added it is left without its object (`keepsObjects_fails_crossing`). Unless
that comes about, all attachments keep their objects, in whatever order the steps are taken.

The order of the steps is a list of turns, and any order of the steps is that of some list
(`Job.together_iff_after`). Between two steps each request relies on what it has found out, and a
step of the other leaves that as it is (`Stands.moves`). Where requests are opposed, this is lost for
the key of the upload only, so that it is said of some places at a time.

## Main definitions

* `working`, `race` — requests one after the other, and two such sequences at once
* `Turn.Closes` — the ways to close an upload
* `Pair.IsOpposed` — one is adding and the other is removing
* `Stands` — what holds between any two steps

## Main results

* `Stands.moves`, `Stands.after` — what a step keeps, and what is kept in the end
* `Pair.IsAt.gone_after` — what is to be removed is gone in the end
* `keepsObjects_iff` — when all attachments keep their objects
-/

namespace SharedMemos.Server

open SharedMemos.Storage SharedMemos.Upload

/-- Requests one after the other, whether they succeed or fail. -/
def working (turns : List Turn) : Job State Unit :=
  Job.inTurn (turns.map fun turn => ExceptT.run turn.act)

/-- Alone, they leave what the turns leave. -/
theorem run_working (turns : List Turn) (s : State) :
    ((working turns).run s).2 = s.after turns := by
  induction turns generalizing s with
  | nil => rfl
  | cons turn turns ih =>
    show (Job.run (Job.bind (ExceptT.run turn.act) fun _ => working turns) s).2 = _
    rw [Job.run_bind]
    exact ih _

/-- The turns that close an upload. -/
inductive Turn.Closes (id : String) : Turn → Prop where
  | complete (viewer : Viewer) : Closes id (.completeSession viewer id)
  | cancel (viewer : Viewer) : Closes id (.cancelSession viewer id)
  | sweep (time : Instant) : Closes id (.sweepExpired time)

variable {α : Type} {id key : String} {s t : State} {p p' q : Phase} {c : Pair State α}

theorem Turn.Closes.leads {turn : Turn} (h : turn.Closes id) :
    Leads id key .calm turn.act (Calmly fun _ => True) := by
  cases h with
  | complete viewer =>
    exact (completeSession_leads viewer).bind_calmly fun _ _ => .pure_calmly trivial
  | cancel viewer => exact cancelSession_leads viewer
  | sweep time => exact (sweepExpired_leads time).bind_calmly fun _ _ => .pure_calmly trivial

theorem conforms_working {turns : List Turn} (h : ∀ turn ∈ turns, turn.Closes id) :
    Conforms id key .calm (working turns) := by
  induction turns with
  | nil => exact .done ()
  | cons turn turns ih =>
    refine (h turn List.mem_cons_self).leads _ (fun _ => working turns) ?_
    rintro r q ⟨rfl, -⟩
    exact ih fun turn hturn => h turn (List.mem_cons_of_mem _ hturn)

/-! ### Opposed requests -/

/-- Is one of the jobs bound to add a row whose object is at the key, while the other is bound to
remove the object? -/
def Pair.IsOpposed (id key : String) (c : Pair State α) : Prop :=
  IsAdding id key c.first ∧ IsRemoving id key key c.second
    ∨ IsRemoving id key key c.first ∧ IsAdding id key c.second

/-- Phases of opposed requests. -/
def Phase.Opposes (key : String) (p q : Phase) : Prop :=
  p = .adding ∧ q = .removing key ∨ p = .removing key ∧ q = .adding

/-- The jobs conform in their phases, and the server hosts the upload. -/
structure Pair.IsAt (id key : String) (p q : Phase) (c : Pair State α) : Prop where
  first : Conforms id key p c.first
  second : Conforms id key q c.second
  hosts : c.state.Hosts id key

/-- What a turn does: nothing, or a step of one of the jobs. -/
inductive Turned (key : String) (s t : State) (p q : Phase) : Phase → Phase → Prop where
  | idle (h : t = s) : Turned key s t p q p q
  | first {p' : Phase} (h : Moves key s t p p') : Turned key s t p q p' q
  | second {q' : Phase} (h : Moves key s t q q') : Turned key s t p q p q'

namespace Pair.IsAt

theorem isOpposed (h : c.IsAt id key p q) (hopposed : p.Opposes key q) : c.IsOpposed id key := by
  rcases hopposed with ⟨rfl, rfl⟩ | ⟨rfl, rfl⟩
  · exact .inl ⟨h.first.binds, h.second.binds⟩
  · exact .inr ⟨h.first.binds, h.second.binds⟩

theorem exists_turned (h : c.IsAt id key p q) (side : Side) :
    ∃ p' q', (c.turn side).IsAt id key p' q'
      ∧ Turned key c.state (c.turn side).state p q p' q' := by
  obtain ⟨a, b, s⟩ := c
  cases side with
  | first =>
    cases a with
    | done r => exact ⟨p, q, h, .idle rfl⟩
    | step change next =>
      obtain ⟨p', hmoves, hnext⟩ := h.first.of_step h.hosts
      exact ⟨p', q, ⟨hnext, h.second, hmoves.keeps.hosts h.hosts⟩, .first hmoves⟩
  | second =>
    cases b with
    | done r => exact ⟨p, q, h, .idle rfl⟩
    | step change next =>
      obtain ⟨q', hmoves, hnext⟩ := h.second.of_step h.hosts
      exact ⟨p, q', ⟨h.first, hnext, hmoves.keeps.hosts h.hosts⟩, .second hmoves⟩

theorem exists_after (h : c.IsAt id key p q) (turns : List Side) :
    ∃ p' q', (c.after turns).IsAt id key p' q' := by
  induction turns generalizing c p q with
  | nil => exact ⟨p, q, h⟩
  | cons side turns ih =>
    obtain ⟨p', q', hturn, -⟩ := h.exists_turned side
    exact ih hturn

end Pair.IsAt

/-! ### What is removed -/

/-- Is the object gone, or is one of the jobs bound to remove it? -/
def Pair.IsLosing (id key : String) (c : Pair State α) : Prop :=
  c.state.store.object? key = none ∨ IsRemoving id key key c.first ∨ IsRemoving id key key c.second

theorem IsRemoving.of_step {change : State → State} {next : State → Job State α}
    (h : IsRemoving id key key (.step change next)) (hs : s.Hosts id key) :
    (change s).store.object? key = none ∨ IsRemoving id key key (next s) := by
  rcases Job.ComesTo.of_step h with hnow | hlater
  · rw [show change = _ from hnow]
    exact .inl (ObjectStore.object?_delete_self hs.removes)
  · exact .inr (hlater s hs)

theorem Pair.IsAt.isLosing_turn (h : c.IsAt id key p q) (hlosing : c.IsLosing id key)
    (side : Side) : (c.turn side).IsLosing id key := by
  rcases hlosing with hgone | hremoving
  · obtain ⟨p', q', -, hturned⟩ := h.exists_turned side
    left
    cases hturned with
    | idle hsame =>
      rw [hsame]
      exact hgone
    | first hmoves | second hmoves => exact hmoves.gone hgone
  · obtain ⟨a, b, s⟩ := c
    cases side with
    | first =>
      cases a with
      | done r => exact .inr hremoving
      | step change next =>
        rcases hremoving with hfirst | hsecond
        · exact (hfirst.of_step h.hosts).imp_right .inl
        · exact .inr (.inr hsecond)
    | second =>
      cases b with
      | done r => exact .inr hremoving
      | step change next =>
        rcases hremoving with hfirst | hsecond
        · exact .inr (.inl hfirst)
        · exact (hsecond.of_step h.hosts).imp_right .inr

/-- **What a request is bound to remove is gone in the end.** -/
theorem Pair.IsAt.gone_after (h : c.IsAt id key p q) (hlosing : c.IsLosing id key)
    (turns : List Side) (hdone : (c.after turns).isDone = true) :
    (c.after turns).state.store.object? key = none := by
  induction turns generalizing c p q with
  | nil =>
    obtain ⟨hfirst, hsecond⟩ := Bool.and_eq_true_iff.mp hdone
    rcases hlosing with hgone | hremoving | hremoving
    · exact hgone
    · exact absurd (hremoving.isDone.symm.trans hfirst) Bool.false_ne_true
    · exact absurd (hremoving.isDone.symm.trans hsecond) Bool.false_ne_true
  | cons side turns ih =>
    obtain ⟨p', q', hturn, -⟩ := h.exists_turned side
    exact ih hturn (h.isLosing_turn hlosing side) hdone

/-! ### What is kept -/

/-- What a request relies on between its steps, as far as some places go: that the object which it
has found is still there, or that there is still no row. -/
def Phase.Holds (places : Kind × String → Prop) (key : String) (s : State) : Phase → Prop
  | .calm => True
  | .adding => places (.bucket, key) → (s.store.object? key).isSome
  | .removing k => ∀ x ∈ s.places, places x → x.2 ≠ k

/-- Attachments have their objects, as far as some places go, and two requests can rely on what they
have found out. -/
structure Stands (places : Kind × String → Prop) (key : String) (s : State) (p q : Phase) :
    Prop where
  object : ∀ x ∈ s.places, places x → (s.object? x.1 x.2).isSome
  first : p.Holds places key s
  second : q.Holds places key s

theorem State.Keeps.isSome_object? (h : s.Keeps t) {kind : Kind} {k : String}
    (hkept : kind = .bucket → (s.store.object? k).isSome → (t.store.object? k).isSome)
    (hobject : (s.object? kind k).isSome) : (t.object? kind k).isSome := by
  cases kind with
  | disk =>
    have hsame : t.object? .disk k = s.object? .disk k := by
      show (Disk.open t.disk k).toOption = (Disk.open s.disk k).toOption
      rw [h.disk]
    rwa [hsame]
  | bucket => exact hkept rfl hobject

section

variable {places : Kind × String → Prop}

theorem Stands.symm (h : Stands places key s p q) : Stands places key s q p :=
  ⟨h.object, h.second, h.first⟩

theorem Phase.Holds.gentle (h : p.Holds places key s) (hgentle : Gentle key s t) :
    p.Holds places key t := by
  cases p with
  | calm => trivial
  | adding => exact fun hkey => hgentle.kept key (h hkey)
  | removing k =>
    intro x hx
    rw [hgentle.places] at hx
    exact h x hx

theorem Stands.gentle (h : Stands places key s p q) (hgentle : Gentle key s t)
    (hfirst : p'.Holds places key t) : Stands places key t p' q where
  object x hx hplace := by
    rw [hgentle.places] at hx
    exact hgentle.isSome_object? (fun _ => hgentle.kept x.2) (h.object x hx hplace)
  first := hfirst
  second := h.second.gentle hgentle

/-- When a row is added at the key, the other request can still rely on what it has found out, unless
it is to remove the object there. -/
theorem Phase.Holds.add (h : q.Holds places key s)
    (hsame : ∀ k, t.store.object? k = s.store.object? k)
    (hplaces : ∀ x ∈ t.places, x ∈ s.places ∨ x = (.bucket, key))
    (hfree : places (.bucket, key) → q ≠ .removing key) : q.Holds places key t := by
  cases q with
  | calm => trivial
  | adding =>
    intro hkey
    rw [hsame]
    exact h hkey
  | removing k =>
    intro x hx hplace
    rcases hplaces x hx with hold | rfl
    · exact h x hold hplace
    · rintro rfl
      exact hfree hplace rfl

/-- When an object is removed, the other request can still rely on what it has found out, unless it
is to add a row for that object. -/
theorem Phase.Holds.remove {k : String} (h : q.Holds places key s) (hplaces : t.places = s.places)
    (hothers : ∀ other, other ≠ k → t.store.object? other = s.store.object? other)
    (hfree : places (.bucket, key) → key = k → q ≠ .adding) : q.Holds places key t := by
  cases q with
  | calm => trivial
  | adding =>
    intro hkey
    rw [hothers key fun hsame => hfree hkey hsame rfl]
    exact h hkey
  | removing k' =>
    intro x hx
    rw [hplaces] at hx
    exact h x hx

/-- **A step of one request leaves what both rely on**, unless they are opposed and the key is among
the places. -/
theorem Stands.moves (h : Stands places key s p q) (hmoves : Moves key s t p p')
    (hfree : places (.bucket, key) → ¬ p.Opposes key q) : Stands places key t p' q := by
  cases hmoves with
  | gentle _ hgentle => exact h.gentle hgentle (h.first.gentle hgentle)
  | find hgentle hthere => exact h.gentle hgentle fun _ => hthere
  | miss k hgentle hnone => exact h.gentle hgentle fun x hx _ => hnone x hx
  | add hkeeps hobjects hadded =>
    have hsame : ∀ k, t.store.object? k = s.store.object? k :=
      ObjectStore.object?_of_objects hobjects
    have hplaces : ∀ x ∈ t.places, x ∈ s.places ∨ x = (.bucket, key) := by
      intro x hx
      rcases hadded with hold | hnew
      · exact .inl (hold ▸ hx)
      · exact (List.mem_cons.mp (hnew ▸ hx)).symm
    refine ⟨fun x hx hplace => ?_, trivial, h.second.add hsame hplaces ?_⟩
    · rcases hplaces x hx with hold | rfl
      · exact hkeeps.isSome_object? (fun _ hthere => hsame x.2 ▸ hthere) (h.object x hold hplace)
      · show (t.store.object? key).isSome = true
        rw [hsame]
        exact h.first hplace
    · exact fun hkey hremoving => hfree hkey (.inl ⟨rfl, hremoving⟩)
  | remove k hkeeps hplaces _ hothers =>
    refine ⟨fun x hx hplace => ?_, trivial, h.second.remove hplaces hothers ?_⟩
    · rw [hplaces] at hx
      have hother := hothers x.2 (h.first x hx hplace)
      exact hkeeps.isSome_object? (fun _ hthere => hother ▸ hthere) (h.object x hx hplace)
    · rintro hkey rfl hadding
      exact hfree hkey (.inr ⟨rfl, hadding⟩)

theorem Phase.Opposes.symm (h : p.Opposes key q) : q.Opposes key p :=
  h.elim (fun h => .inr h.symm) fun h => .inl h.symm

theorem Stands.turned {q' : Phase} (h : Stands places key s p q)
    (hturned : Turned key s t p q p' q')
    (hfree : places (.bucket, key) → ¬ p.Opposes key q) : Stands places key t p' q' := by
  cases hturned with
  | idle hsame =>
    rw [hsame]
    exact h
  | first hmoves => exact h.moves hmoves hfree
  | second hmoves =>
    exact (h.symm.moves hmoves fun hkey hopposed => hfree hkey hopposed.symm).symm

/-- **What stands is kept**, as long as the requests are never opposed or the key is not among the
places. -/
theorem Stands.after (turns : List Side) (h : Stands places key c.state p q)
    (hat : c.IsAt id key p q)
    (hfree : places (.bucket, key) → ∀ before, before <+: turns →
      ¬ (c.after before).IsOpposed id key) :
    ∀ x ∈ (c.after turns).state.places, places x →
      ((c.after turns).state.object? x.1 x.2).isSome := by
  induction turns generalizing c p q with
  | nil => exact h.object
  | cons side turns ih =>
    obtain ⟨p', q', hturn, hturned⟩ := hat.exists_turned side
    refine ih (h.turned hturned fun hkey hopposed => ?_) hturn fun hkey before hbefore => ?_
    · exact hfree hkey [] List.nil_prefix (hat.isOpposed hopposed)
    · exact hfree hkey (side :: before) ((List.prefix_cons_inj side).mpr hbefore)

end

/-! ### When attachments keep their objects -/

/-- Does every attachment have its object? -/
def State.KeepsObjects (s : State) : Prop :=
  ∀ a ∈ s.database.attachments, (s.object? a.storage a.storageKey).isSome

/-- Does an attachment have its object at a key of the store? -/
def State.HasRowAt (key : String) (s : State) : Prop :=
  ∃ a ∈ s.database.attachments, a.storage = .bucket ∧ a.storageKey = key

instance (s : State) : Decidable s.KeepsObjects :=
  inferInstanceAs <| Decidable <|
    ∀ a ∈ s.database.attachments, (s.object? a.storage a.storageKey).isSome

instance (key : String) (s : State) : Decidable (s.HasRowAt key) :=
  inferInstanceAs <| Decidable <|
    ∃ a ∈ s.database.attachments, a.storage = .bucket ∧ a.storageKey = key

/-- Two sequences of requests at once. -/
def race (requests others : List Turn) (s : State) : Pair State Unit :=
  ⟨working requests, working others, s⟩

theorem isAt_race {requests others : List Turn} (hrequests : ∀ turn ∈ requests, turn.Closes id)
    (hothers : ∀ turn ∈ others, turn.Closes id) (hs : s.Hosts id key) :
    (race requests others s).IsAt id key .calm .calm :=
  ⟨conforms_working hrequests, conforms_working hothers, hs⟩

/-- Between calm requests nothing is relied on. -/
theorem State.KeepsObjects.stands (h : s.KeepsObjects) (places : Kind × String → Prop) :
    Stands places key s .calm .calm where
  object x hx _ := by
    obtain ⟨a, ha, rfl⟩ := List.mem_map.mp hx
    exact h a ha
  first := trivial
  second := trivial

/-- **An upload is completed, cancelled and swept at once, in any order of the steps. When all is
done, every attachment has its object, unless the upload has become an attachment although at some
time one request was bound to add the row and the other to remove the object.** -/
theorem keepsObjects_iff {requests others : List Turn} {turns : List Side}
    (hrequests : ∀ turn ∈ requests, turn.Closes id) (hothers : ∀ turn ∈ others, turn.Closes id)
    (hs : s.Hosts id key) (hobjects : s.KeepsObjects)
    (hdone : ((race requests others s).after turns).isDone = true) :
    ((race requests others s).after turns).state.KeepsObjects
      ↔ ¬ (((race requests others s).after turns).state.HasRowAt key
        ∧ ∃ before, before <+: turns
          ∧ ((race requests others s).after before).IsOpposed id key) := by
  have hat := isAt_race hrequests hothers hs
  constructor
  · rintro hkept ⟨⟨a, ha, hstorage, hkey⟩, before, ⟨later, rfl⟩, hopposed⟩
    obtain ⟨p, q, hbefore⟩ := hat.exists_after before
    have hlosing : ((race requests others s).after before).IsLosing id key :=
      .inr (hopposed.elim (fun h => .inr h.2) fun h => .inl h.1)
    rw [Pair.after_append] at ha hkept hdone
    have hgone := hbefore.gone_after hlosing later hdone
    have hobject := hkept a ha
    rw [hstorage, hkey] at hobject
    exact absurd hobject (Option.not_isSome_iff_eq_none.mpr hgone)
  · intro hnot a ha
    by_cases hplace : (a.storage, a.storageKey) = (.bucket, key)
    · have hfree : ∀ before, before <+: turns →
          ¬ ((race requests others s).after before).IsOpposed id key := by
        intro before hbefore hopposed
        obtain ⟨hstorage, hkey⟩ := Prod.ext_iff.mp hplace
        exact hnot ⟨⟨a, ha, hstorage, hkey⟩, before, hbefore, hopposed⟩
      exact Stands.after turns (hobjects.stands fun _ => True) hat (fun _ => hfree) _
        (List.mem_map.mpr ⟨a, ha, rfl⟩) trivial
    · exact Stands.after turns (hobjects.stands (· ≠ (.bucket, key))) hat
        (fun hsame => absurd rfl hsame) _ (List.mem_map.mpr ⟨a, ha, rfl⟩) hplace

/-! ### Notes that are completed and swept -/

/-- The name of the upload. -/
def notesUpload : String :=
  Text.showPadded Limit.sessionIdLength 0

/-- The key of its object. -/
def notesKey : String :=
  Filename.storageKey (Text.showPadded Limit.keyLength 1) "notes.bin"

/-- An upload is open, and its client has stored the object. -/
def uploadedNotes : State :=
  bucketServer.after
    [.createSession (some 7) { filename := "notes.bin", size := 3 },
      .clientObject notesUpload (.ofBytes ⟨#[4, 5, 6]⟩)]

/-- The upload is completed, and swept two days after it was opened. -/
def notesRace : Pair State Unit :=
  race [.completeSession (some 7) notesUpload]
    [.sweepExpired (Instant.epoch.addSeconds (2 * Limit.sessionLifetime))] uploadedNotes

theorem uploadedNotes_hosts : uploadedNotes.Hosts notesUpload notesKey where
  tied := by decide +kernel
  setting := ⟨({} : Setting).toText, by decide +kernel, by decide +kernel⟩
  removes := by
    have hnone : (uploadedNotes.store.failure? .delete).isNone = true := by decide +kernel
    exact Option.isNone_iff_eq_none.mp hnone
  upload := by decide +kernel

theorem uploadedNotes_keepsObjects : uploadedNotes.KeepsObjects := by
  decide +kernel

/-- The sweep finds the upload, but it is completed before its row is removed. -/
def slowSweep : List Side :=
  List.replicate 2 .second ++ List.replicate 8 .first ++ [.second]

/-- Completing finds the object, the sweep finds no row, completing adds it, and the sweep removes
the object. -/
def crossing : List Side :=
  List.replicate 4 .first ++ List.replicate 4 .second ++ List.replicate 4 .first
    ++ List.replicate 3 .second

theorem isDone_crossing : (notesRace.after crossing).isDone = true := by
  decide +kernel

theorem crossing_loses : ¬ (notesRace.after crossing).state.KeepsObjects := by
  decide +kernel

theorem keepsObjects_iff_notesRace :
    ((notesRace.after slowSweep).state.KeepsObjects
        ∧ ∀ before, before <+: slowSweep →
          ¬ (notesRace.after before).IsOpposed notesUpload notesKey)
      ∧ ¬ (notesRace.after crossing).state.KeepsObjects
      ∧ ∃ before, before <+: crossing
        ∧ (notesRace.after before).IsOpposed notesUpload notesKey := by
  have hiff : ∀ turns, (notesRace.after turns).isDone = true →
      ((notesRace.after turns).state.KeepsObjects
        ↔ ¬ ((notesRace.after turns).state.HasRowAt notesKey
          ∧ ∃ before, before <+: turns
            ∧ (notesRace.after before).IsOpposed notesUpload notesKey)) := by
    intro turns hdone
    refine keepsObjects_iff ?_ ?_ uploadedNotes_hosts uploadedNotes_keepsObjects hdone
    · intro turn hturn
      rw [List.mem_singleton.mp hturn]
      exact .complete (some 7)
    · intro turn hturn
      rw [List.mem_singleton.mp hturn]
      exact .sweep _
  constructor
  · have hend : (notesRace.after slowSweep).isDone = true
        ∧ (notesRace.after slowSweep).state.KeepsObjects
        ∧ (notesRace.after slowSweep).state.HasRowAt notesKey := by
      decide +kernel
    obtain ⟨hdone, hkept, hrow⟩ := hend
    exact ⟨hkept, fun before hbefore hopposed =>
      (hiff slowSweep hdone).mp hkept ⟨hrow, before, hbefore, hopposed⟩⟩
  · refine ⟨crossing_loses, ?_⟩
    by_contra hnever
    exact crossing_loses ((hiff crossing isDone_crossing).mpr fun h => hnever h.2)

/-- **Nothing keeps the two apart.** The store does all that it is told, and yet an attachment loses
its object. -/
theorem keepsObjects_fails_crossing :
    uploadedNotes.Hosts notesUpload notesKey ∧ uploadedNotes.KeepsObjects
      ∧ ¬ ∀ turns, (notesRace.after turns).isDone = true →
        (notesRace.after turns).state.KeepsObjects :=
  ⟨uploadedNotes_hosts, uploadedNotes_keepsObjects,
    fun hkept => crossing_loses (hkept crossing isDone_crossing)⟩

end SharedMemos.Server
