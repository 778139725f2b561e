import SharedMemos.Proofs.Server.Objects
import SharedMemos.Proofs.Server.Observing

/-!
# Attachments with thumbnails

Making a thumbnail never fails and changes nothing about an attachment but its thumbnail. The only
object that it touches is that of the thumbnail.

## Main results

* `withThumbnail_within` — what it changes, for any footprint
* `withThumbnail_exec` — the attachment comes back, with or without a thumbnail
* `withThumbnail_sparing` — objects apart from the thumbnail's stay
* `insertAttachment_spec`, `insertAttachment_error` — adding the row that a thumbnail is for
-/

namespace SharedMemos.Server

open SharedMemos.Storage Attempt

variable {s t : State}

theorem loadPicture_observing (a : Attachment) (b : Backend) (source : PictureSource) :
    IsObserving (loadPicture a b source) := by
  cases source with
  | received content => exact .pure _
  | scratch path most =>
    refine .bind (.bind (.look _) fun found => ?_) fun content => .pure _
    split
    · exact .pure _
    · exact .throw _
  | stored =>
    rw [loadPicture]
    split
    · exact .pure _
    · exact .bind (open_observing b _) fun content => .pure _

section

variable {F : Footprint State} {a : Attachment}
  (hobserving : ∀ s t, Footprint.observing.rel s t → F.rel s t)
  (hrecord : ∀ thumbnail, (recordThumbnail a thumbnail).Within F)
  (hput : ∀ (b : Backend) content, (b.put (Filename.thumbnailKey a.storageKey) content).Within F)
include hobserving hrecord hput

theorem findThumbnail_within (setting : Setting) (source : PictureSource) :
    (findThumbnail a setting source).Within F := by
  refine .bind ((query_observing _).mono hobserving) fun shared => ?_
  split
  · exact .bind (hrecord _) fun _ => .pure _
  · refine .bind ((backendFor_observing _ _).mono hobserving) fun b => ?_
    refine .bind ((loadPicture_observing a b source).mono hobserving) fun content => ?_
    split
    · refine .bind (.bind (.ofExcept _) fun picture => ?_) fun _ => .pure _
      exact .bind (hput b _) fun size => .bind (hrecord _) fun _ => .pure _
    · exact .pure _

/-- **Making a thumbnail changes what two steps change**: its object is put, and it is recorded. -/
theorem withThumbnail_within (setting : Setting) (source : PictureSource) :
    (withThumbnail a setting source).Within F := by
  refine .ite (.pure _) (.bind (Within.outcome ?_) fun found => ?_)
  · exact findThumbnail_within hobserving hrecord hput setting source
  · split
    · exact .pure _
    · exact .pure _

end

/-- Objects apart from the thumbnail's stay. -/
theorem withThumbnail_sparing (a : Attachment) (setting : Setting) (source : PictureSource) :
    (withThumbnail a setting source).Within
      (Footprint.sparing (Filename.thumbnailKey a.storageKey)) :=
  withThumbnail_within (fun _ _ h => (quiet_rel_storing (quiet_of_observing h)).2.2)
    (fun _ => transactNow_sparing _ _) (fun b _ => storing_sparing (put_storing b _ _)) setting
    source

/-- **The attachment comes back**, with or without a thumbnail. -/
theorem withThumbnail_exec (a : Attachment) (setting : Setting) (source : PictureSource)
    (s : State) :
    ∃ thumbnail, ((withThumbnail a setting source).exec s).1
      = .ok { a with thumbnail := thumbnail } := by
  rw [withThumbnail]
  split
  · exact ⟨a.thumbnail, rfl⟩
  · rw [Attempt.exec_bind, Attempt.exec_outcome]
    rcases (findThumbnail a setting source).exec s with ⟨e | - | thumbnail, t⟩
    · exact ⟨a.thumbnail, rfl⟩
    · exact ⟨a.thumbnail, rfl⟩
    · exact ⟨some thumbnail, rfl⟩

/-! ### Adding the row -/

/-- The row of an attachment is added under the next number and a new name, and nothing else has
changed. -/
theorem insertAttachment_spec {b : Backend} {a a' : Attachment} {isFresh : Bool}
    (h : (insertAttachment b a isFresh).exec s = (.ok a', t)) :
    (∃ uid time, a' = { a with
        id := s.database.lastAttachment + 1, uid := uid, created := time, updated := time })
      ∧ t.holdings = { s.holdings with
        attachments := a' :: s.database.attachments, lastAttachment := a'.id }
      ∧ s.draws ≤ t.draws
      ∧ ∀ c ∈ s.database.attachments, c.uid ≠ a'.uid := by
  rw [insertAttachment] at h
  rw [Attempt.exec_bind_eq_ok] at h
  obtain ⟨uid, s₁, huid, h⟩ := h
  cases huid
  rw [Attempt.exec_outcome_bind] at h
  rcases hinsert : (transactNow fun time => Database.insertAttachment
      { a with
        uid := s.source.name s.draws Limit.uidLength,
        created := time, updated := time }).exec
      { s with draws := s.draws + 1 } with ⟨e | row, u⟩
  · rw [hinsert] at h
    dsimp only at h
    split at h
    · rw [Attempt.exec_bind_eq_ok] at h
      obtain ⟨_, _, -, h⟩ := h
      cases h
    · cases h
  · rw [hinsert] at h
    cases h
    obtain ⟨time, d, hrun, rfl⟩ := exec_transactNow_ok hinsert
    obtain ⟨hrow, rfl, hnew⟩ := Database.run_insertAttachment hrun
    refine ⟨⟨_, time, hrow⟩, rfl, Nat.le_succ _, ?_⟩
    rw [hrow]
    exact hnew

/-- If the row cannot be added, nothing has changed, but that an object that was stored for it is
removed. -/
theorem insertAttachment_error {b : Backend} {a : Attachment} {isFresh : Bool} {e : Error}
    (h : (insertAttachment b a isFresh).exec s = (.error e, t)) :
    (Footprint.storing a.storageKey).rel s t
      ∧ (isFresh = false → Footprint.quiet.rel s t) := by
  rw [insertAttachment] at h
  have hdraw : (drawName Limit.uidLength).exec s
      = (.ok (s.source.name s.draws Limit.uidLength), { s with draws := s.draws + 1 }) := rfl
  rw [Attempt.exec_bind_of_ok hdraw, Attempt.exec_outcome_bind] at h
  rcases hinsert : (transactNow fun time => Database.insertAttachment
      { a with
        uid := s.source.name s.draws Limit.uidLength,
        created := time, updated := time }).exec
      { s with draws := s.draws + 1 } with ⟨e' | row, u⟩
  · rw [hinsert] at h
    obtain ⟨time, -, rfl⟩ := exec_transactNow_error hinsert
    have hquiet : Footprint.quiet.rel s
        { s with draws := s.draws + 1, looks := s.looks + 1 } := ⟨rfl, Nat.le_succ _⟩
    dsimp only at h
    cases isFresh with
    | false =>
      cases h
      exact ⟨quiet_rel_storing hquiet, fun _ => hquiet⟩
    | true =>
      refine ⟨?_, fun hfalse => Bool.noConfusion hfalse⟩
      have hdelete := (delete_storing b a.storageKey).tolerate
        { s with draws := s.draws + 1, looks := s.looks + 1 }
      rw [if_pos rfl, Attempt.exec_bind, Attempt.exec_tolerate] at h
      rw [Attempt.exec_tolerate] at hdelete
      cases h
      exact Footprint.trans _ (quiet_rel_storing hquiet) hdelete
  · rw [hinsert] at h
    cases h

end SharedMemos.Server
