import SharedMemos.Proofs.Bytes.Blob
import SharedMemos.Proofs.Server.Holdings

/-!
# Storing and removing objects

The calls that change objects change them at one key. Whatever becomes of such a call, objects at
keys apart from it stay, and so does everything that is no object (`Footprint.storing`). In a
directory keys are apart if their paths are; in a store, if they are different.

The thumbnail of an object is kept at a key of its own, which is apart from that of the object.

## Main results

* `put_spec`, `putStream_spec` — what was stored is there
* `put_storing`, `delete_storing` — and nothing else has changed
* `apart_thumbnailKey` — a thumbnail does not replace its object
-/

namespace SharedMemos.Server

open SharedMemos.Storage SharedMemos.Upload

/-- Storing or removing an object at one of the keys does not touch the other. -/
def Apart (kind : Kind) (key other : String) : Prop :=
  match kind with
  | .disk => Disk.Apart key other
  | .bucket => other ≠ key

/-- Steps that change objects at a key, and nothing else. -/
def Footprint.storing (key : String) : Footprint State where
  rel s t :=
    t.holdings = { s.holdings with disk := t.disk, objects := t.store.objects }
      ∧ s.draws ≤ t.draws
      ∧ ∀ kind other content, Apart kind key other → s.object? kind other = some content →
        t.object? kind other = some content
  refl _ := ⟨rfl, Nat.le_refl _, fun _ _ _ _ h => h⟩
  trans := by
    rintro s t u ⟨hst, hdraws, hkept⟩ ⟨htu, hdraws', hkept'⟩
    refine ⟨?_, Nat.le_trans hdraws hdraws', fun kind other content hapart h => ?_⟩
    · rw [htu, hst]
    · exact hkept' kind other content hapart (hkept kind other content hapart h)

/-- Steps that keep all objects at keys apart from one. -/
def Footprint.sparing (key : String) : Footprint State where
  rel s t := ∀ kind other content, Apart kind key other → s.object? kind other = some content →
    t.object? kind other = some content
  refl _ := fun _ _ _ _ h => h
  trans hst htu := fun kind other content hapart h =>
    htu kind other content hapart (hst kind other content hapart h)

variable {α : Type} {s t : State} {b : Backend} {key other : String} {content : Blob} {kind : Kind}

theorem quiet_rel_storing (h : Footprint.quiet.rel s t) : (Footprint.storing key).rel s t := by
  refine ⟨?_, h.2, fun kind other content _ hobject => ?_⟩
  · have hdisk : t.disk = s.disk := congrArg Holdings.disk h.1
    have hobjects : t.store.objects = s.store.objects := congrArg Holdings.objects h.1
    rw [hdisk, hobjects, h.1]
    rfl
  · rw [State.object?_of_holdings h.1]
    exact hobject

theorem quiet_sparing {a : Action α} (h : IsQuiet a) (key : String) :
    a.Within (Footprint.sparing key) := by
  refine h.mono fun s t hquiet kind other content _ hobject => ?_
  rw [State.object?_of_holdings hquiet.1]
  exact hobject

theorem storing_sparing {a : Action α} (h : a.Within (Footprint.storing key)) :
    a.Within (Footprint.sparing key) :=
  h.mono fun _ _ hstoring => hstoring.2.2

/-- Transactions have nothing to do with objects. -/
theorem transact_sparing (x : Transaction α) (key : String) :
    (transact x).Within (Footprint.sparing key) := by
  intro s kind other content _ hobject
  rw [transact, Attempt.exec_atomic]
  cases hrun : x.run s.database with
  | error e => exact hobject
  | ok p => exact hobject

theorem transactNow_sparing (x : Instant → Transaction α) (key : String) :
    (transactNow x).Within (Footprint.sparing key) :=
  .bind (quiet_sparing now_quiet key) fun time => transact_sparing (x time) key

theorem removeScratch_sparing (path key : String) :
    (removeScratch path).Within (Footprint.sparing key) := by
  intro s kind other content _ hobject
  rw [removeScratch, Attempt.exec_atomic]
  split
  · exact hobject
  · exact hobject

/-! ### Calls on a store -/

theorem onDisk_storing {f : Tree → Except Error α × Tree}
    (h : ∀ t other content, Disk.Apart key other → Disk.open t other = .ok content →
      Disk.open (f t).2 other = .ok content) :
    (onDisk f).Within (Footprint.storing key) := by
  intro s
  refine ⟨rfl, Nat.le_refl _, fun kind other content hapart hobject => ?_⟩
  cases kind with
  | disk => exact State.object?_disk.mpr (h _ _ _ hapart (State.object?_disk.mp hobject))
  | bucket => exact hobject

theorem onStore_storing {f : ObjectStore → Except Error α × ObjectStore}
    (h : ∀ s other, other ≠ key → (f s).2.object? other = s.object? other) :
    (onStore f).Within (Footprint.storing key) := by
  intro s
  refine ⟨rfl, Nat.le_refl _, fun kind other content hapart hobject => ?_⟩
  cases kind with
  | disk => exact hobject
  | bucket => exact (h s.store other hapart).trans hobject

theorem put_storing (b : Backend) (key : String) (content : Blob) :
    (b.put key content).Within (Footprint.storing key) := by
  cases b with
  | disk =>
    show (onDisk fun t => Disk.put t key content).Within _
    exact onDisk_storing fun t other found => Disk.open_put_of_apart
  | bucket c => exact .throw _
  | tied =>
    show (onStore fun s => s.put key content).Within _
    exact onStore_storing fun s other => ObjectStore.object?_put_of_ne

theorem putStream_storing (b : Backend) (key : String) (stream : Blob) (declared : Nat) :
    (b.putStream key stream declared).Within (Footprint.storing key) := by
  cases b with
  | disk =>
    show (onDisk fun t => Disk.putStream t key stream declared).Within _
    exact onDisk_storing fun t other found => Disk.open_putStream_of_apart
  | bucket c => exact .ofExcept _
  | tied =>
    show (onStore fun s => s.put key stream).Within _
    exact onStore_storing fun s other => ObjectStore.object?_put_of_ne

theorem delete_storing (b : Backend) (key : String) :
    (b.delete key).Within (Footprint.storing key) := by
  cases b with
  | disk =>
    show (onDisk fun t => Disk.delete t key).Within _
    exact onDisk_storing fun t other found => Disk.open_delete_of_apart
  | bucket c => exact .throw _
  | tied =>
    show (onStore fun s => s.delete key).Within _
    exact onStore_storing fun s other => ObjectStore.object?_delete_of_ne

theorem completeUpload_storing (b : Backend) (key upload : String) (parts : List Part) :
    (b.completeUpload key upload parts).Within (Footprint.storing key) := by
  cases b with
  | disk => exact .throw _
  | bucket c => exact .throw _
  | tied =>
    show (onStore fun s => s.completeUpload key upload parts).Within _
    exact onStore_storing fun s other => ObjectStore.object?_completeUpload_of_ne

theorem exec_onDisk_ok {f : Tree → Except Error α × Tree} {x : α}
    (h : (onDisk f).exec s = (.ok x, t)) : f s.disk = (.ok x, t.disk) := by
  rw [onDisk, Attempt.exec_atomic] at h
  rcases hf : f s.disk with ⟨result, disk⟩
  rw [hf] at h
  cases h
  rfl

theorem exec_onStore_ok {f : ObjectStore → Except Error α × ObjectStore} {x : α}
    (h : (onStore f).exec s = (.ok x, t)) : f s.store = (.ok x, t.store) := by
  rw [onStore, Attempt.exec_atomic] at h
  rcases hf : f s.store with ⟨result, store⟩
  rw [hf] at h
  cases h
  rfl

/-- **What was stored is there**, in a store that has answered. -/
theorem put_spec {n : Nat} (h : (b.put key content).exec s = (.ok n, t)) :
    IsAtHand b ∧ n = content.size ∧ t.object? b.kind key = some content := by
  cases b with
  | disk =>
    obtain ⟨hsize, hopen⟩ := Disk.open_put (exec_onDisk_ok (f := fun t => Disk.put t key content) h)
    exact ⟨isAtHand_disk, hsize, State.object?_disk.mpr hopen⟩
  | bucket c => cases h
  | tied =>
    exact ⟨isAtHand_tied,
      ObjectStore.object?_put (exec_onStore_ok (f := fun s => s.put key content) h)⟩

/-- A stream is stored, as a whole if it is as long as declared. -/
theorem putStream_spec {declared n : Nat}
    (h : (b.putStream key content declared).exec s = (.ok n, t)) :
    IsAtHand b ∧ ∃ found, t.object? b.kind key = some found
      ∧ (content.size = declared → found.toList = content.toList) := by
  cases b with
  | disk =>
    obtain ⟨-, hfound, hopen⟩ := Disk.open_putStream
      (exec_onDisk_ok (f := fun t => Disk.putStream t key content declared) h)
    refine ⟨isAtHand_disk, _, State.object?_disk.mpr hopen, fun hsize => ?_⟩
    have hall : content.size ≤ (declared + 1) % Text.wordCount64 := by
      rw [Blob.size_take, hsize] at hfound
      omega
    rw [Blob.toList_take, List.take_of_length_le (by rw [Blob.length_toList]; exact hall)]
  | bucket c =>
    have hfailed : Client.putStream key content declared = .ok n := congrArg Prod.fst h
    unfold Client.putStream at hfailed
    dsimp only at hfailed
    split at hfailed <;> cases hfailed
  | tied =>
    have hput := exec_onStore_ok (f := fun s => s.put key content) h
    exact ⟨isAtHand_tied, content, (ObjectStore.object?_put hput).2, fun _ => rfl⟩

/-- The size that is told is that of an object that is there. -/
theorem head_spec {n : Int} (h : (b.head key).exec s = (.ok n, t)) :
    IsAtHand b ∧ ∃ content, s.object? b.kind key = some content ∧ n = content.size := by
  cases b with
  | disk => cases h
  | bucket c => cases h
  | tied =>
    exact ⟨isAtHand_tied,
      ObjectStore.object?_head (exec_onStore_ok (f := fun s => s.head key) h)⟩

/-- The parts that are told are those of the upload. -/
theorem listParts_spec {upload : String} {parts : List Part}
    (h : (b.listParts key upload).exec s = (.ok parts, t)) :
    ∃ u, s.store.upload? upload = some u ∧ u.parts = parts := by
  cases b with
  | disk => cases h
  | bucket c => cases h
  | tied =>
    exact ObjectStore.upload?_listParts (exec_onStore_ok (f := fun s => s.listParts key upload) h)

theorem completeUpload_spec {upload : String} {parts : List Part}
    (h : (b.completeUpload key upload parts).exec s = (.ok (), t)) :
    IsAtHand b ∧ (t.object? b.kind key).isSome := by
  cases b with
  | disk => cases h
  | bucket c => cases h
  | tied =>
    exact ⟨isAtHand_tied, ObjectStore.object?_completeUpload
      (exec_onStore_ok (f := fun s => s.completeUpload key upload parts) h)⟩

/-- Whatever becomes of joining parts, an object at the key is not lost. -/
theorem isSome_completeUpload (b : Backend) (upload : String) (parts : List Part)
    (h : (s.object? kind key).isSome) :
    (((b.completeUpload key upload parts).exec s).2.object? kind key).isSome := by
  cases b with
  | disk => exact h
  | bucket c => exact h
  | tied =>
    cases kind with
    | disk => exact h
    | bucket => exact ObjectStore.isSome_completeUpload h

/-! ### Keys of thumbnails -/

theorem length_thumbnailMark : Limit.thumbnailMark.toList.length = 10 := rfl

theorem thumbnailKey_ne (key : String) : key ≠ Filename.thumbnailKey key := by
  intro h
  have hlength := congrArg (fun text : String => text.toList.length) h
  simp only [Filename.thumbnailKey, String.toList_append, List.length_append,
    length_thumbnailMark] at hlength
  omega

/-- **A thumbnail does not replace its object.** -/
theorem apart_thumbnailKey (h : s.object? kind key = some content) :
    Apart kind (Filename.thumbnailKey key) key := by
  cases kind with
  | disk => exact Disk.apart_append (by decide) (by decide) (State.object?_disk.mp h)
  | bucket => exact thumbnailKey_ne key

end SharedMemos.Server
