import SharedMemos.Proofs.Server.Attachments.Removal

/-!
# Deletions that fail

The row of an attachment goes before its object. Whether the object can be removed is not asked: a
store that fails is passed over. But the store has to be found first, and that can fail, since the
storage setting may be unreadable and a bucket may be missing from it. The complaint is then passed
on although the row is gone, and the object stays behind with nothing that leads to it.

So a deletion that fails has changed nothing, unless it was about the last attachment with an
object: then the row is lost. Objects are as before in any case.

## Main definitions

* `State.Frees` — deleting an attachment removes the last row with its object

## Main results

* `deleteAttachment_error` — what a deletion that fails leaves
-/

namespace SharedMemos.Server

open SharedMemos.Storage Attempt

variable {s t : State} {a : Attachment} {viewer : Viewer} {uid : String} {e : Error}

/-- Deleting the attachment removes its row, and no other has its object. -/
structure State.Frees (s : State) (a : Attachment) : Prop where
  deletes : s.database.mishap? .attachment .delete = none
  last : (s.withoutAttachment a).database.countAt a.storage a.storageKey = 0

instance (s : State) (a : Attachment) : Decidable (s.Frees a) :=
  decidable_of_iff ((s.database.mishap? .attachment .delete).isNone
      ∧ (s.withoutAttachment a).database.countAt a.storage a.storageKey = 0) <| by
    rw [Option.isNone_iff_eq_none]
    exact ⟨fun h => ⟨h.1, h.2⟩, fun h => ⟨h.deletes, h.last⟩⟩

/-- The store for objects of a kind, as the storage setting has it. -/
def storeOf (kind : Kind) : Action Backend := do
  backendFor kind (← storageSetting)

theorem storeOf_quiet (kind : Kind) : IsQuiet (storeOf kind) :=
  .bind storageSetting_quiet fun _ => backendFor_quiet _ _

/-! ### The steps -/

/-- Passing over failures does not fail. -/
theorem exec_forM_tolerate {α β : Type} (f : α → Action β) (xs : List α) :
    ∀ s, ∃ t, (xs.forM fun x => (f x).tolerate).exec s = (.ok (), t) := by
  induction xs with
  | nil => exact fun s => ⟨s, rfl⟩
  | cons x xs ih =>
    intro s
    obtain ⟨t, ht⟩ := ih ((f x).exec s).2
    exact ⟨t, (exec_bind_of_ok (exec_tolerate (f x) s)).trans ht⟩

/-- Releasing what a row names only fails where the store of its object is not found. -/
theorem exec_releaseKeys_error (h : (releaseKeys a).exec s = (.error e, t)) :
    s.database.countAt a.storage a.storageKey = 0
      ∧ (storeOf a.storage).exec s = (.error e, t) := by
  have hquery : (query (·.countAt a.storage a.storageKey)).exec s
      = (.ok (s.database.countAt a.storage a.storageKey), s) := rfl
  rw [releaseKeys, exec_bind_of_ok hquery] at h
  split at h
  · rename_i hcount
    refine ⟨hcount, ?_⟩
    rw [storeOf]
    rcases hsetting : storageSetting.exec s with ⟨e' | setting, s₁⟩
    · rw [exec_bind_of_error hsetting] at h ⊢
      cases h
      rfl
    · rw [exec_bind_of_ok hsetting] at h ⊢
      rcases hstore : (backendFor a.storage setting).exec s₁ with ⟨e' | b, s₂⟩
      · rw [exec_bind_of_error hstore] at h
        cases h
        rfl
      · rw [exec_bind_of_ok hstore] at h
        obtain ⟨u, hu⟩ := exec_forM_tolerate b.delete (objectKeys a) s₂
        cases hu.symm.trans h
  · cases h

/-! ### What is left -/

/-- Without its row, what the server holds is not the same. -/
theorem holdings_withoutAttachment_ne (ha : a ∈ s.database.attachments) :
    (s.withoutAttachment a).holdings ≠ s.holdings := by
  intro h
  have hrows : s.database.attachments.filter (·.id != a.id) = s.database.attachments :=
    congrArg Holdings.attachments h
  rw [← hrows] at ha
  exact bne_iff_ne.mp (List.mem_filter.mp ha).2 rfl

/-- **What a deletion that fails leaves.** Nothing that the server holds has changed, unless the row
was removed and no other row has the object: then the row is lost, and nothing else, and the
complaint is that the store of the object was not found. -/
theorem deleteAttachment_error (h : (deleteAttachment viewer uid).exec s = (.error e, t)) :
    (t.holdings = s.holdings ↔ ∀ a, s.ownAttachment? viewer uid = some a → ¬ s.Frees a)
      ∧ ∀ a, s.ownAttachment? viewer uid = some a → s.Frees a →
        t.holdings = (s.withoutAttachment a).holdings
          ∧ (storeOf a.storage).exec (s.withoutAttachment a) = (.error e, t) := by
  rcases exec_deleteAttachment viewer uid s with
    ⟨hwrong, e', hexec⟩ | ⟨a, hown, hworks, hexec⟩
  · cases hexec.symm.trans h
    have hnot : ∀ a, s.ownAttachment? viewer uid = some a → ¬ s.Frees a :=
      fun a ha hfrees => hwrong a ha hfrees.deletes
    exact ⟨iff_of_true rfl hnot, fun a ha hfrees => absurd hfrees (hnot a ha)⟩
  · obtain ⟨hlast, hstore⟩ := exec_releaseKeys_error (hexec.symm.trans h)
    have hlost : t.holdings = (s.withoutAttachment a).holdings :=
      holdings_of_exec (storeOf_quiet a.storage) hstore
    refine ⟨iff_of_false ?_ fun hnone => hnone a hown ⟨hworks, hlast⟩, ?_⟩
    · rw [hlost]
      exact holdings_withoutAttachment_ne (State.mem_of_ownAttachment? hown)
    · intro a' hown' _
      obtain rfl := Option.some.inj (hown.symm.trans hown')
      exact ⟨hlost, hstore⟩

/-- The storage setting cannot be read when a file has been stored. -/
def misconfigured : State :=
  let s := numberedServer.after storedNotes
  { s with database := s.database.withSetting storageSettingName "not a setting" }

/-- The uid of the file. -/
def notesUid : String := numberedServer.source.name 1 Limit.uidLength

theorem misconfigured_fails : ∃ e t,
    (deleteAttachment (some 1) notesUid).exec misconfigured = (.error e, t) := by
  rcases hexec : (deleteAttachment (some 1) notesUid).exec misconfigured with ⟨e | done, t⟩
  · exact ⟨e, t, rfl⟩
  · have hfails : ((deleteAttachment (some 1) notesUid).exec misconfigured).1.isOk = false := by
      decide +kernel
    rw [hexec] at hfails
    cases hfails

/-- The row of the file is lost. -/
theorem deleteAttachment_error_misconfigured : ∃ e t a,
    (deleteAttachment (some 1) notesUid).exec misconfigured = (.error e, t)
      ∧ a ∈ misconfigured.database.attachments
      ∧ t.holdings = (misconfigured.withoutAttachment a).holdings := by
  obtain ⟨e, t, hexec⟩ := misconfigured_fails
  have hsome : (misconfigured.ownAttachment? (some 1) notesUid).isSome = true := by decide +kernel
  obtain ⟨a, hown⟩ := Option.isSome_iff_exists.mp hsome
  have hfrees : ((misconfigured.ownAttachment? (some 1) notesUid).all fun a =>
      decide (misconfigured.Frees a)) = true := by decide +kernel
  rw [hown, Option.all_some, decide_eq_true_iff] at hfrees
  exact ⟨e, t, a, hexec, State.mem_of_ownAttachment? hown,
    ((deleteAttachment_error hexec).2 a hown hfrees).1⟩

/-- **A deletion that fails may lose the row.** -/
theorem deleteAttachment_error_loses : ¬ ∀ e t,
    (deleteAttachment (some 1) notesUid).exec misconfigured = (.error e, t) →
      t.database.attachments = misconfigured.database.attachments := by
  intro h
  obtain ⟨e, t, hexec⟩ := misconfigured_fails
  have hlost : ((deleteAttachment (some 1) notesUid).exec misconfigured).2.database.attachments
      ≠ misconfigured.database.attachments := by decide +kernel
  rw [hexec] at hlost
  exact hlost (h e t hexec)

end SharedMemos.Server
