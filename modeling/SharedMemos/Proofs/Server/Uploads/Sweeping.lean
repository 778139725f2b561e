import SharedMemos.Proofs.Server.Privacy
import SharedMemos.Proofs.Server.Uploads.Releasing

/-!
# The sweep removes what has expired

A sweep asks for a batch of the oldest expired sessions, removes them one by one, and asks again
until a batch comes back short. Where rows can be removed, a batch leaves the expired sessions that
come after it in the order (`expired_without`), so that the batches together are the list of all of
them cut into pieces. The sweep then does what would be done without batches, going through that
list once (`releaseAll`), and counts what has come of the releases on the way.

A sweep goes on for a number of batches that is given before it starts. That number does not matter,
as long as it is enough for a batch that is short.

## Main definitions

* `expired` — the sessions that a sweep is to remove, in their order
* `firstFailure` — what a sweep tells if not everything was released
* `State.Swept` — what a sweep leaves

## Main results

* `expired_without` — what a batch leaves
* `Sweep.batches_exec` — batches do what would be done without them
* `sweepExpired_exec` — a sweep ends, and what it leaves and tells
-/

namespace SharedMemos

open SharedMemos.Storage SharedMemos.Upload

/-- Sessions in the order of sweeps: longest untouched first, and by name where that is the same. -/
def Upload.Session.isOlder (a b : Session) : Bool :=
  decide (a.updated < b.updated) || (a.updated == b.updated && decide (a.id ≤ b.id))

namespace Server

open Attempt

variable {s t : State} {x : Session} {rows xs : List Session} {cutoff : Instant}

/-! ### Expired sessions -/

theorem sweepBatch_pos : 0 < Limit.sweepBatch := by decide

/-- The sessions that were last touched before an instant, longest ago first. -/
def expired (rows : List Session) (cutoff : Instant) : List Session :=
  (rows.filter fun x => decide (x.updated < cutoff)).mergeSort Session.isOlder

theorem expiredSessions_eq (d : Database) (cutoff : Instant) (limit : Nat) :
    d.expiredSessions cutoff limit = (expired d.sessions cutoff).take limit := rfl

theorem isOlder_trans (a b c : Session) (hab : a.isOlder b) (hbc : b.isOlder c) : a.isOlder c := by
  simp only [Session.isOlder, Bool.or_eq_true, Bool.and_eq_true, decide_eq_true_eq, beq_iff_eq,
    Instant.lt_iff, Instant.eq_iff] at *
  rcases hab with hab | ⟨hab, hid⟩
  · omega
  · rcases hbc with hbc | ⟨hbc, hid'⟩
    · omega
    · exact .inr ⟨hab.trans hbc, String.le_trans hid hid'⟩

theorem isOlder_total (a b : Session) : (a.isOlder b || b.isOlder a) := by
  simp only [Session.isOlder, Bool.or_eq_true, Bool.and_eq_true, decide_eq_true_eq, beq_iff_eq,
    Instant.lt_iff, Instant.eq_iff]
  rcases Int.lt_trichotomy a.updated.micros b.updated.micros with hlt | heq | hgt
  · exact .inl (.inl hlt)
  · exact (String.le_total a.id b.id).imp (fun h => .inr ⟨heq, h⟩) fun h => .inr ⟨heq.symm, h⟩
  · exact .inr (.inl hgt)

theorem id_eq_of_isOlder {a b : Session} (hab : a.isOlder b) (hba : b.isOlder a) : a.id = b.id := by
  simp only [Session.isOlder, Bool.or_eq_true, Bool.and_eq_true, decide_eq_true_eq, beq_iff_eq,
    Instant.lt_iff, Instant.eq_iff] at hab hba
  rcases hab with hab | ⟨hab, hid⟩
  · omega
  · rcases hba with hba | ⟨hba, hid'⟩
    · omega
    · exact String.le_antisymm hid hid'

theorem expired_perm (rows : List Session) (cutoff : Instant) :
    (expired rows cutoff).Perm (rows.filter fun x => decide (x.updated < cutoff)) :=
  List.mergeSort_perm _ _

theorem mem_expired : x ∈ expired rows cutoff ↔ x ∈ rows ∧ x.updated < cutoff := by
  rw [(expired_perm rows cutoff).mem_iff, List.mem_filter, decide_eq_true_eq]

theorem nodup_expired (h : (rows.map (·.id)).Nodup) : ((expired rows cutoff).map (·.id)).Nodup :=
  ((expired_perm rows cutoff).map _).nodup_iff.mpr (h.sublist (List.filter_sublist.map _))

/-- Without the first sessions of a list the others are left. -/
theorem without_take (h : (xs.map (·.id)).Nodup) (n : Nat) : without xs (xs.take n) = xs.drop n := by
  have hsplit : (((xs.take n).map (·.id)) ++ (xs.drop n).map (·.id)).Nodup := by
    rw [← List.map_append, List.take_append_drop]
    exact h
  obtain ⟨-, -, hapart⟩ := List.nodup_append.mp hsplit
  have hgone : without (xs.take n) (xs.take n) = [] := by
    refine List.filter_eq_nil_iff.mpr fun x hx => ?_
    rw [List.contains_iff_mem.mpr (List.mem_map_of_mem hx)]
    exact Bool.false_ne_true
  have hleft : without (xs.drop n) (xs.take n) = xs.drop n := by
    refine List.filter_eq_self.mpr fun x hx => ?_
    rw [Bool.not_eq_true', ← Bool.not_eq_true, List.contains_iff_mem]
    exact fun hmem => hapart x.id hmem x.id (List.mem_map_of_mem hx) rfl
  calc without xs (xs.take n)
      = without (xs.take n ++ xs.drop n) (xs.take n) := by rw [List.take_append_drop]
    _ = without (xs.take n) (xs.take n) ++ without (xs.drop n) (xs.take n) := List.filter_append ..
    _ = xs.drop n := by rw [hgone, hleft, List.nil_append]

/-- **A batch leaves the expired sessions that come after it**, in the same order. -/
theorem expired_without (h : (rows.map (·.id)).Nodup) (n : Nat) :
    expired (without rows ((expired rows cutoff).take n)) cutoff = (expired rows cutoff).drop n := by
  have hperm : ((without rows ((expired rows cutoff).take n)).filter fun x =>
      decide (x.updated < cutoff)).Perm ((expired rows cutoff).drop n) := by
    rw [without, List.filter_comm, ← without_take (nodup_expired h) n]
    exact ((expired_perm rows cutoff).filter _).symm
  have hids : (((without rows ((expired rows cutoff).take n)).filter fun x =>
      decide (x.updated < cutoff)).map (·.id)).Nodup :=
    h.sublist ((List.filter_sublist.trans List.filter_sublist).map _)
  have hsorted : (expired rows cutoff).Pairwise (Session.isOlder · ·) :=
    List.pairwise_mergeSort isOlder_trans isOlder_total _
  calc expired (without rows ((expired rows cutoff).take n)) cutoff
      = ((expired rows cutoff).drop n).mergeSort Session.isOlder :=
        mergeSort_congr _ isOlder_trans isOlder_total
          (fun a ha b hb hab hba => List.inj_on_of_nodup_map hids ha hb (id_eq_of_isOlder hab hba))
          hperm
    _ = (expired rows cutoff).drop n :=
        List.mergeSort_of_pairwise (hsorted.sublist (List.drop_sublist n _))

/-- Without the expired sessions those are left that were touched later. -/
theorem without_expired (h : (rows.map (·.id)).Nodup) :
    without rows (expired rows cutoff) = rows.filter fun x => !decide (x.updated < cutoff) := by
  refine List.filter_congr fun x hx => congrArg _ (Bool.eq_iff_iff.mpr ?_)
  rw [List.contains_iff_mem, decide_eq_true_eq]
  constructor
  · intro hmem
    obtain ⟨y, hy, hid⟩ := List.mem_map.mp hmem
    obtain ⟨hrow, hearly⟩ := mem_expired.mp hy
    rw [← List.inj_on_of_nodup_map h hrow hx hid]
    exact hearly
  · exact fun hearly => List.mem_map_of_mem (mem_expired.mpr ⟨hx, hearly⟩)

/-! ### How far a sweep is -/

/-- The first failure among what has come of releases. -/
def firstFailure (outcomes : List (Except Error Unit)) : Option Error :=
  outcomes.findSome? fun
    | .ok _ => none
    | .error e => some e

namespace Sweep

/-- The sweep after one more session has been removed. -/
def count (w : Sweep) : Except Error Unit → Sweep
  | .ok _ => { w with removed := w.removed + 1 }
  | .error e => { w with removed := w.removed + 1 }.note e

theorem foldl_count (outcomes : List (Except Error Unit)) (w : Sweep) :
    outcomes.foldl count w = { w with
      removed := w.removed + outcomes.length
      failure := w.failure.or (firstFailure outcomes) } := by
  induction outcomes generalizing w with
  | nil =>
    rw [firstFailure, List.findSome?_nil, Option.or_none]
    rfl
  | cons outcome outcomes ih =>
    rw [List.foldl_cons, ih, List.length_cons, ← Nat.add_assoc, Nat.add_right_comm]
    cases outcome with
    | ok done => rfl
    | error e =>
      cases w with
      | mk removed failure isStalled => cases failure <;> rfl

/-- A session with a row is removed and counted. -/
theorem remove_exec {outcome : Except Error Unit}
    (hworks : s.database.mishap? .session .delete = none) (hx : x ∈ s.database.sessions)
    (h : (release x).exec s = (.ok outcome, t)) (w : Sweep) :
    (w.remove x).exec s = (.ok (w.count outcome), t) := by
  obtain ⟨isDone, hrun⟩ := Database.run_deleteSession_of_works hworks x.id
  have hdone : isDone = true := by
    have hrows := Database.run_deleteSession hrun
    cases isDone with
    | true => rfl
    | false =>
      have hsame : s.database.sessions.filter (·.id != x.id) = s.database.sessions :=
        congrArg Database.sessions hrows
      have hstays : x ∈ s.database.sessions.filter (·.id != x.id) := by
        rw [hsame]
        exact hx
      exact absurd rfl (bne_iff_ne.mp (List.mem_filter.mp hstays).2)
  subst hdone
  have hrow : (transact (Database.deleteSession x.id)).exec s = (.ok true, { s with
      database := { s.database with sessions := s.database.sessions.filter (·.id != x.id) } }) := by
    rw [transact, exec_atomic, hrun]
  rw [release, exec_bind_of_ok hrow, exec_outcome] at h
  rw [remove, exec_outcome_bind, hrow]
  show exec ((releaseSession x).outcome >>= _) _ = _
  rw [exec_outcome_bind]
  cases h
  cases ((releaseSession x).exec _).1 <;> rfl

/-- A batch of sessions with rows is removed and counted. -/
theorem foldlM_remove_exec {outcomes : List (Except Error Unit)}
    (hworks : s.database.mishap? .session .delete = none) (hids : (xs.map (·.id)).Nodup)
    (hrows : ∀ x ∈ xs, x ∈ s.database.sessions) (h : (releaseAll xs).exec s = (.ok outcomes, t))
    (w : Sweep) : (xs.foldlM remove w).exec s = (.ok (outcomes.foldl count w), t) := by
  induction xs generalizing s outcomes w with
  | nil =>
    cases h
    rfl
  | cons x xs ih =>
    obtain ⟨outcome, u, hfirst, hlets, hgone, -⟩ := release_exec hworks x
    rw [releaseAll, exec_bind_of_ok hfirst, exec_bind_eq_ok] at h
    obtain ⟨rest, v, hrest, hdone⟩ := h
    cases hdone
    obtain ⟨hnew, hids⟩ := List.nodup_cons.mp hids
    have hrows' : ∀ y ∈ xs, y ∈ u.database.sessions := by
      intro y hy
      rw [hgone]
      refine List.mem_filter.mpr ⟨hrows y (List.mem_cons_of_mem x hy), bne_iff_ne.mpr ?_⟩
      exact fun hid => hnew (List.mem_map.mpr ⟨y, hy, hid⟩)
    rw [List.foldlM_cons, exec_bind_of_ok (remove_exec hworks (hrows x List.mem_cons_self) hfirst w)]
    exact ih (hlets.works hworks) hids hrows' hrest _

/-- **Batches do what would be done without them**, and there are as many as it takes to come to one
that is short. -/
theorem batches_exec {outcomes : List (Except Error Unit)}
    (hworks : s.database.mishap? .session .delete = none)
    (hids : (s.database.sessions.map (·.id)).Nodup) {budget : Nat}
    (hbudget : (expired s.database.sessions cutoff).length / Limit.sweepBatch < budget)
    (h : (releaseAll (expired s.database.sessions cutoff)).exec s = (.ok outcomes, t)) {w : Sweep}
    (hstall : w.isStalled = false) :
    (batches cutoff budget w).exec s = (.ok (outcomes.foldl count w), t) := by
  induction budget generalizing s outcomes w with
  | zero => exact absurd hbudget (Nat.not_lt_zero _)
  | succ budget ih =>
    have hquery : (query (·.expiredSessions cutoff Limit.sweepBatch)).exec s
        = (.ok ((expired s.database.sessions cutoff).take Limit.sweepBatch), s) := by
      rw [← expiredSessions_eq]
      rfl
    generalize hall : expired s.database.sessions cutoff = all at *
    have hbatch : ∀ x ∈ all.take Limit.sweepBatch, x ∈ s.database.sessions := by
      intro x hx
      rw [← hall] at hx
      exact (mem_expired.mp (List.mem_of_mem_take hx)).1
    have hdistinct : (all.map (·.id)).Nodup := hall ▸ nodup_expired hids
    obtain ⟨first, u, hfirst, hlets, hrows, -, -⟩ := releaseAll_exec hworks
      (all.take Limit.sweepBatch)
    have hfold := foldlM_remove_exec hworks
      (hdistinct.sublist ((List.take_sublist _ _).map _)) hbatch hfirst w
    have hgoes : ((first.foldl count w).isStalled) = false := by
      rw [foldl_count]
      exact hstall
    rw [batches, exec_bind_of_ok hquery, exec_bind_of_ok hfold, hgoes, Bool.or_false]
    by_cases hshort : all.length < Limit.sweepBatch
    · rw [List.take_of_length_le hshort.le] at hfirst ⊢
      cases h.symm.trans hfirst
      rw [decide_eq_true hshort, if_pos rfl]
      rfl
    · have hfull : (all.take Limit.sweepBatch).length = Limit.sweepBatch :=
        List.length_take_of_le (Nat.le_of_not_lt hshort)
      have hleft : expired u.database.sessions cutoff = all.drop Limit.sweepBatch := by
        rw [hrows, ← hall]
        exact expired_without hids _
      obtain ⟨rest, v, hrest, -⟩ := releaseAll_exec (hlets.works hworks) (all.drop Limit.sweepBatch)
      have hwhole := exec_releaseAll_append hfirst hrest
      rw [List.take_append_drop] at hwhole
      cases h.symm.trans hwhole
      rw [hfull, decide_eq_false (Nat.lt_irrefl _), if_neg Bool.false_ne_true, List.foldl_append]
      refine ih (hlets.works hworks) ?_ ?_ (hleft ▸ hrest) hgoes
      · rw [hrows]
        exact hids.sublist (List.filter_sublist.map _)
      · have hstep := Nat.div_eq_sub_div sweepBatch_pos (Nat.le_of_not_lt hshort)
        rw [hleft, List.length_drop]
        omega

end Sweep

/-! ### The sweep -/

/-- Sessions that were last touched before this instant have expired. -/
def sweepCutoff (time : Instant) : Instant :=
  time.addSeconds (-(Limit.sessionLifetime : Int))

/-- What a sweep leaves: no session that has expired, nothing that such a session held, and all
other sessions, the attachments and the objects at their keys as they were. -/
structure State.Swept (s t : State) (cutoff : Instant) (outcomes : List (Except Error Unit)) :
    Prop where
  sessions : t.database.sessions
    = s.database.sessions.filter fun x => !decide (x.updated < cutoff)
  released : ∀ p ∈ (expired s.database.sessions cutoff).zip outcomes, IsReleased p.1 p.2 t
  attachments : t.database.attachments = s.database.attachments
  kept : ∀ a ∈ s.database.attachments, ∀ key ∈ objectKeys a, ∀ kind,
    t.object? kind key = s.object? kind key

/-- **A sweep removes the sessions that have expired and no other.** It does what would be done
without batches, it ends after as many batches as it takes to come to one that is short, and it
tells how many sessions it has removed, or the first failure to release one. -/
theorem sweepExpired_exec (time : Instant) (hids : (s.database.sessions.map (·.id)).Nodup)
    (hworks : s.database.mishap? .session .delete = none) :
    ∃ outcomes t,
      (releaseAll (expired s.database.sessions (sweepCutoff time))).exec s = (.ok outcomes, t)
      ∧ outcomes.length = (s.database.sessions.countP fun x => decide (x.updated < sweepCutoff time))
      ∧ (sweepExpired time).exec s
        = (match firstFailure outcomes with
            | none => .ok outcomes.length
            | some e => .error e, t)
      ∧ (∀ budget, outcomes.length / Limit.sweepBatch < budget →
        (Sweep.batches (sweepCutoff time) budget {}).exec s
          = (.ok { removed := outcomes.length, failure := firstFailure outcomes }, t))
      ∧ s.Swept t (sweepCutoff time) outcomes := by
  obtain ⟨outcomes, t, hexec, hlets, hrows, hlength, hreleased⟩ :=
    releaseAll_exec hworks (expired s.database.sessions (sweepCutoff time))
  have hcount : outcomes.length
      = s.database.sessions.countP fun x => decide (x.updated < sweepCutoff time) := by
    rw [hlength, (expired_perm _ _).length_eq, List.countP_eq_length_filter]
  have hbatches : ∀ budget, outcomes.length / Limit.sweepBatch < budget →
      (Sweep.batches (sweepCutoff time) budget {}).exec s
        = (.ok { removed := outcomes.length, failure := firstFailure outcomes }, t) := by
    intro budget hbudget
    rw [hlength] at hbudget
    rw [Sweep.batches_exec hworks hids hbudget hexec rfl, Sweep.foldl_count, Nat.zero_add,
      Option.none_or]
  refine ⟨outcomes, t, hexec, hcount, ?_, hbatches, ?_⟩
  · have hquery : (query (·.sessions.length)).exec s = (.ok s.database.sessions.length, s) := rfl
    have hbudget : outcomes.length / Limit.sweepBatch < s.database.sessions.length + 1 := by
      have hle := List.countP_le_length (p := fun x => decide (x.updated < sweepCutoff time))
        (l := s.database.sessions)
      have hdiv := Nat.div_le_self outcomes.length Limit.sweepBatch
      omega
    rw [sweepExpired, exec_bind_of_ok hquery]
    show exec (Sweep.batches (sweepCutoff time) _ {} >>= _) s = _
    rw [exec_bind_of_ok (hbatches _ hbudget)]
    cases firstFailure outcomes <;> rfl
  · exact
      { sessions := hrows.trans (without_expired hids)
        released := hreleased
        attachments := hlets.attachments
        kept := fun a ha key hkey => hlets.object?_eq (usesKey_of_mem ha hkey) }

/-- Two users have begun uploads, and one of them has gone on with it. Nothing can be removed from
the store. -/
def idleUploads : State :=
  let s := bucketServer.after
    [.createSession (some 7) { filename := "notes.bin", size := 3 },
      .createSession (some 8) { filename := "film.mp4", size := 8 }]
  let touch (x : Session) : Session :=
    if x.creator = 8 then { x with updated := .ofSeconds 200000 } else x
  { s with
    database := { s.database with sessions := s.database.sessions.map touch }
    store := { s.store with failures := [(.delete, "store is closed")] } }

theorem sweepExpired_exec_idleUploads :
    ∃ e t, (sweepExpired (.ofSeconds 200000)).exec idleUploads = (.error e, t)
      ∧ e.message = "Storage error: store is closed"
      ∧ t.database.sessions.map (·.creator) = [8] := by
  have hids : (idleUploads.database.sessions.map (·.id)).Nodup := by decide +kernel
  have hworks : idleUploads.database.mishap? .session .delete = none := by decide +kernel
  obtain ⟨outcomes, t, -, -, hexec, -, hswept⟩ :=
    sweepExpired_exec (.ofSeconds 200000) hids hworks
  have hmessage : ((sweepExpired (.ofSeconds 200000)).exec idleUploads).1.mapError Error.message
      = .error "Storage error: store is closed" := by
    decide +kernel
  rw [hexec] at hmessage ⊢
  cases hfirst : firstFailure outcomes with
  | none =>
    rw [hfirst] at hmessage
    cases hmessage
  | some e =>
    rw [hfirst] at hmessage
    refine ⟨e, t, rfl, Except.error.inj hmessage, ?_⟩
    rw [hswept.sessions]
    decide +kernel

end Server

end SharedMemos
