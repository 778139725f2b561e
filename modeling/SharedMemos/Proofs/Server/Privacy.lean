import Mathlib.Data.List.Nodup
import Mathlib.Data.List.Perm.Basic
import SharedMemos.Proofs.Lookup
import SharedMemos.Proofs.Server.Comparison
import SharedMemos.Proofs.Server.Database
import SharedMemos.Proofs.Server.Listing
import SharedMemos.Server.Attachments

/-!
# What a viewer does not see

A memo that a viewer may not see makes no difference to the viewer, and neither does an attachment
that hangs on such a memo or on none. Two states that agree on what the viewer may see give the
viewer the same answers, whatever else is in their tables: pages of a listing, changes since a time,
counts of tags, memos, attachments and their bytes, and also the answer to a change or a deletion,
which is refused in one set of words whether the memo is hidden or missing.

Each of these requests has a visibility test of its own. A query tests rows before it sorts and cuts
them, so hidden rows do not use up places among the candidates; the count of tags has a test that
ignores grants, and counts nothing that is hidden; a request for one row finds the row first and
tests it then. For the last it matters that keys tell rows apart: a hidden row cannot stand in front
of a visible one.

What the tables have in common need not stand in one order. Everything that is given out in order is
sorted by times and, for equal times, by numbers, so that the rows determine the order.

## Main definitions

* `State.Agrees` — two states agree on what a viewer may see
* `State.seenBy` — the state with nothing in its tables but what a viewer may see

## Main results

* `answers_agree` — the answers in states that agree
* `agrees_seenBy` — hidden rows are as good as missing
-/

namespace SharedMemos.Server

open Attempt SharedMemos.Filter SharedMemos.Query SharedMemos.Storage SharedMemos.Upload

/-! ### States that agree -/

namespace Database

/-- Do the keys of the tables tell their rows apart? -/
structure HasKeys (d : Database) : Prop where
  memoId : (d.memos.map (·.id)).Nodup
  memoUid : (d.memos.map (·.uid)).Nodup
  attachmentUid : (d.attachments.map (·.uid)).Nodup
  eventId : (d.events.map (·.id)).Nodup

/-- May a viewer open an attachment? It is the viewer's own, or linked to a memo that the viewer
sees. -/
def isOpenTo (d : Database) (viewer : Viewer) (a : Attachment) : Bool :=
  viewer == some a.creator || d.memos.any fun m => a.memo == some m.id && m.isVisibleTo viewer

/-- Two databases agree on what a viewer may see, and on what is no one's. -/
structure Agrees (viewer : Viewer) (d e : Database) : Prop where
  settings : d.settings = e.settings
  mishaps : d.mishaps = e.mishaps
  memos : ∀ m : Memo, m.isVisibleTo viewer = true → (m ∈ d.memos ↔ m ∈ e.memos)
  attachments : ∀ a, d.isOpenTo viewer a = true → (a ∈ d.attachments ↔ a ∈ e.attachments)
  events : ∀ user, viewer = some user → ∀ c : ChangeEvent, user ∈ c.recipients →
    (c ∈ d.events ↔ c ∈ e.events)

end Database

/-- Two states agree on what a viewer may see: on that part of the tables, on the clock, and on the
stores. -/
structure State.Agrees (viewer : Viewer) (s t : State) : Prop where
  database : s.database.Agrees viewer t.database
  source : s.source = t.source
  looks : s.looks = t.looks
  resolver : s.resolver = t.resolver
  disk : s.disk = t.disk
  store : s.store = t.store

/-! ### Sorting what two tables have in common -/

section

variable {α κ : Type} {key : α → κ}

/-- Where keys tell rows apart, tables that have the same rows of a sort have them in some order. -/
theorem filter_perm_filter {rows rows' : List α} {p : α → Bool} (h : (rows.map key).Nodup)
    (h' : (rows'.map key).Nodup) (hsame : ∀ row, p row = true → (row ∈ rows ↔ row ∈ rows')) :
    (rows.filter p).Perm (rows'.filter p) := by
  rw [List.perm_ext_iff_of_nodup ((List.Nodup.of_map key h).filter p)
    ((List.Nodup.of_map key h').filter p)]
  intro row
  rw [List.mem_filter, List.mem_filter]
  constructor
  · rintro ⟨hrow, hp⟩
    exact ⟨(hsame row hp).mp hrow, hp⟩
  · rintro ⟨hrow, hp⟩
    exact ⟨(hsame row hp).mpr hrow, hp⟩

/-- Tables that have the same rows of a sort both have one or both have none. -/
theorem any_congr_rows {rows rows' : List α} {p : α → Bool}
    (hsame : ∀ row, p row = true → (row ∈ rows ↔ row ∈ rows')) : rows.any p = rows'.any p := by
  rw [Bool.eq_iff_iff, List.any_eq_true, List.any_eq_true]
  constructor
  · rintro ⟨row, hrow, hp⟩
    exact ⟨row, (hsame row hp).mp hrow, hp⟩
  · rintro ⟨row, hrow, hp⟩
    exact ⟨row, (hsame row hp).mpr hrow, hp⟩

/-- The rows determine the order in which they are sorted, if no two are equal in it. -/
theorem mergeSort_congr (le : α → α → Bool) {rows rows' : List α}
    (htrans : ∀ a b c, le a b → le b c → le a c) (htotal : ∀ a b, le a b || le b a)
    (hanti : ∀ a ∈ rows, ∀ b ∈ rows, le a b → le b a → a = b) (hperm : rows.Perm rows') :
    rows.mergeSort le = rows'.mergeSort le := by
  have hsorted : (rows.mergeSort le).Perm (rows'.mergeSort le) :=
    (List.mergeSort_perm rows le).trans (hperm.trans (List.mergeSort_perm rows' le).symm)
  refine hsorted.eq_of_pairwise (fun a b ha hb => ?_) (List.pairwise_mergeSort htrans htotal rows)
    (List.pairwise_mergeSort htrans htotal rows')
  exact hanti a (List.mem_mergeSort.mp ha) b (hperm.mem_iff.mpr (List.mem_mergeSort.mp hb))

end

theorem before_trans (order : Order) (a b c : Memo) (hab : MemoQuery.before order a b)
    (hbc : MemoQuery.before order b c) : MemoQuery.before order a c := by
  cases order with
  | newestFirst => exact newestFirst_trans a b c hab hbc
  | leastRecentFirst =>
    simp only [MemoQuery.before, Bool.or_eq_true, Bool.and_eq_true, decide_eq_true_eq, beq_iff_eq,
      Instant.lt_iff, Instant.eq_iff] at *
    omega

theorem before_total (order : Order) (a b : Memo) :
    (MemoQuery.before order a b || MemoQuery.before order b a) := by
  cases order with
  | newestFirst => exact newestFirst_total a b
  | leastRecentFirst =>
    simp only [MemoQuery.before, Bool.or_eq_true, Bool.and_eq_true, decide_eq_true_eq, beq_iff_eq,
      Instant.lt_iff, Instant.eq_iff]
    omega

/-- Memos that come before each other have one number. -/
theorem id_eq_of_before {order : Order} {a b : Memo} (hab : MemoQuery.before order a b)
    (hba : MemoQuery.before order b a) : a.id = b.id := by
  cases order <;>
  · simp only [MemoQuery.before, Bool.or_eq_true, Bool.and_eq_true, decide_eq_true_eq, beq_iff_eq,
      Instant.lt_iff, Instant.eq_iff] at *
    omega

/-- **A query finds the same in tables that have the same visible rows.** -/
theorem run_congr {q : MemoQuery} {table table' : List Memo}
    (hviewer : ∀ user, q.viewer = some user → 0 < user ∧ user ≤ Text.maxInt64)
    (h : (table.map (·.id)).Nodup) (h' : (table'.map (·.id)).Nodup)
    (hsame : ∀ m : Memo, m.isVisibleTo q.viewer = true → (m ∈ table ↔ m ∈ table')) :
    q.run table = q.run table' := by
  have hperm : (table.filter q.clause.holds).Perm (table'.filter q.clause.holds) := by
    refine filter_perm_filter h h' fun m hm => hsame m ?_
    rw [MemoQuery.clause_holds hviewer] at hm
    simp only [Bool.and_eq_true] at hm
    exact hm.1.1.1
  have hsorted : (table.filter q.clause.holds).mergeSort (MemoQuery.before q.order)
      = (table'.filter q.clause.holds).mergeSort (MemoQuery.before q.order) := by
    refine mergeSort_congr _ (before_trans _) (before_total _) (fun a ha b hb hab hba => ?_) hperm
    exact List.inj_on_of_nodup_map h (List.mem_filter.mp ha).1 (List.mem_filter.mp hb).1
      (id_eq_of_before hab hba)
  simp only [MemoQuery.run, hsorted]

namespace Database

variable {viewer : Viewer} {d e : Database}

/-- The names of memos that are gone are read off the events that tell the user. -/
theorem removedNames_congr {user : UserId} (hd : d.HasKeys) (he : e.HasKeys)
    (h : d.Agrees (some user) e) (after upTo : Instant) :
    d.removedNames user after upTo = e.removedNames user after upTo := by
  have hperm := filter_perm_filter (p := fun c : ChangeEvent =>
      c.recipients.contains user && decide (after < c.time) && decide (c.time ≤ upTo))
    hd.eventId he.eventId fun c hc => by
      simp only [Bool.and_eq_true, List.contains_iff_mem] at hc
      exact h.events user rfl c hc.1.1
  rw [removedNames, removedNames]
  refine congrArg (fun events : List ChangeEvent => (events.map (·.memoName)).eraseDups) ?_
  refine mergeSort_congr _ ?_ ?_ ?_ hperm
  · intro a b c
    simp only [Bool.or_eq_true, Bool.and_eq_true, decide_eq_true_eq, beq_iff_eq, Instant.lt_iff,
      Instant.eq_iff]
    omega
  · intro a b
    simp only [Bool.or_eq_true, Bool.and_eq_true, decide_eq_true_eq, beq_iff_eq, Instant.lt_iff,
      Instant.eq_iff]
    omega
  · intro a ha b hb hab hba
    refine List.inj_on_of_nodup_map hd.eventId (List.mem_filter.mp ha).1
      (List.mem_filter.mp hb).1 ?_
    simp only [Bool.or_eq_true, Bool.and_eq_true, decide_eq_true_eq, beq_iff_eq, Instant.lt_iff,
      Instant.eq_iff] at hab hba
    omega

/-- Nothing is counted that the viewer does not see. -/
theorem isVisibleTo_of_countsFor {user : UserId} {m : Memo}
    (h : countsFor viewer user m = true) : m.isVisibleTo viewer = true := by
  cases viewer with
  | none =>
    simp only [countsFor, Bool.and_eq_true] at h
    exact h.2
  | some v =>
    simp only [countsFor, Bool.and_eq_true, beq_iff_eq, Bool.or_eq_true, bne_iff_ne] at h
    simp only [Memo.isVisibleTo, Bool.or_eq_true, beq_iff_eq]
    obtain ⟨⟨hcreator, -⟩, rfl | hwide⟩ := h
    · exact .inl (.inl (.inl hcreator))
    · cases hvisibility : m.visibility with
      | restricted => exact absurd hvisibility hwide
      | members => exact .inl (.inr rfl)
      | everyone => exact .inl (.inl (.inr rfl))

theorem tagCounts_congr (hd : d.HasKeys) (he : e.HasKeys) (h : d.Agrees viewer e) (user : UserId) :
    d.tagCounts user viewer = e.tagCounts user viewer := by
  have hmemos := filter_perm_filter (p := countsFor viewer user) hd.memoId he.memoId
    fun m hm => h.memos m (isVisibleTo_of_countsFor hm)
  have htags := hmemos.flatMap_right fun m : Memo => m.tags.eraseDups
  have hsorted := mergeSort_congr (fun a b : String => decide (a ≤ b))
    (fun a b c hab hbc => decide_eq_true
      (String.le_trans (of_decide_eq_true hab) (of_decide_eq_true hbc)))
    (fun a b => by simpa using String.le_total a b)
    (fun a _ b _ hab hba => String.le_antisymm (of_decide_eq_true hab) (of_decide_eq_true hba))
    htags
  rw [tagCounts, tagCounts]
  simp only [hsorted, htags.count_eq]

/-- The memo with a uid, if the viewer sees it. -/
theorem visibleMemo_congr (hd : d.HasKeys) (he : e.HasKeys) (h : d.Agrees viewer e) (uid : String)
    {p : Memo → Bool} (hp : ∀ m : Memo, p m = true → m.isVisibleTo viewer = true) :
    (d.memoByUid? uid).filter p = (e.memoByUid? uid).filter p :=
  filter_find?_congr hd.memoUid he.memoUid fun m hm => h.memos m (hp m hm)

theorem isOpenTo_congr (h : d.Agrees viewer e) (a : Attachment) :
    d.isOpenTo viewer a = e.isOpenTo viewer a := by
  rw [isOpenTo, isOpenTo, any_congr_rows fun m hm => h.memos m (Bool.and_eq_true_iff.mp hm).2]

/-- The attachment with a uid, if the viewer may open it. -/
theorem openAttachment_congr (hd : d.HasKeys) (he : e.HasKeys) (h : d.Agrees viewer e)
    (uid : String) :
    (d.attachmentByUid? uid).filter (d.isOpenTo viewer)
      = (e.attachmentByUid? uid).filter (e.isOpenTo viewer) := by
  rw [← show d.isOpenTo viewer = e.isOpenTo viewer from funext (isOpenTo_congr h)]
  exact filter_find?_congr hd.attachmentUid he.attachmentUid h.attachments

/-- The attachments that hang on a memo that the viewer sees. -/
theorem isLinked_congr (h : d.Agrees viewer e) {m : Memo} (hm : m ∈ d.memos)
    (hvisible : m.isVisibleTo viewer = true) :
    (d.attachments.any fun a => a.memo == some m.id)
      = e.attachments.any fun a => a.memo == some m.id := by
  refine any_congr_rows fun a hlink => h.attachments a ?_
  rw [isOpenTo, Bool.or_eq_true, List.any_eq_true]
  exact .inr ⟨m, hm, by rw [hlink, hvisible]; rfl⟩

/-! ### Transactions on a memo that the viewer sees -/

/-- The databases go wrong alike, and both have a memo with a number or both have none. -/
def HaveAlike (id : Int) (d e : Database) : Prop :=
  d.mishaps = e.mishaps ∧ d.memos.any (·.id == id) = e.memos.any (·.id == id)

/-- In addition, attachments hang on the memo in both or in none. -/
def LinkAlike (id : Int) (d e : Database) : Prop :=
  HaveAlike id d e
    ∧ (d.attachments.any fun a => a.memo == some id) = e.attachments.any fun a => a.memo == some id

theorem filterAuxM_concurs {α : Type} {P : Database → Database → Prop} {f : α → Transaction Bool}
    (hf : ∀ a, Concurs P P (f a)) (xs : List α) :
    ∀ kept : List α, Concurs P P (xs.filterAuxM f kept) := by
  induction xs with
  | nil => exact fun kept => .pure kept fun _ _ => id
  | cons x xs ih =>
    intro kept
    rw [List.filterAuxM]
    exact (hf x).bind fun isKept => ih _

/-- An event is recorded alike; its number may differ. -/
theorem insertEvent_concurs {P : Database → Database → Prop}
    (hmishaps : ∀ d e, P d e → d.mishaps = e.mishaps)
    (hevents : ∀ d e events events' last last', P d e →
      P { d with events := events, lastEvent := last }
        { e with events := events', lastEvent := last' })
    (m : Memo) (kind : ChangeKind) (time : Instant) (recipients : List UserId) :
    Concurs P P (insertEvent m kind time recipients) := by
  rw [insertEvent]
  refine (Concurs.require hmishaps).bind fun _ => ?_
  have hkept : Concurs P P (recipients.filterM fun _ => allows .recipient .insert) := by
    rw [List.filterM]
    exact (filterAuxM_concurs (fun _ => .allows hmishaps) recipients []).bind fun kept =>
      .pure _ fun _ _ => id
  exact hkept.bind fun kept => .modify fun d e hP => hevents d e _ _ _ _ hP

theorem updateMemo_concurs (m : Memo) (revoked : List UserId) (time : Instant) :
    Concurs (HaveAlike m.id) (fun d e => d.mishaps = e.mishaps)
      (Database.updateMemo m revoked time) := by
  rw [Database.updateMemo]
  dsimp only
  refine .get_bind (fun d e hP => ?_) fun d => ?_
  · simp only [hP.2]
  · refine .ite (.throw _) ?_
    refine (Concurs.allows fun _ _ hP => hP.1).bind fun isAllowed => ?_
    refine .ite (.throw _) ?_
    refine (Concurs.modify fun d e hP => ?_ :
      Concurs _ (fun d e => d.mishaps = e.mishaps) _).bind fun _ => ?_
    · exact hP.1
    · split
      · exact (insertEvent_concurs (fun _ _ hP => hP) (fun _ _ _ _ _ _ hP => hP) _ _ _ _).bind
          fun _ => .pure _ fun _ _ => id
      · exact .pure _ fun _ _ => id

/-- What comes last when a memo is deleted: its row goes, if its attachments have been unlinked. -/
def removeMemoRow (m : Memo) (isUnlinked : Bool) : Transaction Unit := do
  if !(← get).memos.any (·.id == m.id) then throw (memoGone m)
  if !(← allows .memo .delete) then throw (memoGone m)
  if !isUnlinked then throw failure
  modify fun d => { d with memos := d.memos.filter (·.id != m.id) }

theorem removeMemoRow_concurs (m : Memo) (isUnlinked : Bool) :
    Concurs (HaveAlike m.id) (fun d e => d.mishaps = e.mishaps) (removeMemoRow m isUnlinked) := by
  rw [removeMemoRow]
  refine .get_bind (fun d e hP => ?_) fun d => ?_
  · simp only [hP.2]
  · refine .ite (.throw _) ?_
    refine (Concurs.allows fun _ _ hP => hP.1).bind fun isAllowed => ?_
    refine .ite (.throw _) ?_
    exact .ite (.throw _) (.modify fun _ _ hP => hP.1)

theorem deleteMemo_concurs (m : Memo) (recipients : List UserId) (time : Instant) :
    Concurs (LinkAlike m.id) (fun d e => d.mishaps = e.mishaps)
      (Database.deleteMemo m recipients time) := by
  rw [Database.deleteMemo]
  dsimp only
  refine (insertEvent_concurs (fun _ _ hP => hP.1.1) (fun _ _ _ _ _ _ hP => hP) _ _ _ _).bind
    fun _ => ?_
  refine .get_bind (fun d e hP => ?_) fun d => ?_
  · simp only [hP.2]
  · have hunlink : ∀ isUnlinked : Bool, Concurs (LinkAlike m.id)
        (fun d e => d.mishaps = e.mishaps) (do
          if isUnlinked then
            modify fun d => { d with attachments := d.attachments.map (unlinked m time) }
          removeMemoRow m isUnlinked) := by
      intro isUnlinked
      refine .ite ?_ fun d e hP => removeMemoRow_concurs m isUnlinked d e hP.1
      exact (Concurs.modify fun d e hP => hP.1).bind fun _ => removeMemoRow_concurs m isUnlinked
    refine .ite ?_ ?_
    · exact (Concurs.allows fun _ _ hP => hP.1.1).bind hunlink
    · exact (Concurs.pure true fun _ _ => id).bind hunlink

end Database

/-! ### Requests -/

/-- The states that requests are compared in. -/
structure Matched (viewer : Viewer) (s t : State) : Prop where
  agrees : s.Agrees viewer t
  left : s.database.HasKeys
  right : t.database.HasKeys

section

variable {viewer : Viewer} {s t : State} {α : Type}

theorem query_mirrors {f : Database → α}
    (h : ∀ d e : Database, d.HasKeys → e.HasKeys → d.Agrees viewer e → f d = f e) :
    (query f).Mirrors (Matched viewer) :=
  Mirrors.look fun _ _ hR => h _ _ hR.left hR.right hR.agrees.database

theorem now_mirrors : now.Mirrors (Matched viewer) := by
  intro s t hR
  obtain ⟨h, left, right⟩ := hR
  refine ⟨?_, ⟨{ h with looks := congrArg (· + 1) h.looks }, left, right⟩⟩
  show Except.ok (s.source.time s.looks) = Except.ok (t.source.time t.looks)
  rw [h.source, h.looks]

theorem onDisk_mirrors {f : Tree → Except Error α × Tree} :
    (onDisk f).Mirrors (Matched viewer) := by
  rintro s t ⟨h, left, right⟩
  rw [onDisk, exec_atomic, exec_atomic, h.disk]
  exact ⟨rfl, { h with disk := rfl }, left, right⟩

theorem onStore_mirrors {f : ObjectStore → Except Error α × ObjectStore} :
    (onStore f).Mirrors (Matched viewer) := by
  rintro s t ⟨h, left, right⟩
  rw [onStore, exec_atomic, exec_atomic, h.store]
  exact ⟨rfl, { h with store := rfl }, left, right⟩

theorem backendFor_mirrors (kind : Kind) (setting : Setting) :
    (backendFor kind setting).Mirrors (Matched viewer) := by
  rintro s t ⟨h, left, right⟩
  rw [backendFor, exec_atomic, exec_atomic]
  rw [h.resolver]
  exact ⟨rfl, { h with resolver := rfl }, left, right⟩

/-- The databases that requests are compared on. -/
def Database.Matched (viewer : Viewer) (d e : Database) : Prop :=
  d.Agrees viewer e ∧ d.HasKeys ∧ e.HasKeys

theorem initSetting_concurs (name text : String) :
    Database.Concurs (Database.Matched viewer) (Database.Matched viewer)
      (Database.initSetting name text) := by
  rw [Database.initSetting]
  refine (Database.Concurs.allows fun _ _ hP => hP.1.mishaps).bind fun isAllowed => ?_
  refine .ite (.get_bind (fun d e hP => ?_) fun d => ?_) (.pure _ fun _ _ => id)
  · have hsetting : d.setting? name = e.setting? name := by
      rw [Database.setting?, Database.setting?, hP.1.settings]
    rw [hsetting]
  · refine .ite (.modify fun d e hP => ?_) (.pure _ fun _ _ => id)
    obtain ⟨h, hd, he⟩ := hP
    refine ⟨{ h with settings := ?_ }, { hd with }, { he with }⟩
    show (name, text) :: _ = (name, text) :: _
    rw [h.settings]

theorem setting?_mirrors (name : String) : (query (·.setting? name)).Mirrors (Matched viewer) := by
  refine query_mirrors fun d e _ _ h => ?_
  rw [Database.setting?, Database.setting?, h.settings]

theorem storageSetting_mirrors : storageSetting.Mirrors (Matched viewer) := by
  rw [storageSetting]
  refine (setting?_mirrors _).bind fun text => ?_
  split
  · exact Mirrors.ofExcept _
  · have hinit : (transact (Database.initSetting storageSettingName ({} : Setting).toText)).Mirrors
        (Matched viewer) := by
      have hconcurs : Database.Concurs (Database.Matched viewer) (Database.Matched viewer) _ :=
        initSetting_concurs storageSettingName ({} : Setting).toText
      refine transact_mirrors hconcurs (fun s t hR => ?_) fun s t d e hR hQ => ?_
      · exact ⟨hR.agrees.database, hR.left, hR.right⟩
      · exact ⟨{ hR.agrees with database := hQ.1 }, hQ.2.1, hQ.2.2⟩
    refine hinit.bind fun _ => (setting?_mirrors _).bind fun text => ?_
    split
    · exact Mirrors.ofExcept _
    · exact Mirrors.pure _

theorem open_mirrors (b : Backend) (key : String) : (b.open key).Mirrors (Matched viewer) := by
  cases b with
  | disk => exact onDisk_mirrors (f := fun t => (Disk.open t key, t))
  | bucket client => exact Mirrors.throw _
  | tied => exact onStore_mirrors (f := fun s => s.open key)

theorem openRange_mirrors (b : Backend) (key : String) (first : Nat) (last : Option Nat) :
    (b.openRange key first last).Mirrors (Matched viewer) := by
  cases b with
  | disk => exact onDisk_mirrors (f := fun t => (Disk.openRange t key first last, t))
  | bucket client => exact Mirrors.ofExcept _
  | tied => exact onStore_mirrors (f := fun s => s.openRange key first last)

theorem signGet_mirrors (b : Backend) (key : String) (lifetime : Nat) :
    (b.signGet key lifetime).Mirrors (Matched viewer) := by
  cases b with
  | disk => exact Mirrors.throw _
  | bucket client => exact Mirrors.ofExcept _
  | tied => exact onStore_mirrors (f := fun s => s.signGet key lifetime)

/-! ### Requests about memos -/

theorem listMemos_mirrors (hviewer : ∀ user, viewer = some user → 0 < user ∧ user ≤ Text.maxInt64)
    (state : Option MemoState) (source : String) (wanted : Int) (token : String) :
    (listMemos viewer state source wanted token).Mirrors (Matched viewer) := by
  rw [listMemos]
  refine (Mirrors.ofExcept _).bind fun filter => (Mirrors.ofExcept _).bind fun offset => ?_
  refine Mirrors.bind (query_mirrors fun d e hd he h => ?_) fun candidates =>
    now_mirrors.bind fun time => Mirrors.pure _
  exact run_congr hviewer hd.memoId he.memoId h.memos

theorem windowEnd_mirrors (anchor : Option Timestamp) :
    (windowEnd anchor).Mirrors (Matched viewer) := by
  have hnow : (do return .ofInstant (← now) : Action Timestamp).Mirrors (Matched viewer) :=
    now_mirrors.bind fun time => Mirrors.pure _
  cases anchor with
  | none => exact hnow
  | some anchor =>
    rw [windowEnd]
    split
    · exact Mirrors.pure _
    · exact hnow

theorem listChanges_mirrors (hviewer : ∀ user, viewer = some user → 0 < user ∧ user ≤ Text.maxInt64)
    (state : Option MemoState) (source : String) (since : Timestamp) (anchor : Option Timestamp) :
    (listChanges viewer state source since anchor).Mirrors (Matched viewer) := by
  rw [listChanges]
  cases viewer with
  | none => exact Mirrors.throw_bind _ _
  | some user =>
    show ((requestFilter source >>= _ : Action MemoChanges)).Mirrors _
    refine (Mirrors.ofExcept _).bind fun filter => (windowEnd_mirrors anchor).bind fun anchor => ?_
    refine now_mirrors.bind fun time => Mirrors.bind (query_mirrors fun d e hd he h => ?_)
      fun found => Mirrors.bind (query_mirrors fun d e hd he h => ?_) fun removed => Mirrors.pure _
    · exact run_congr hviewer hd.memoId he.memoId h.memos
    · exact Database.removedNames_congr hd he h _ _

/-- A request for a memo finds it first and looks whether it is visible then. -/
theorem getMemo_exec (viewer : Viewer) (uid : String) (s : State) :
    (getMemo viewer uid).exec s
      = (((s.database.memoByUid? uid).filter (·.isVisibleTo viewer)).elim
          (.error (memoMissing uid)) .ok, s) := by
  have hquery : (query (·.memoByUid? uid)).exec s = (.ok (s.database.memoByUid? uid), s) := rfl
  rw [getMemo, exec_bind_of_ok hquery]
  cases s.database.memoByUid? uid with
  | none => rfl
  | some m =>
    dsimp only
    rw [Option.filter_some]
    split <;> rfl

/-- So does a request to change or delete one. -/
theorem modifiableMemo_run (user : UserId) (uid : String) (s : State) :
    (modifiableMemo user uid).exec s
      = (((s.database.memoByUid? uid).filter (·.canModify user)).elim
          (.error (memoMissing uid)) .ok, s) := by
  have hquery : (query (·.memoByUid? uid)).exec s = (.ok (s.database.memoByUid? uid), s) := rfl
  rw [modifiableMemo, exec_bind_of_ok hquery]
  cases s.database.memoByUid? uid with
  | none => rfl
  | some m =>
    dsimp only
    rw [Option.filter_some]
    split <;> rfl

theorem getMemo_mirrors (uid : String) : (getMemo viewer uid).Mirrors (Matched viewer) := by
  intro s t hR
  rw [getMemo_exec, getMemo_exec,
    Database.visibleMemo_congr hR.left hR.right hR.agrees.database uid fun _ => id]
  exact ⟨rfl, hR⟩

theorem tagCounts_mirrors (user : UserId) : (tagCounts user viewer).Mirrors (Matched viewer) :=
  query_mirrors fun _ _ hd he h => Database.tagCounts_congr hd he h user

/-- A request on a memo that a user may change, whatever is then done about it. It is enough that
this hides states that agree and that have the memo. -/
theorem modifiableMemo_hides {user : UserId} {uid : String} {f : Memo → Action α}
    (hf : ∀ m : Memo, m.canModify user = true →
      (f m).Hides fun s t => Matched (some user) s t ∧ m ∈ s.database.memos) :
    (modifiableMemo user uid >>= f).Hides (Matched (some user)) := by
  intro s t hR
  have hsame := Database.visibleMemo_congr hR.left hR.right hR.agrees.database uid
    (p := (·.canModify user)) fun m => Memo.isVisibleTo_of_canModify
  rw [exec_bind, exec_bind, modifiableMemo_run, modifiableMemo_run, ← hsame]
  cases hfound : (s.database.memoByUid? uid).filter (·.canModify user) with
  | none => rfl
  | some m =>
    obtain ⟨hm, hmodify⟩ := Option.filter_eq_some_iff.mp hfound
    exact hf m hmodify s t ⟨hR, List.mem_of_find?_eq_some hm⟩

/-- The states have a memo that the viewer sees alike, and what hangs on it. -/
theorem Matched.linkAlike {m : Memo} (h : Matched viewer s t) (hm : m ∈ s.database.memos)
    (hvisible : m.isVisibleTo viewer = true) :
    Database.LinkAlike m.id s.database t.database := by
  have hm' : m ∈ t.database.memos := (h.agrees.database.memos m hvisible).mp hm
  have hhas : ∀ {d : Database}, m ∈ d.memos → (d.memos.any (·.id == m.id)) = true :=
    fun hmem => List.any_eq_true.mpr ⟨m, hmem, beq_self_eq_true _⟩
  refine ⟨⟨h.agrees.database.mishaps, ?_⟩, Database.isLinked_congr h.agrees.database hm hvisible⟩
  rw [hhas hm, hhas hm']

theorem Matched.time_eq (h : Matched viewer s t) :
    s.source.time s.looks = t.source.time t.looks := by
  rw [h.agrees.source, h.agrees.looks]

theorem updateMemo_hides (uid : String) (edit : MemoEdit) :
    (updateMemo viewer uid edit).Hides (Matched viewer) := by
  cases viewer with
  | none => exact (Mirrors.throw_bind _ _).hides
  | some user =>
    show (modifiableMemo user uid >>= _).Hides _
    refine modifiableMemo_hides fun m hmodify => Hides.bind (Mirrors.ofExcept _) fun _ => ?_
    refine transactNow_hides (Database.updateMemo_concurs _ _) (fun s t hR => hR.1.time_eq)
      fun s t hR => ?_
    exact (hR.1.linkAlike hR.2 (Memo.isVisibleTo_of_canModify hmodify)).1

theorem deleteMemo_hides (uid : String) : (deleteMemo viewer uid).Hides (Matched viewer) := by
  cases viewer with
  | none => exact (Mirrors.throw_bind _ _).hides
  | some user =>
    show (modifiableMemo user uid >>= _).Hides _
    refine modifiableMemo_hides fun m hmodify => ?_
    refine transactNow_hides (Database.deleteMemo_concurs _ _) (fun s t hR => hR.1.time_eq)
      fun s t hR => ?_
    exact hR.1.linkAlike hR.2 (Memo.isVisibleTo_of_canModify hmodify)

/-! ### Requests about attachments -/

/-- A request for an attachment finds it first and looks whether the viewer may open it then. -/
theorem getAttachment_exec (viewer : Viewer) (uid : String) {s : State}
    (hkeys : s.database.HasKeys) :
    (getAttachment viewer uid).exec s
      = (((s.database.attachmentByUid? uid).filter (s.database.isOpenTo viewer)).elim
          (.error (attachmentMissing uid)) .ok, s) := by
  have hquery : (query (·.attachmentByUid? uid)).exec s
      = (.ok (s.database.attachmentByUid? uid), s) := rfl
  rw [getAttachment, exec_bind_of_ok hquery]
  cases s.database.attachmentByUid? uid with
  | none => rfl
  | some a =>
    dsimp only
    rw [Option.filter_some, Database.isOpenTo]
    cases hown : viewer == some a.creator with
    | true => rfl
    | false =>
      cases hlink : a.memo with
      | none =>
        have hnone : (s.database.memos.any fun m =>
            (none : Option Int) == some m.id && m.isVisibleTo viewer) = false :=
          List.any_eq_false.mpr fun m _ => by simp
        rw [hnone]
        rfl
      | some id =>
        have hsome : (s.database.memos.any fun m => some id == some m.id && m.isVisibleTo viewer)
            = (s.database.memoById? id).any (·.isVisibleTo viewer) := by
          rw [Database.memoById?, any_find?_of_nodup hkeys.memoId]
          refine congrArg (s.database.memos.any ·) (funext fun m => ?_)
          rw [BEq.comm (a := m.id)]
          rfl
        rw [hsome, Bool.false_or]
        show Attempt.exec (query (·.memoById? id) >>= _) s = _
        rw [exec_bind_of_ok (show (query (·.memoById? id)).exec s
          = (.ok (s.database.memoById? id), s) from rfl)]
        cases s.database.memoById? id with
        | none => rfl
        | some m =>
          dsimp only
          rw [Option.any_some]
          split <;> rfl

theorem getAttachment_mirrors (uid : String) :
    (getAttachment viewer uid).Mirrors (Matched viewer) := by
  intro s t hR
  rw [getAttachment_exec viewer uid hR.left, getAttachment_exec viewer uid hR.right,
    Database.openAttachment_congr hR.left hR.right hR.agrees.database uid]
  exact ⟨rfl, hR⟩

theorem openAttachment_mirrors (uid : String) (range : Option ByteRange)
    (wantsThumbnail wantsRedirect : Bool) :
    (openAttachment viewer uid range wantsThumbnail wantsRedirect).Mirrors (Matched viewer) := by
  rw [openAttachment]
  refine (getAttachment_mirrors uid).bind fun a => storageSetting_mirrors.bind fun setting => ?_
  refine (backendFor_mirrors a.storage setting).bind fun backend => ?_
  dsimp only
  split
  · exact (signGet_mirrors backend _ _).bind fun address => Mirrors.pure _
  · split
    · exact (open_mirrors backend _).bind fun content => Mirrors.pure _
    · refine (Mirrors.ofExcept _).bind fun bounds => ?_
      exact (openRange_mirrors backend _ _ _).bind fun content => Mirrors.pure _

end

/-- **What a viewer does not see makes no difference to the viewer.** In two states that agree on
what the viewer may see, every request that reads gives the same, and so does every request to
change or delete a memo, whether it succeeds or is refused. -/
theorem answers_agree {viewer : Viewer}
    (hviewer : ∀ user, viewer = some user → 0 < user ∧ user ≤ Text.maxInt64) {s t : State}
    (hs : s.database.HasKeys) (ht : t.database.HasKeys) (h : s.Agrees viewer t) :
    (∀ state source wanted token, ((listMemos viewer state source wanted token).exec s).1
        = ((listMemos viewer state source wanted token).exec t).1)
      ∧ (∀ state source since anchor, ((listChanges viewer state source since anchor).exec s).1
        = ((listChanges viewer state source since anchor).exec t).1)
      ∧ (∀ uid, ((getMemo viewer uid).exec s).1 = ((getMemo viewer uid).exec t).1)
      ∧ (∀ user, ((tagCounts user viewer).exec s).1 = ((tagCounts user viewer).exec t).1)
      ∧ (∀ uid, ((getAttachment viewer uid).exec s).1 = ((getAttachment viewer uid).exec t).1)
      ∧ (∀ uid range wantsThumbnail wantsRedirect,
        ((openAttachment viewer uid range wantsThumbnail wantsRedirect).exec s).1
          = ((openAttachment viewer uid range wantsThumbnail wantsRedirect).exec t).1)
      ∧ (∀ uid edit, ((updateMemo viewer uid edit).exec s).1
        = ((updateMemo viewer uid edit).exec t).1)
      ∧ (∀ uid, ((deleteMemo viewer uid).exec s).1 = ((deleteMemo viewer uid).exec t).1) := by
  have hR : Matched viewer s t := ⟨h, hs, ht⟩
  refine ⟨fun state source wanted token => ?_, fun state source since anchor => ?_, fun uid => ?_,
    fun user => ?_, fun uid => ?_, fun uid range wantsThumbnail wantsRedirect => ?_,
    fun uid edit => ?_, fun uid => ?_⟩
  · exact (listMemos_mirrors hviewer state source wanted token).hides s t hR
  · exact (listChanges_mirrors hviewer state source since anchor).hides s t hR
  · exact (getMemo_mirrors uid).hides s t hR
  · exact (tagCounts_mirrors user).hides s t hR
  · exact (getAttachment_mirrors uid).hides s t hR
  · exact (openAttachment_mirrors uid range wantsThumbnail wantsRedirect).hides s t hR
  · exact updateMemo_hides uid edit s t hR
  · exact deleteMemo_hides uid s t hR

/-! ### Hidden rows are as good as missing -/

namespace Database

/-- The database with nothing in its tables but what a viewer may see. -/
def seenBy (d : Database) (viewer : Viewer) : Database :=
  { d with
    memos := d.memos.filter (·.isVisibleTo viewer)
    attachments := d.attachments.filter (d.isOpenTo viewer)
    events := d.events.filter fun c => viewer.any c.recipients.contains }

theorem HasKeys.seenBy {d : Database} (h : d.HasKeys) (viewer : Viewer) :
    (d.seenBy viewer).HasKeys where
  memoId := h.memoId.sublist (List.filter_sublist.map _)
  memoUid := h.memoUid.sublist (List.filter_sublist.map _)
  attachmentUid := h.attachmentUid.sublist (List.filter_sublist.map _)
  eventId := h.eventId.sublist (List.filter_sublist.map _)

end Database

/-- The state with nothing in its tables but what a viewer may see. -/
def State.seenBy (s : State) (viewer : Viewer) : State :=
  { s with database := s.database.seenBy viewer }

/-- **Hidden rows are as good as missing.** -/
theorem agrees_seenBy (s : State) (viewer : Viewer) : s.Agrees viewer (s.seenBy viewer) := by
  refine ⟨⟨rfl, rfl, fun m hm => ?_, fun a ha => ?_, ?_⟩, rfl, rfl, rfl, rfl, rfl⟩
  · exact ⟨fun h => List.mem_filter.mpr ⟨h, hm⟩, fun h => (List.mem_filter.mp h).1⟩
  · exact ⟨fun h => List.mem_filter.mpr ⟨h, ha⟩, fun h => (List.mem_filter.mp h).1⟩
  · rintro user rfl c hc
    refine ⟨fun h => List.mem_filter.mpr ⟨h, ?_⟩, fun h => (List.mem_filter.mp h).1⟩
    exact List.contains_iff_mem.mpr hc

/-- A server with a note that only its writer sees, and a picture that hangs on it. -/
def guardedServer : State :=
  { quietServer { plannedMemo with visibility := .restricted } with
    database :=
      { memos := [{ plannedMemo with visibility := .restricted }]
        attachments := [⟨1, "sketch", 7, "sketch.png", "image/png", 3, "", .disk, "sketch.png",
          some 1, none, .epoch, .epoch⟩] } }

/-- To another user the server is as good as empty: neither the note nor the picture is there, and a
request to delete the note is refused as it would be if there had never been one. -/
theorem answers_agree_guarded :
    (∀ user, (some 8 : Viewer) = some user → 0 < user ∧ user ≤ Text.maxInt64)
      ∧ guardedServer.database.HasKeys ∧ (guardedServer.seenBy (some 8)).database.HasKeys
      ∧ guardedServer.Agrees (some 8) (guardedServer.seenBy (some 8))
      ∧ (guardedServer.seenBy (some 8)).database.memos = []
      ∧ (guardedServer.seenBy (some 8)).database.attachments = []
      ∧ ((getAttachment (some 8) "sketch").exec guardedServer).1
        = ((getAttachment (some 8) "sketch").exec (guardedServer.seenBy (some 8))).1
      ∧ ((deleteMemo (some 8) "plan").exec guardedServer).1
        = ((deleteMemo (some 8) "plan").exec (guardedServer.seenBy (some 8))).1 := by
  have hviewer : ∀ user, (some 8 : Viewer) = some user → 0 < user ∧ user ≤ Text.maxInt64 := by
    rintro user ⟨⟩
    decide
  have hkeys : guardedServer.database.HasKeys := by
    constructor <;> decide
  have hagree := agrees_seenBy guardedServer (some 8)
  obtain ⟨-, -, -, -, hget, -, -, hdelete⟩ :=
    answers_agree hviewer hkeys (hkeys.seenBy (some 8)) hagree
  exact ⟨hviewer, hkeys, hkeys.seenBy _, hagree, by decide +kernel, by decide +kernel, hget _,
    hdelete _⟩

end SharedMemos.Server
