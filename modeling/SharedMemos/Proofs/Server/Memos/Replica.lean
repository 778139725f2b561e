import SharedMemos.Proofs.Filter.Clock
import SharedMemos.Proofs.Server.Memos.Changes

/-!
# A client that keeps up

A client keeps the memos of a user by asking again and again what has changed: each time from where
the last answer ended up to the present. From an answer it first drops the memos that are named as
gone, and then takes in the memos that are given (`Replica.receive`). Between two answers any
requests may be made.

That nothing is lost on the way rests on the times. Whatever is written after an answer is written
later than the answer's end, so that a row the client does not have as it is lies in the next window
(`IsCurrent`). And a name is never told later than the row with that name was written
(`State.IsDated`), so that no answer drops a memo whose row it does not give. Both are kept by every
exchange of a row, and the order in which an answer is received does the rest.

What the store overlooks never reaches the client, just as it is on no page of a listing.

## Main definitions

* `Replica` — what a client has
* `Syncing` — a client and a server
* `State.IsDated` — how the times of rows and of events lie

## Main results

* `Write.isDated` — what a request keeps of the times
* `Syncing.isCurrent_after` — what a run keeps
* `replica_receives` — what the client has after each answer
-/

namespace SharedMemos.Server

open Attempt Database SharedMemos.Filter

/-! ### The client -/

/-- What a client has: memos, and the end of the window that they are from. -/
structure Replica where
  memos : List Memo := []
  anchor : Timestamp

namespace Replica

/-- The memo of a name. -/
def memo? (r : Replica) (name : String) : Option Memo :=
  r.memos.find? (·.name == name)

/-- Takes a memo in, in place of one with its name. -/
def put (memos : List Memo) (m : Memo) : List Memo :=
  m :: memos.filter (·.name != m.name)

/-- Drops the memos that are named as gone, and then takes in those that are given. -/
def receive (r : Replica) (changes : MemoChanges) : Replica where
  memos := changes.memos.foldl put (r.memos.filter fun m => !changes.removed.contains m.name)
  anchor := changes.anchor

theorem find?_put_self (memos : List Memo) (m : Memo) :
    (put memos m).find? (·.name == m.name) = some m := by
  rw [put, List.find?_cons, beq_self_eq_true]

theorem find?_put_of_ne {memos : List Memo} {m : Memo} {name : String} (h : name ≠ m.name) :
    (put memos m).find? (·.name == name) = memos.find? (·.name == name) := by
  rw [put, List.find?_cons, beq_false_of_ne h.symm]
  exact find?_filter_of_ne h memos

/-- Where no memo of a name is given, the one that is there stays. -/
theorem find?_putAll_of_ne {given : List Memo} {name : String}
    (h : ∀ m ∈ given, m.name ≠ name) (memos : List Memo) :
    (given.foldl put memos).find? (·.name == name) = memos.find? (·.name == name) := by
  induction given generalizing memos with
  | nil => rfl
  | cons m given ih =>
    rw [List.foldl_cons, ih fun n hn => h n (List.mem_cons_of_mem m hn)]
    exact find?_put_of_ne (h m List.mem_cons_self).symm

/-- The only memo of its name that is given is there afterwards. -/
theorem find?_putAll_of_mem {given : List Memo} {m : Memo} (hm : m ∈ given)
    (hone : ∀ n ∈ given, n.name = m.name → n = m) (memos : List Memo) :
    (given.foldl put memos).find? (·.name == m.name) = some m := by
  induction given generalizing memos with
  | nil => exact absurd hm List.not_mem_nil
  | cons n given ih =>
    rw [List.foldl_cons]
    by_cases hlater : m ∈ given
    · exact ih hlater (fun n hn => hone n (List.mem_cons_of_mem _ hn)) _
    · obtain rfl : m = n := (List.mem_cons.mp hm).resolve_right hlater
      rw [find?_putAll_of_ne]
      · exact find?_put_self memos m
      · intro n hn hname
        exact hlater (hone n (List.mem_cons_of_mem _ hn) hname ▸ hn)

/-- A memo that is not named as gone stays while others are dropped. -/
theorem find?_kept (memos : List Memo) {removed : List String} {name : String}
    (h : name ∉ removed) :
    (memos.filter fun m => !removed.contains m.name).find? (·.name == name)
      = memos.find? (·.name == name) := by
  rw [List.find?_filter]
  congr 1
  funext m
  rw [Bool.eq_iff_iff]
  simp only [decide_eq_true_eq, beq_iff_eq, Bool.not_eq_true', and_iff_right_iff_imp]
  rintro rfl
  simpa using h

theorem mem_putAll {given memos : List Memo} {m : Memo} (h : m ∈ given.foldl put memos) :
    m ∈ given ∨ m ∈ memos := by
  induction given generalizing memos with
  | nil => exact .inr h
  | cons n given ih =>
    rcases ih h with hm | hm
    · exact .inl (List.mem_cons_of_mem n hm)
    · rcases List.mem_cons.mp hm with rfl | hm
      · exact .inl List.mem_cons_self
      · exact .inr (List.mem_of_mem_filter hm)

/-- What the client has is what it was given or had before. -/
theorem mem_receive {r : Replica} {changes : MemoChanges} {m : Memo}
    (h : m ∈ (r.receive changes).memos) : m ∈ changes.memos ∨ m ∈ r.memos :=
  (mem_putAll h).imp_right List.mem_of_mem_filter

/-- A memo that is given, alone with its name, is there afterwards. -/
theorem memo?_receive_of_mem {r : Replica} {changes : MemoChanges} {m : Memo}
    (hm : m ∈ changes.memos) (hone : ∀ n ∈ changes.memos, n.name = m.name → n = m) :
    (r.receive changes).memo? m.name = some m :=
  find?_putAll_of_mem hm hone _

/-- A memo whose name an answer does not mention stays as it was. -/
theorem memo?_receive_of_not_mem {r : Replica} {changes : MemoChanges} {name : String}
    (hgiven : ∀ m ∈ changes.memos, m.name ≠ name) (hremoved : name ∉ changes.removed) :
    (r.receive changes).memo? name = r.memo? name :=
  (find?_putAll_of_ne hgiven _).trans (find?_kept r.memos hremoved)

end Replica

/-! ### Times -/

variable {s t : State} {user : UserId} {time : Instant}

/-- Is a time before every look at the clock that is still to come? -/
def State.IsPast (s : State) (time : Instant) : Prop :=
  ∀ look, s.looks ≤ look → time < s.source.time look

/-- How the times of rows and of events lie. -/
structure State.IsDated (s : State) : Prop where
  rows : ∀ m ∈ s.database.memos, s.IsPast m.updated
  told : ∀ user name time, s.database.Tells user name time → s.IsPast time
  /-- No user is told of a name later than the row with that name was written. -/
  order : ∀ m ∈ s.database.memos, ∀ user time, s.database.Tells user m.name time →
    time ≤ m.updated

theorem State.IsPast.later (h : s.IsPast time) (hsource : t.source = s.source)
    (hlooks : s.looks ≤ t.looks) : t.IsPast time := by
  intro look hlook
  rw [hsource]
  exact h look (Nat.le_trans hlooks hlook)

theorem State.isPast_look (hticks : s.source.IsTicking) (hsource : t.source = s.source)
    (hlooks : s.looks < t.looks) : t.IsPast (s.source.time s.looks) := by
  intro look hlook
  rw [hsource]
  exact hticks _ _ (Nat.lt_of_lt_of_le hlooks hlook)

theorem State.isDated_of_empty (hmemos : s.database.memos = []) (hevents : s.database.events = []) :
    s.IsDated := by
  have hrows : ∀ m, m ∉ s.database.memos := by
    rw [hmemos]
    exact fun m => List.not_mem_nil
  refine ⟨fun m hm => absurd hm (hrows m), ?_, fun m hm => absurd hm (hrows m)⟩
  rintro user name time ⟨e, he, -⟩
  rw [hevents] at he
  exact absurd he List.not_mem_nil

/-- **A request leaves the times in order.** -/
theorem Write.isDated (w : Write) (hs : s.IsOrderly) (hticks : s.source.IsTicking)
    (h : s.IsDated) : ((w.act.exec s).2).IsDated := by
  have hstep := w.step hs
  have hlater : ∀ time, s.IsPast time → ((w.act.exec s).2).IsPast time :=
    fun time htime => htime.later hstep.source hstep.looks
  rcases hstep.database with hsame | ⟨hlooks, before, after, hexchange⟩
  · constructor
    · rw [hsame]
      exact fun m hm => hlater _ (h.rows m hm)
    · rw [hsame]
      exact fun user name time htold => hlater _ (h.told user name time htold)
    · rw [hsame]
      exact h.order
  · have hnow : ((w.act.exec s).2).IsPast (s.source.time s.looks) :=
      State.isPast_look hticks hstep.source (hlooks ▸ Nat.lt_succ_self _)
    constructor
    · intro m hm
      rcases (hexchange.rows m).mp hm with hm | ⟨hm, -⟩
      · rw [hexchange.stamped m hm]
        exact hnow
      · exact hlater _ (h.rows m hm)
    · intro user name time htold
      rcases (hexchange.tells user name time).mp htold with htold | ⟨rfl, -⟩
      · exact hlater _ (h.told user name time htold)
      · exact hnow
    · intro m hm user time htold
      rcases (hexchange.rows m).mp hm with hm | ⟨hm, hstays⟩
      · -- the row is written now, and nothing has been told later than now
        rw [hexchange.stamped m hm]
        rcases (hexchange.tells user m.name time).mp htold with htold | ⟨rfl, -⟩
        · exact (h.told user m.name time htold s.looks (Nat.le_refl _)).le
        · exact le_refl _
      · rcases (hexchange.tells user m.name time).mp htold with htold | ⟨-, row, hrow, hname, -⟩
        · exact h.order m hm user time htold
        · -- a row that stays does not have the name of the row that goes
          have hsame := hs.keyed.eq_of_name (hexchange.taken row hrow) hm hname
          exact absurd (congrArg Memo.id hsame.symm) (hstays row hrow)

/-! ### A client and a server -/

/-- A client and the server that it asks. -/
structure Syncing where
  replica : Replica
  server : State

/-- What happens next: any request to write, or the client asks what has changed. -/
inductive SyncTurn where
  | write (w : Write)
  | sync

namespace Syncing

/-- Asking goes on from where the last answer ended, up to the present. -/
def turn (user : UserId) (state : Option MemoState) (source : String) (c : Syncing) :
    SyncTurn → Syncing
  | .write w => { c with server := (w.act.exec c.server).2 }
  | .sync =>
    match (listChanges (some user) state source c.replica.anchor none).exec c.server with
    | (.ok changes, t) => ⟨c.replica.receive changes, t⟩
    | (.error _, t) => { c with server := t }

/-- The client and the server after a number of turns. -/
def after (user : UserId) (state : Option MemoState) (source : String) (c : Syncing)
    (turns : List SyncTurn) : Syncing :=
  turns.foldl (turn user state source) c

end Syncing

section

variable {state : Option MemoState} {source : String} {filter : Compiled} {c : Syncing}

/-- A client that has what it was to get. -/
structure Syncing.IsCurrent (user : UserId) (state : Option MemoState) (filter : Compiled)
    (c : Syncing) : Prop where
  orderly : c.server.IsOrderly
  ticks : c.server.source.IsTicking
  dated : c.server.IsDated
  /-- Whatever is still to be written is written after the end of the last answer. -/
  past : c.server.IsPast c.replica.anchor.toInstant
  /-- The wanted memos that were written by then are there, unless they are overlooked. -/
  rows : ∀ m ∈ c.server.database.memos, m.updated ≤ c.replica.anchor.toInstant →
    ∀ time, isWanted (some user) state filter time m → isOverlooked filter.prefilter m = false →
      c.replica.memo? m.name = some m
  /-- Nothing is there that is overlooked. -/
  kept : ∀ m ∈ c.replica.memos, isOverlooked filter.prefilter m = false

theorem isWanted_eq (hstill : filter.callsNow = false) {viewer : Viewer} (m : Memo)
    (time time' : Int) :
    isWanted viewer state filter time m = isWanted viewer state filter time' m := by
  rw [isWanted, isWanted, filter.accepts_eq hstill m time time']

/-- **An answer brings the client up to date.** A row that lies in the window is given, and no other
row has its name; a row that does not is there already, and it is not named as gone. -/
theorem memo?_receive (hc : c.IsCurrent user state filter) (hpos : 0 < user)
    (hmax : user ≤ Text.maxInt64) (hstill : filter.callsNow = false) (time : Int)
    {anchor : Timestamp} (hpresent : ∀ m ∈ c.server.database.memos, m.updated ≤ anchor.toInstant)
    {m : Memo} (hm : m ∈ c.server.database.memos) {time' : Int}
    (hwanted : isWanted (some user) state filter time' m)
    (hseen : isOverlooked filter.prefilter m = false) :
    (c.replica.receive (changesBetween user state filter time c.replica.anchor anchor
      c.server.database)).memo? m.name = some m := by
  have hgiven : ∀ n ∈ (changesBetween user state filter time c.replica.anchor anchor
      c.server.database).memos, n.name = m.name → n = m :=
    fun n hn => hc.orderly.keyed.eq_of_name ((mem_changed hpos hmax).mp hn).1 hm
  by_cases hwindow : c.replica.anchor.toInstant < m.updated
  · refine Replica.memo?_receive_of_mem ?_ hgiven
    rw [isWanted_eq hstill m time' time] at hwanted
    exact (mem_changed hpos hmax).mpr ⟨hm, hwanted, hseen, hwindow, hpresent m hm⟩
  · rw [Replica.memo?_receive_of_not_mem]
    · exact hc.rows m hm (not_lt.mp hwindow) time' hwanted hseen
    · intro n hn hname
      have hn' := ((mem_changed hpos hmax).mp hn).2.2.2.1
      rw [hgiven n hn hname] at hn'
      exact hwindow hn'
    · intro hremoved
      obtain ⟨t, hafter, -, htold⟩ := mem_removed.mp hremoved
      exact hwindow (hafter.trans_le (hc.dated.order m hm user t htold))

/-- What an answer gives is not overlooked, and so nothing that the client has is. -/
theorem kept_receive (hc : c.IsCurrent user state filter) (hpos : 0 < user)
    (hmax : user ≤ Text.maxInt64) {time : Int} {anchor : Timestamp} {m : Memo}
    (hm : m ∈ (c.replica.receive (changesBetween user state filter time c.replica.anchor anchor
      c.server.database)).memos) : isOverlooked filter.prefilter m = false := by
  rcases Replica.mem_receive hm with hgiven | hkept
  · exact ((mem_changed hpos hmax).mp hgiven).2.2.1
  · exact hc.kept m hkept

/-- The answer to a client that asks up to the present. -/
theorem sync_exec (user : UserId) (state : Option MemoState) (since : Timestamp)
    (hfilter : compileGuarded source = .ok filter) (s : State) :
    (listChanges (some user) state source since none).exec s
      = (.ok (changesBetween user state filter (s.source.time (s.looks + 1)).seconds since
          (.ofInstant (s.source.time s.looks)) s.database), { s with looks := s.looks + 2 }) :=
  listChanges_exec user state since hfilter (windowEnd_exec_none s)

/-- **Every turn keeps the client current.** -/
theorem Syncing.isCurrent_turn (hpos : 0 < user) (hmax : user ≤ Text.maxInt64)
    (hfilter : compileGuarded source = .ok filter) (hstill : filter.callsNow = false)
    (hc : c.IsCurrent user state filter) (next : SyncTurn) :
    (c.turn user state source next).IsCurrent user state filter := by
  cases next with
  | write w =>
    have hstep := w.step hc.orderly
    refine ⟨hstep.isOrderly hc.orderly, hstep.source ▸ hc.ticks,
      w.isDated hc.orderly hc.ticks hc.dated, hc.past.later hstep.source hstep.looks, ?_, hc.kept⟩
    intro m hm hold time hwanted hseen
    refine hc.rows m ?_ hold time hwanted hseen
    rcases hstep.database with hsame | ⟨-, before, after, hexchange⟩
    · exact hsame ▸ hm
    · rcases (hexchange.rows m).mp hm with hm | ⟨hm, -⟩
      · -- a row that is written now is not from before the last answer
        rw [hexchange.stamped m hm] at hold
        exact absurd hold (not_le.mpr (hc.past _ (Nat.le_refl _)))
      · exact hm
  | sync =>
    rw [Syncing.turn, sync_exec user state c.replica.anchor hfilter]
    have hnow := Timestamp.toInstant_ofInstant (c.server.source.time c.server.looks)
    have hpresent : ∀ m ∈ c.server.database.memos,
        m.updated ≤ (Timestamp.ofInstant (c.server.source.time c.server.looks)).toInstant := by
      rw [hnow]
      exact fun m hm => (hc.dated.rows m hm _ (Nat.le_refl _)).le
    have hlooks : c.server.looks < c.server.looks + 2 := Nat.lt_add_of_pos_right (by decide)
    constructor
    · exact ⟨hc.orderly.keyed, hc.orderly.notifies⟩
    · exact hc.ticks
    · exact ⟨fun m hm => (hc.dated.rows m hm).later rfl hlooks.le,
        fun user name t htold => (hc.dated.told user name t htold).later rfl hlooks.le,
        hc.dated.order⟩
    · show State.IsPast _ (Timestamp.ofInstant _).toInstant
      rw [hnow]
      exact State.isPast_look hc.ticks rfl hlooks
    · exact fun m hm _ time hwanted hseen =>
        memo?_receive hc hpos hmax hstill _ hpresent hm hwanted hseen
    · exact fun m hm => kept_receive hc hpos hmax hm

/-- **A run keeps the client current.** -/
theorem Syncing.isCurrent_after (hpos : 0 < user) (hmax : user ≤ Text.maxInt64)
    (hfilter : compileGuarded source = .ok filter) (hstill : filter.callsNow = false)
    (turns : List SyncTurn) : ∀ {c : Syncing}, c.IsCurrent user state filter →
      (c.after user state source turns).IsCurrent user state filter := by
  induction turns with
  | nil => exact fun hc => hc
  | cons next turns ih =>
    exact fun hc => ih (Syncing.isCurrent_turn hpos hmax hfilter hstill hc next)

/-- **What the client has after each answer.** The client starts with nothing, from before anything
was written, and asks from where its last answer ended, with the same state and the same filter,
while any requests are made in between. However long that has gone on, the next answer leaves it
with each memo that the user sees, that is in the state and that the filter accepts, as its row is
now; but for those, and exactly those, that the store overlooks. -/
theorem replica_receives {s₀ : State} (hmemos : s₀.database.memos = [])
    (hevents : s₀.database.events = []) (hnotifies : s₀.database.Notifies)
    (hticks : s₀.source.IsTicking) {since : Timestamp} (hsince : s₀.IsPast since.toInstant)
    (hpos : 0 < user) (hmax : user ≤ Text.maxInt64) (state : Option MemoState)
    (hfilter : compileGuarded source = .ok filter) (hstill : filter.callsNow = false)
    (turns : List SyncTurn) :
    let c := Syncing.after user state source ⟨{ anchor := since }, s₀⟩ turns
    ∃ changes t, (listChanges (some user) state source c.replica.anchor none).exec c.server
        = (.ok changes, t)
      ∧ ∀ m ∈ t.database.memos, ∀ time, isWanted (some user) state filter time m →
        ((c.replica.receive changes).memo? m.name = some m
          ↔ isOverlooked filter.prefilter m = false) := by
  intro c
  have hstart : Syncing.IsCurrent user state filter ⟨{ anchor := since }, s₀⟩ := by
    refine ⟨⟨isKeyed_of_empty hmemos, hnotifies⟩, hticks, State.isDated_of_empty hmemos hevents,
      hsince, ?_, ?_⟩
    · intro m hm
      rw [show s₀.database.memos = [] from hmemos] at hm
      exact absurd hm List.not_mem_nil
    · exact fun m hm => absurd hm List.not_mem_nil
  have hc : c.IsCurrent user state filter :=
    Syncing.isCurrent_after hpos hmax hfilter hstill turns hstart
  refine ⟨_, _, sync_exec user state c.replica.anchor hfilter c.server, fun m hm time hwanted => ?_⟩
  constructor
  · exact fun hfound => kept_receive hc hpos hmax (List.mem_of_find?_eq_some hfound)
  · refine memo?_receive hc hpos hmax hstill _ (fun n hn => ?_) hm hwanted
    rw [Timestamp.toInstant_ofInstant]
    exact (hc.dated.rows n hn _ (Nat.le_refl _)).le

end

/-- A memo is made, given to a client and then changed. -/
def planPinned : List SyncTurn :=
  [.write (.create (some 7) { content := "plan", tags := ["work/plan", "collab/8"] }), .sync,
    .write (.update (some 8) (Text.showPadded Limit.uidLength 0) { pinned := some true })]

/-- The client of a user who was granted access has the memo as it was changed. -/
theorem replica_receives_planPinned :
    let source := "tags.exists(t, t.startsWith(\"wo\"))"
    let c := Syncing.after 8 none source ⟨{ anchor := ⟨0, 0⟩ }, tickingServer⟩ planPinned
    ∃ changes t, (listChanges (some 8) none source c.replica.anchor none).exec c.server
        = (.ok changes, t)
      ∧ ∃ m ∈ t.database.memos, m.pinned = true
        ∧ (c.replica.receive changes).memo? m.name = some m := by
  intro source c
  have hmeets : ((compileGuarded source).toOption.any fun f =>
      !f.callsNow && c.server.database.memos.any fun m =>
        m.pinned && isWanted (some 8) none f 0 m && !isOverlooked f.prefilter m) = true := by
    decide +kernel
  obtain ⟨filter, hfilter, hmeets⟩ := compiles_of_any hmeets
  simp only [Bool.and_eq_true, Bool.not_eq_true', List.any_eq_true] at hmeets
  obtain ⟨hstill, m, hm, ⟨hpinned, hwanted⟩, hseen⟩ := hmeets
  have hsince : tickingServer.IsPast (Timestamp.toInstant ⟨0, 0⟩) := by
    intro look _
    show (0 : Int) < ((look : Int) + 1) * 1000000
    omega
  have huser : (0 : UserId) < 8 ∧ (8 : UserId) ≤ Text.maxInt64 := by decide
  have hnotifies : tickingServer.database.Notifies := rfl
  obtain ⟨changes, t, hexec, hrows⟩ := replica_receives rfl rfl hnotifies tickingServer_isTicking
    hsince huser.1 huser.2 none hfilter hstill planPinned
  have ht : t.database = c.server.database := by
    have hsame := (sync_exec 8 none c.replica.anchor hfilter c.server).symm.trans hexec
    rw [← (Prod.mk.inj hsame).2]
  rw [← ht] at hm
  exact ⟨changes, t, hexec, m, hm, hpinned, (hrows m hm 0 hwanted).mpr hseen⟩

/-- A memo whose tag holds a null character is made. -/
def nullTaggedPlan : List SyncTurn :=
  [.write (.create (some 7) { content := "plan", tags := ["a\x00c/d"] })]

/-- The memo is wanted, and the client does not get it: the store measures the text that the tag is
to start with up to the null character. -/
theorem replica_overlooks_nullTagged :
    let source := "tags.exists(t, t.startsWith(\"a\x00\"))"
    let c := Syncing.after 7 none source ⟨{ anchor := ⟨0, 0⟩ }, tickingServer⟩ nullTaggedPlan
    ∃ filter changes t, compileGuarded source = .ok filter ∧ filter.callsNow = false
      ∧ (listChanges (some 7) none source c.replica.anchor none).exec c.server = (.ok changes, t)
      ∧ ∃ m ∈ t.database.memos, isWanted (some 7) none filter 0 m
        ∧ (c.replica.receive changes).memo? m.name = none := by
  intro source c
  have hmeets : ((compileGuarded source).toOption.any fun f =>
      !f.callsNow && c.server.database.memos.any fun m =>
        isWanted (some 7) none f 0 m && ((c.replica.receive (changesBetween 7 none f
          (c.server.source.time (c.server.looks + 1)).seconds c.replica.anchor
          (.ofInstant (c.server.source.time c.server.looks)) c.server.database)).memo?
            m.name).isNone) = true := by
    decide +kernel
  obtain ⟨filter, hfilter, hmeets⟩ := compiles_of_any hmeets
  simp only [Bool.and_eq_true, Bool.not_eq_true', List.any_eq_true, Option.isNone_iff_eq_none]
    at hmeets
  obtain ⟨hstill, m, hm, hwanted, hnone⟩ := hmeets
  exact ⟨filter, _, _, hfilter, hstill, sync_exec 7 none _ hfilter _, m, hm, hwanted, hnone⟩

end SharedMemos.Server
