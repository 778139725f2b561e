import Mathlib.Data.List.Infix
import SharedMemos.Proofs.Server.Memos.Progress
import SharedMemos.Proofs.Server.Memos.Removals
import SharedMemos.Proofs.Server.Memos.Replica
import SharedMemos.Proofs.Server.Memos.Stamps

/-!
# What a client gets while others write

A client asks again and again what has changed, each time from where the last answer ended, and
others write memos all the while. Between two steps of a question there may be steps of requests to
write, and the other way round.

A request to write takes its time from the clock before its transaction. So rows may appear that
bear a time in a window that has been read already. Such a row is behind the client from the start:
no window of later questions reaches back to it, and it never arrives. In the same way the name of a
memo that is gone may come too late. All other rows and names are ahead of the client (`IsAhead`),
and stay so until a question has found them.

So it is decided at the moment when a row is written, or an event, whether the client gets it
(`arrives_iff`).

## Main definitions

* `Traffic` — the server, requests to write that are under way, and a client
* `Traffic.IsAt` — how far the client's question has come
* `Traffic.HasFound`, `Traffic.IsAhead` — where the client stands to an item

## Main results

* `Traffic.exists_next`, `Next.isRunning` — what every step does and keeps
* `Traffic.isAwaited_after`, `Traffic.isBehind_after` — what stays ahead of a client, or behind
* `arrives_iff` — which rows and names reach the client
-/

namespace SharedMemos.Server

open Attempt Database SharedMemos.Filter

/-- An answer, with the time from which was asked. -/
structure Answer where
  since : Timestamp
  changes : MemoChanges

/-- Does an answer give an item? -/
def Answer.Gives (a : Answer) (item : Item) : Prop :=
  item.IsIn a.since (.answered a.changes)

/-- The server, what is left of requests to write, and a client: what is left of its question, from
where its next question goes on, and the answers that it has. -/
structure Traffic where
  server : State
  writing : List (Job State (Except Error Unit)) := []
  asking : Option (Job State (Except Error MemoChanges)) := none
  anchor : Timestamp
  answers : List Answer := []

/-- What happens next. -/
inductive Tick where
  /-- A request to write comes in. -/
  | request (w : Write)
  /-- One of the requests to write takes a step. -/
  | work (index : Nat)
  /-- The client asks what has changed, if it does not wait for an answer. -/
  | ask (wanted : Option Timestamp)
  /-- The question takes a step, or the client takes in the answer. -/
  | proceed

/-- A question is not about what was up to an earlier time. -/
def Tick.Reaches (time : Instant) : Tick → Prop
  | ask (some wanted) => time ≤ wanted.toInstant
  | _ => True

instance (time : Instant) : (tick : Tick) → Decidable (tick.Reaches time)
  | .ask (some wanted) => inferInstanceAs (Decidable (time ≤ wanted.toInstant))
  | .ask none | .request _ | .work _ | .proceed => isTrue trivial

namespace Traffic

section

variable (user : UserId) (state : Option MemoState) (source : String)

/-- What one thing leaves. -/
def tick (c : Traffic) : Tick → Traffic
  | .request w => { c with writing := c.writing ++ [ExceptT.run w.act] }
  | .work index =>
    match c.writing[index]? with
    | some (.step change next) =>
      { c with server := change c.server, writing := c.writing.set index (next c.server) }
    | _ => c
  | .ask wanted =>
    match c.asking with
    | none => { c with
        asking := some (ExceptT.run (listChanges (some user) state source c.anchor wanted)) }
    | some _ => c
  | .proceed =>
    match c.asking with
    | some (.step change next) =>
      { c with server := change c.server, asking := some (next c.server) }
    | some (.done (.ok changes)) =>
      { c with
        asking := none
        anchor := changes.anchor
        answers := c.answers ++ [⟨c.anchor, changes⟩] }
    | some (.done (.error _)) => { c with asking := none }
    | none => c

/-- What a number of things leave. -/
def after (c : Traffic) (ticks : List Tick) : Traffic :=
  ticks.foldl (tick user state source) c

end

section

variable (user : UserId) (state : Option MemoState) (filter : Compiled)

/-- How far the client's question has come, if it waits for an answer. -/
def IsAt (p : Option Inquiry) (c : Traffic) : Prop :=
  c.asking = p.map fun p => p.job user state filter c.anchor

/-- Has the client found an item, in an answer or in what it waits for? -/
def HasFound (item : Item) (c : Traffic) : Prop :=
  (∃ a ∈ c.answers, a.Gives item)
    ∨ ∃ p : Inquiry, c.IsAt user state filter (some p) ∧ item.IsIn c.anchor p

end

end Traffic

/-- Is an item ahead of a client, whose questions have come up to a time? A question that has not
read the item's part goes on from there, and the next question from the end of its window. -/
def Item.IsAhead (item : Item) (anchor : Timestamp) : Option Inquiry → Prop
  | none => anchor.toInstant < item.time
  | some p => ¬ item.IsRead p ∧ anchor.toInstant < item.time
      ∨ ∃ upTo ∈ p.anchor?, upTo.toInstant < item.time

/-- Have the questions of a client come up to a time? If it waits for an answer, the window ends no
earlier, as far as the end is known; otherwise the last one has ended no earlier. -/
structure ComesUpTo (time : Instant) (anchor : Timestamp) (p : Option Inquiry) : Prop where
  rest : p = none → time ≤ anchor.toInstant
  window : ∀ q ∈ p, ∀ upTo ∈ q.anchor?, time ≤ upTo.toInstant

/-- A question that has just been asked, and not about what was up to an earlier time. -/
theorem ComesUpTo.start {time : Instant} {anchor : Timestamp} {wanted : Option Timestamp}
    (h : (Tick.ask wanted).Reaches time) : ComesUpTo time anchor (some (.start wanted)) := by
  refine ⟨nofun, ?_⟩
  rintro _ ⟨⟩ upTo hupTo
  rcases Inquiry.start_cases wanted with hstart | ⟨_, ⟨⟩, hstart⟩
  · rw [hstart] at hupTo
    cases hupTo
  · rw [hstart] at hupTo
    cases hupTo
    exact h

/-- Is an item behind a client, without having been found by the question that it waits for? -/
structure Item.IsBehind (item : Item) (anchor : Timestamp) (p : Option Inquiry) : Prop
    extends ComesUpTo item.time anchor p where
  unfound : ∀ q ∈ p, ¬ item.IsIn anchor q
  unread : ∀ q ∈ p, ¬ item.IsRead q → item.time ≤ anchor.toInstant

namespace Traffic

section

variable (user : UserId) (state : Option MemoState) (filter : Compiled)

/-- Is an item ahead of the client? -/
def IsAhead (item : Item) (c : Traffic) : Prop :=
  ∃ p, c.IsAt user state filter p ∧ item.IsAhead c.anchor p

end

/-- Does an answer give an item, or has the question found it, or is it still ahead? -/
def Awaits (item : Item) (c : Traffic) (p : Option Inquiry) : Prop :=
  (∃ a ∈ c.answers, a.Gives item) ∨ (∃ q ∈ p, item.IsIn c.anchor q) ∨ item.IsAhead c.anchor p

/-- The clock is steady, and the requests that are under way write down only what it has shown. -/
structure IsRunning (c : Traffic) : Prop where
  steady : c.server.source.IsSteady
  writing : ∀ j ∈ c.writing, IsStamping c.server j

variable {user : UserId} {state : Option MemoState} {source : String} {filter : Compiled}
  {c c' : Traffic} {item : Item} {p p' : Option Inquiry} {tick : Tick}

theorem after_cons (c : Traffic) (tick : Tick) (ticks : List Tick) :
    c.after user state source (tick :: ticks)
      = (c.tick user state source tick).after user state source ticks := rfl

theorem after_append (c : Traffic) (ticks later : List Tick) :
    c.after user state source (ticks ++ later)
      = (c.after user state source ticks).after user state source later :=
  List.foldl_append

end Traffic

/-! ### One thing after the other -/

section

variable (user : UserId) (state : Option MemoState) (filter : Compiled)

/-- What one thing leaves of what is going on, and of how far the client's question has come. -/
inductive Next (c : Traffic) : Option Inquiry → Tick → Traffic → Option Inquiry → Prop where
  | idle (p : Option Inquiry) (tick : Tick) (htick : ∀ wanted, p = none → tick ≠ .ask wanted) :
      Next c p tick c p
  | request (p : Option Inquiry) (w : Write) :
      Next c p (.request w) { c with writing := c.writing ++ [ExceptT.run w.act] } p
  | work (p : Option Inquiry) {index : Nat} {change : State → State}
      {next : State → Job State (Except Error Unit)}
      (hwriting : c.writing[index]? = some (.step change next)) :
      Next c p (.work index)
        { c with server := change c.server, writing := c.writing.set index (next c.server) } p
  | ask (wanted : Option Timestamp) :
      Next c none (.ask wanted)
        { c with asking := some ((Inquiry.start wanted).job user state filter c.anchor) }
        (some (.start wanted))
  | proceed (p : Inquiry) :
      Next c (some p) .proceed
        { c with
          server := p.change c.server
          asking := some ((p.next user state filter c.anchor c.server).job user state filter
            c.anchor) }
        (some (p.next user state filter c.anchor c.server))
  | receive (changes : MemoChanges) :
      Next c (some (.answered changes)) .proceed
        { c with
          asking := none
          anchor := changes.anchor
          answers := c.answers ++ [⟨c.anchor, changes⟩] }
        none

end

namespace Traffic

variable {user : UserId} {state : Option MemoState} {source : String} {filter : Compiled}
  {c c' : Traffic} {item : Item} {p p' : Option Inquiry} {tick : Tick}

/-- **What a step leaves.** -/
theorem exists_next (hfilter : compileGuarded source = .ok filter)
    (hp : c.IsAt user state filter p) (tick : Tick) :
    ∃ p', (c.tick user state source tick).IsAt user state filter p'
      ∧ Next user state filter c p tick (c.tick user state source tick) p' := by
  cases tick with
  | request w => exact ⟨p, hp, .request p w⟩
  | work index =>
    rw [Traffic.tick]
    split
    · rename_i hwriting
      exact ⟨p, hp, .work p hwriting⟩
    · exact ⟨p, hp, .idle p _ fun _ _ => nofun⟩
  | ask wanted =>
    rw [Traffic.tick]
    cases p with
    | none =>
      rw [show c.asking = none from hp]
      simp only
      rw [listChanges_job hfilter]
      exact ⟨some (.start wanted), rfl, .ask wanted⟩
    | some p =>
      rw [show c.asking = some _ from hp]
      exact ⟨some p, hp, .idle _ _ nofun⟩
  | proceed =>
    rw [Traffic.tick]
    cases p with
    | none =>
      rw [show c.asking = none from hp]
      exact ⟨none, hp, .idle _ _ nofun⟩
    | some p =>
      rw [show c.asking = some (p.job user state filter c.anchor) from hp]
      rcases p.job_eq user state filter c.anchor with ⟨changes, rfl⟩ | hstep
      · exact ⟨none, rfl, .receive changes⟩
      · rw [hstep]
        exact ⟨some (p.next user state filter c.anchor c.server), rfl, .proceed p⟩

end Traffic

/-! ### What a step keeps -/

namespace Next

variable {user : UserId} {state : Option MemoState} {filter : Compiled} {c c' : Traffic}
  {item : Item} {time : Instant} {p p' : Option Inquiry} {tick : Tick}

/-- A step of a request is one that stamps. -/
theorem steps (h : Next user state filter c p tick c' p') (hc : c.IsRunning) :
    Steps c.server c'.server := by
  cases h with
  | work _ hwriting =>
    obtain ⟨hstep, -⟩ := (hc.writing _ (List.mem_of_getElem? hwriting)).of_step
    exact hstep
  | proceed p => exact p.steps_change c.server
  | _ => exact ⟨.refl _, .inl rfl⟩

/-- **Every step keeps the clock steady**, and what is written bears times that it has shown. -/
theorem isRunning (h : Next user state filter c p tick c' p') (hc : c.IsRunning) :
    c'.IsRunning := by
  have hbefore := (h.steps hc).before
  refine ⟨hbefore.isSteady hc.steady, ?_⟩
  have hwaits : ∀ j ∈ c.writing, IsStamping c'.server j :=
    fun j hj => (hc.writing j hj).mono hbefore
  cases h with
  | request _ w =>
    intro j hj
    rcases List.mem_append.mp hj with hj | hj
    · exact hwaits j hj
    · rw [List.mem_singleton.mp hj]
      exact w.isStamping hc.steady
  | work _ hwriting =>
    intro j hj
    rcases List.mem_or_eq_of_mem_set hj with hj | rfl
    · exact hwaits j hj
    · exact (hc.writing _ (List.mem_of_getElem? hwriting)).of_step.2
  | _ => exact hwaits

/-- **Once a time has been reached, the client's questions come up to it.** -/
theorem comesUpTo (h : Next user state filter c p tick c' p') (hreached : c.server.HasReached time)
    (hreaches : tick.Reaches time) (hp : ComesUpTo time c.anchor p) :
    ComesUpTo time c'.anchor p' := by
  cases h with
  | ask wanted => exact .start hreaches
  | proceed q =>
    refine ⟨nofun, ?_⟩
    rintro _ ⟨⟩ upTo hupTo
    rcases q.anchor?_next user state filter c.anchor c.server with hsame | ⟨-, hnow⟩
    · exact hp.window q rfl upTo (hsame ▸ hupTo)
    · obtain rfl : _ = upTo := Option.some_inj.mp (hnow.symm.trans hupTo)
      rw [Timestamp.toInstant_ofInstant]
      exact hreached _ (Nat.le_refl _)
  | receive changes => exact ⟨fun _ => hp.window _ rfl _ rfl, nofun⟩
  | _ => exact hp

/-- A client that waits for no answer asks. -/
theorem eq_start {wanted : Option Timestamp}
    (h : Next user state filter c none (.ask wanted) c' p') : p' = some (.start wanted) := by
  cases h with
  | idle _ _ hother => exact absurd rfl (hother wanted rfl)
  | ask => rfl

/-- **What is behind a client stays behind**: no answer will have it. -/
theorem isBehind (h : Next user state filter c p tick c' p') (hpos : 0 < user)
    (hmax : user ≤ Text.maxInt64) (hreached : c.server.HasReached item.time)
    (hreaches : tick.Reaches item.time) (hp : item.IsBehind c.anchor p)
    (hnone : ∀ a ∈ c.answers, ¬ a.Gives item) :
    item.IsBehind c'.anchor p' ∧ ∀ a ∈ c'.answers, ¬ a.Gives item := by
  have hupTo := h.comesUpTo hreached hreaches hp.toComesUpTo
  cases h with
  | ask wanted =>
    refine ⟨⟨hupTo, ?_, ?_⟩, hnone⟩
    · rintro _ ⟨⟩ hin
      exact Item.not_isRead_start item wanted hin.isRead
    · exact fun _ _ _ => hp.rest rfl
  | proceed q =>
    refine ⟨⟨hupTo, ?_, ?_⟩, hnone⟩
    · rintro _ ⟨⟩ hin
      rcases Item.isIn_next hpos hmax hin with hold | ⟨hunread, hafter⟩
      · exact hp.unfound q rfl hold
      · exact absurd hafter (not_lt.mpr (hp.unread q rfl hunread))
    · rintro _ ⟨⟩ hunread
      exact hp.unread q rfl fun hread => hunread hread.next
  | receive changes =>
    refine ⟨⟨hupTo, nofun, nofun⟩, fun a ha => ?_⟩
    rcases List.mem_append.mp ha with ha | ha
    · exact hnone a ha
    · rw [List.mem_singleton.mp ha]
      exact hp.unfound _ rfl
  | _ => exact ⟨hp, hnone⟩

/-- **What is ahead of a client is found, or stays ahead.** -/
theorem awaits (h : Next user state filter c p tick c' p') (hpos : 0 < user)
    (hmax : user ≤ Text.maxInt64) (hmeant : item.IsMeant user state filter)
    (hthere : item.IsThere user c.server.database) (hp : c.Awaits item p) :
    c'.Awaits item p' := by
  cases h with
  | ask wanted =>
    rcases hp with hgiven | ⟨_, ⟨⟩, -⟩ | hahead
    · exact .inl hgiven
    · exact .inr (.inr (.inl ⟨Item.not_isRead_start item wanted, hahead⟩))
  | proceed q =>
    rcases hp with hgiven | ⟨_, ⟨⟩, hin⟩ | ⟨hunread, hafter⟩ | ⟨upTo, hupTo, hbefore⟩
    · exact .inl hgiven
    · exact .inr (.inl ⟨_, rfl, hin.next⟩)
    · by_cases hread : item.IsRead (q.next user state filter c.anchor c.server)
      · obtain ⟨upTo, -, hupTo, hfinds⟩ :=
          Item.isIn_of_isThere hpos hmax hmeant hthere hafter hunread hread
        rcases le_or_gt item.time upTo.toInstant with hwithin | hlate
        · exact .inr (.inl ⟨_, rfl, hfinds hwithin⟩)
        · exact .inr (.inr (.inr ⟨upTo, hupTo, hlate⟩))
      · exact .inr (.inr (.inl ⟨hread, hafter⟩))
    · rcases q.anchor?_next user state filter c.anchor c.server with hsame | ⟨rfl, -⟩
      · exact .inr (.inr (.inr ⟨upTo, hsame ▸ hupTo, hbefore⟩))
      · cases hupTo
  | receive changes =>
    rcases hp with ⟨a, ha, hgives⟩ | ⟨_, ⟨⟩, hin⟩ | ⟨hunread, -⟩ | ⟨upTo, ⟨⟩, hbefore⟩
    · exact .inl ⟨a, List.mem_append_left _ ha, hgives⟩
    · exact .inl ⟨_, List.mem_append_right _ List.mem_cons_self, hin⟩
    · cases item <;> exact absurd trivial hunread
    · exact .inr (.inr hbefore)
  | _ => exact hp

end Next

/-! ### Runs -/

namespace Traffic

variable {user : UserId} {state : Option MemoState} {source : String} {filter : Compiled}
  {c : Traffic} {item : Item} {time : Instant} {p : Option Inquiry}

/-- A row stays there for a while. The name of a memo that is gone stays of itself. -/
def Keeps (user : UserId) (state : Option MemoState) (source : String) (item : Item) (c : Traffic)
    (ticks : List Tick) : Prop :=
  ∀ m, item = .row m → ∀ earlier later, ticks = earlier ++ later →
    m ∈ (c.after user state source earlier).server.database.memos

theorem Keeps.tail {tick : Tick} {ticks : List Tick}
    (h : c.Keeps user state source item (tick :: ticks)) :
    (c.tick user state source tick).Keeps user state source item ticks :=
  fun m hm earlier later hsplit => h m hm (tick :: earlier) later (congrArg _ hsplit)

theorem Keeps.append {ticks later : List Tick}
    (h : c.Keeps user state source item (ticks ++ later)) :
    c.Keeps user state source item ticks
      ∧ (c.after user state source ticks).Keeps user state source item later := by
  constructor
  · intro m hm earlier rest hsplit
    exact h m hm earlier (rest ++ later) (by rw [hsplit, List.append_assoc])
  · intro m hm earlier rest hsplit
    rw [← after_append]
    exact h m hm (ticks ++ earlier) rest (by rw [hsplit, List.append_assoc])

theorem asking_eq_none (hp : c.IsAt user state filter p) (hnone : c.asking = none) : p = none :=
  Option.map_eq_none_iff.mp (hp.symm.trans hnone)

section

variable (hfilter : compileGuarded source = .ok filter)

include hfilter

/-- **What every run keeps.** -/
theorem exists_after (ticks : List Tick) : ∀ {c : Traffic} {p : Option Inquiry},
    c.IsRunning → c.IsAt user state filter p →
    ∃ p', (c.after user state source ticks).IsAt user state filter p'
      ∧ (c.after user state source ticks).IsRunning
      ∧ c.server.Before (c.after user state source ticks).server := by
  induction ticks with
  | nil => exact fun hc hp => ⟨_, hp, hc, .refl _⟩
  | cons tick ticks ih =>
    intro c p hc hp
    obtain ⟨p', hp', hnext⟩ := exists_next hfilter hp tick
    obtain ⟨p'', hp'', hrunning, hbefore⟩ := ih (hnext.isRunning hc) hp'
    exact ⟨p'', hp'', hrunning, (hnext.steps hc).before.trans hbefore⟩

/-- Questions that have come up to a time go on from there. -/
theorem comesUpTo_after (ticks : List Tick) (hreaches : ∀ tick ∈ ticks, tick.Reaches time) :
    ∀ {c : Traffic} {p : Option Inquiry}, c.IsRunning → c.IsAt user state filter p →
      c.server.HasReached time → ComesUpTo time c.anchor p →
      ∃ p', (c.after user state source ticks).IsAt user state filter p'
        ∧ ComesUpTo time (c.after user state source ticks).anchor p' := by
  induction ticks with
  | nil => exact fun _ hp _ hupTo => ⟨_, hp, hupTo⟩
  | cons tick ticks ih =>
    intro c p hc hp hreached hupTo
    obtain ⟨p', hp', hnext⟩ := exists_next hfilter hp tick
    exact ih (fun t ht => hreaches t (List.mem_cons_of_mem _ ht)) (hnext.isRunning hc) hp'
      (hreached.mono (hnext.steps hc).before)
      (hnext.comesUpTo hreached (hreaches tick List.mem_cons_self) hupTo)

variable (hpos : 0 < user) (hmax : user ≤ Text.maxInt64)

include hpos hmax

/-- What is behind a client is given by no answer. -/
theorem isBehind_after (ticks : List Tick) (hreaches : ∀ tick ∈ ticks, tick.Reaches item.time) :
    ∀ {c : Traffic} {p : Option Inquiry}, c.IsRunning → c.IsAt user state filter p →
      c.server.HasReached item.time → item.IsBehind c.anchor p →
      (∀ a ∈ c.answers, ¬ a.Gives item) →
      ∀ a ∈ (c.after user state source ticks).answers, ¬ a.Gives item := by
  induction ticks with
  | nil => exact fun _ _ _ _ hnone => hnone
  | cons tick ticks ih =>
    intro c p hc hp hreached hbehind hnone
    obtain ⟨p', hp', hnext⟩ := exists_next hfilter hp tick
    obtain ⟨hbehind', hnone'⟩ := hnext.isBehind hpos hmax hreached
      (hreaches tick List.mem_cons_self) hbehind hnone
    exact ih (fun t ht => hreaches t (List.mem_cons_of_mem _ ht)) (hnext.isRunning hc) hp'
      (hreached.mono (hnext.steps hc).before) hbehind' hnone'

/-- What is ahead of a client is found while it is there, or it stays ahead. -/
theorem awaits_after (hmeant : item.IsMeant user state filter) (ticks : List Tick) :
    ∀ {c : Traffic} {p : Option Inquiry}, c.IsRunning → c.IsAt user state filter p →
      c.Keeps user state source item ticks → item.IsThere user c.server.database →
      c.Awaits item p →
      item.IsThere user (c.after user state source ticks).server.database
        ∧ ∃ p', (c.after user state source ticks).IsAt user state filter p'
          ∧ (c.after user state source ticks).Awaits item p' := by
  induction ticks with
  | nil => exact fun _ hp _ hthere hawaits => ⟨hthere, _, hp, hawaits⟩
  | cons tick ticks ih =>
    intro c p hc hp hkeeps hthere hawaits
    obtain ⟨p', hp', hnext⟩ := exists_next hfilter hp tick
    have hstays : item.IsThere user (c.tick user state source tick).server.database := by
      cases item with
      | row m => exact hkeeps m rfl [tick] ticks rfl
      | removal name time => exact Item.isThere_removal (hnext.steps hc) hthere
    exact ih (hnext.isRunning hc) hp' hkeeps.tail hstays
      (hnext.awaits hpos hmax hmeant hthere hawaits)

end

end Traffic

/-! ### What arrives -/

namespace Traffic

variable {user : UserId} {state : Option MemoState} {filter : Compiled} {c : Traffic} {item : Item}
  {p : Option Inquiry}

/-- The beginning: nothing is under way, and the client asks first from some time. -/
def start (s : State) (since : Timestamp) : Traffic where
  server := s
  anchor := since

theorem exists_awaits (hp : c.IsAt user state filter p)
    (h : c.HasFound user state filter item ∨ c.IsAhead user state filter item) :
    ∃ p, c.IsAt user state filter p ∧ c.Awaits item p := by
  rcases h with (hgiven | ⟨q, hq, hin⟩) | ⟨q, hq, hahead⟩
  · exact ⟨p, hp, .inl hgiven⟩
  · exact ⟨some q, hq, .inr (.inl ⟨q, rfl, hin⟩)⟩
  · exact ⟨q, hq, .inr (.inr hahead)⟩

/-- What a client has not found and what is not ahead of it is behind it. -/
theorem isBehind_of_not (hp : c.IsAt user state filter p)
    (hfound : ¬ c.HasFound user state filter item) (hahead : ¬ c.IsAhead user state filter item) :
    item.IsBehind c.anchor p ∧ ∀ a ∈ c.answers, ¬ a.Gives item := by
  refine ⟨⟨⟨?_, ?_⟩, ?_, ?_⟩, fun a ha hgives => hfound (.inl ⟨a, ha, hgives⟩)⟩
  · rintro rfl
    exact not_lt.mp fun hafter => hahead ⟨none, hp, hafter⟩
  · rintro q ⟨⟩ upTo hupTo
    exact not_lt.mp fun hafter => hahead ⟨_, hp, .inr ⟨upTo, hupTo, hafter⟩⟩
  · rintro q ⟨⟩ hin
    exact hfound (.inr ⟨q, hp, hin⟩)
  · rintro q ⟨⟩ hunread
    exact not_lt.mp fun hafter => hahead ⟨_, hp, .inl ⟨hunread, hafter⟩⟩

end Traffic

section

variable {user : UserId} {state : Option MemoState} {source : String} {filter : Compiled}
  {s : State} {item : Item} {c : Traffic} {p : Option Inquiry}

section

variable (hfilter : compileGuarded source = .ok filter)

include hfilter

/-- What comes in while everything is going on bears a time that has been reached. -/
theorem hasReached_of_enters (hsteady : s.source.IsSteady) {since : Timestamp} {before : List Tick}
    {commit : Tick}
    (hc : (Traffic.start s since).after user state source (before ++ [commit]) = c)
    (hnew : ¬ item.IsThere user
      ((Traffic.start s since).after user state source before).server.database)
    (hthere : item.IsThere user c.server.database) :
    c.IsRunning ∧ c.server.HasReached item.time ∧ ∃ p, c.IsAt user state filter p := by
  have hstart : (Traffic.start s since).IsRunning := ⟨hsteady, nofun⟩
  have hidle : (Traffic.start s since).IsAt user state filter none := rfl
  obtain ⟨p, hp, hbefore, -⟩ := Traffic.exists_after hfilter before hstart hidle
  obtain ⟨p', hp', hnext⟩ := Traffic.exists_next hfilter hp commit
  rw [Traffic.after_append] at hc
  obtain rfl : Traffic.tick user state source _ commit = c := hc
  exact ⟨hnext.isRunning hbefore, Item.hasReached (hnext.steps hbefore) hnew hthere, p', hp'⟩

variable (hpos : 0 < user) (hmax : user ≤ Text.maxInt64) (hrunning : c.IsRunning)
  (hreached : c.server.HasReached item.time) (hp : c.IsAt user state filter p)

include hpos hmax hrunning hreached hp

/-- What an answer gives was found, or ahead of the client. -/
theorem found_or_ahead_of_gives {ticks : List Tick}
    (hreaches : ∀ tick ∈ ticks, tick.Reaches item.time)
    (hgiven : ∃ a ∈ (c.after user state source ticks).answers, a.Gives item) :
    c.HasFound user state filter item ∨ c.IsAhead user state filter item := by
  obtain ⟨a, ha, hgives⟩ := hgiven
  by_contra hneither
  obtain ⟨hfound, hahead⟩ := not_or.mp hneither
  obtain ⟨hbehind, hnone⟩ := Traffic.isBehind_of_not hp hfound hahead
  exact Traffic.isBehind_after hfilter hpos hmax ticks hreaches hrunning hp hreached hbehind hnone
    a ha hgives

/-- What is found, or ahead of the client, is given when a further question has been answered. -/
theorem exists_gives {waiting ticks : List Tick} {wanted : Option Timestamp}
    (hthere : item.IsThere user c.server.database)
    (hreaches : ∀ tick ∈ waiting ++ .ask wanted :: ticks, tick.Reaches item.time)
    (hkeeps : c.Keeps user state source item (waiting ++ .ask wanted :: ticks))
    (hidle : (c.after user state source waiting).asking = none)
    (hdone : (c.after user state source (waiting ++ .ask wanted :: ticks)).asking = none)
    (hmeant : item.IsMeant user state filter)
    (hdue : c.HasFound user state filter item ∨ c.IsAhead user state filter item) :
    ∃ a ∈ (c.after user state source (waiting ++ .ask wanted :: ticks)).answers, a.Gives item := by
  obtain ⟨q, hq, hawaits⟩ := Traffic.exists_awaits hp hdue
  obtain ⟨-, q', hq', hend⟩ := Traffic.awaits_after hfilter hpos hmax hmeant _ hrunning hq hkeeps
    hthere hawaits
  obtain rfl := Traffic.asking_eq_none hq' hdone
  -- the question that is asked now comes up to the time of the item, and so do all later ones
  obtain ⟨r, hr, hrunning', hbefore⟩ := Traffic.exists_after hfilter waiting hrunning hp
  obtain rfl := Traffic.asking_eq_none hr hidle
  obtain ⟨r', hr', hnext⟩ := Traffic.exists_next hfilter hr (.ask wanted)
  have hask : (Tick.ask wanted).Reaches item.time :=
    hreaches _ (List.mem_append_right _ List.mem_cons_self)
  obtain ⟨r'', hr'', hupTo⟩ := Traffic.comesUpTo_after hfilter ticks
    (fun tick htick => hreaches tick (List.mem_append_right _ (List.mem_cons_of_mem _ htick)))
    (hnext.isRunning hrunning') hr' ((hreached.mono hbefore).mono (hnext.steps hrunning').before)
    (hnext.eq_start ▸ ComesUpTo.start hask)
  rw [Traffic.after_append, Traffic.after_cons] at hdone hend ⊢
  obtain rfl := Traffic.asking_eq_none hr'' hdone
  rcases hend with hgiven | ⟨_, ⟨⟩, -⟩ | hahead
  · exact hgiven
  · exact absurd hahead (not_lt.mpr (hupTo.rest rfl))

end

/-- **What reaches a client is decided when it is written.** A row or an event comes in while a
client and requests to write go on in any order of their steps. If at that moment the client has
found it already, or if it is still ahead of the client, then it is given by the first answer to a
question that is asked afterwards, or by an earlier one; a row has to stay for that long. Otherwise
no answer will ever give it, unless the client asks again for what was up to an earlier time. -/
theorem arrives_iff (item : Item) (hsteady : s.source.IsSteady) (hpos : 0 < user)
    (hmax : user ≤ Text.maxInt64) (state : Option MemoState) (hfilter : compileGuarded source = .ok filter)
    (since : Timestamp) (before : List Tick) (commit : Tick)
    (hc : (Traffic.start s since).after user state source (before ++ [commit]) = c)
    (hnew : ¬ item.IsThere user
      ((Traffic.start s since).after user state source before).server.database)
    (hthere : item.IsThere user c.server.database) :
    (∀ ticks, (∀ tick ∈ ticks, tick.Reaches item.time) →
        (∃ a ∈ (c.after user state source ticks).answers, a.Gives item) →
        c.HasFound user state filter item ∨ c.IsAhead user state filter item)
      ∧ ∀ waiting wanted ticks,
        (∀ tick ∈ waiting ++ .ask wanted :: ticks, tick.Reaches item.time) →
        c.Keeps user state source item (waiting ++ .ask wanted :: ticks) →
        (c.after user state source waiting).asking = none →
        (c.after user state source (waiting ++ .ask wanted :: ticks)).asking = none →
        item.IsMeant user state filter →
        ((∃ a ∈ (c.after user state source (waiting ++ .ask wanted :: ticks)).answers,
            a.Gives item)
          ↔ c.HasFound user state filter item ∨ c.IsAhead user state filter item) := by
  obtain ⟨hrunning, hreached, p, hp⟩ := hasReached_of_enters hfilter hsteady hc hnew hthere
  have honly : ∀ ticks, (∀ tick ∈ ticks, tick.Reaches item.time) →
      (∃ a ∈ (c.after user state source ticks).answers, a.Gives item) →
      c.HasFound user state filter item ∨ c.IsAhead user state filter item :=
    fun ticks => found_or_ahead_of_gives hfilter hpos hmax hrunning hreached hp
  refine ⟨honly, fun waiting wanted ticks hreaches hkeeps hidle hdone hmeant =>
    ⟨honly _ hreaches, ?_⟩⟩
  exact exists_gives hfilter hpos hmax hrunning hreached hp hthere hreaches hkeeps hidle hdone
    hmeant

end

/-- A user makes a memo; the uid has been drawn and the clock looked at. -/
def aboutToNote : List Tick :=
  [.request (.create (some 1) { content := "n" }), .work 0, .work 0]

/-- A client asks, and goes on until it has the answer. -/
def askedAndAnswered : List Tick :=
  [.ask none, .proceed, .proceed, .proceed, .proceed, .proceed]

/-- The memo has been made, and the client has not asked yet. -/
def newlyNoted : Traffic :=
  (Traffic.start tickingServer ⟨0, 0⟩).after 1 none "" (aboutToNote ++ [.work 0])

/-- Asked about afterwards, the memo arrives. -/
theorem arrives_newlyNoted : ∃ m ∈ newlyNoted.server.database.memos,
    ∃ a ∈ (newlyNoted.after 1 none "" askedAndAnswered).answers, a.Gives (.row m) := by
  have hcompiles : (compileGuarded "").toOption.any (fun f => !f.callsNow
      && newlyNoted.server.database.memos.any fun m => isWanted (some 1) none f 0 m
        && !isOverlooked f.prefilter m && decide (newlyNoted.anchor.toInstant < m.updated)) := by
    decide +kernel
  obtain ⟨filter, hfilter, hmeets⟩ := compiles_of_any hcompiles
  simp only [Bool.and_eq_true, Bool.not_eq_true', List.any_eq_true, decide_eq_true_eq] at hmeets
  obtain ⟨hstill, m, hm, ⟨hwanted, hseen⟩, hafter⟩ := hmeets
  have hstays : ∀ earlier ∈ askedAndAnswered.inits, ∀ n ∈ newlyNoted.server.database.memos,
      n ∈ (newlyNoted.after 1 none "" earlier).server.database.memos := by
    decide +kernel
  have hdone : newlyNoted.asking.isNone
      ∧ (newlyNoted.after 1 none "" askedAndAnswered).asking.isNone := by
    decide +kernel
  have hidle : newlyNoted.asking = none := Option.isNone_iff_eq_none.mp hdone.1
  have hnew : ¬ (Item.row m).IsThere 1
      ((Traffic.start tickingServer ⟨0, 0⟩).after 1 none "" aboutToNote).server.database :=
    List.not_mem_nil
  have harrives := (arrives_iff (.row m) (fun _ _ => tickingServer_isTicking.mono)
    (by decide) (by decide) none hfilter ⟨0, 0⟩ aboutToNote (.work 0) rfl
    hnew hm).2 [] none
    [.proceed, .proceed, .proceed, .proceed, .proceed]
  refine ⟨m, hm, (harrives ?_ ?_ hidle (Option.isNone_iff_eq_none.mp hdone.2) ?_).mpr (.inr ?_)⟩
  · simp [Tick.Reaches]
  · rintro _ ⟨⟩ earlier later hsplit
    exact hstays earlier ((List.mem_inits _ _).mpr ⟨later, hsplit.symm⟩) m hm
  · exact ⟨fun time => (isWanted_eq hstill m time 0).trans hwanted, hseen⟩
  · exact ⟨none, hidle, hafter⟩

/-- A memo is made while a client asks: between the look at the clock for the memo and the
transaction, the end of the window is taken and the rows are read. Afterwards the client asks
again. -/
def overtaken : Traffic :=
  (Traffic.start tickingServer ⟨0, 0⟩).after 1 none "" <|
    aboutToNote ++ [.ask none, .proceed, .proceed, .proceed, .work 0, .proceed, .proceed]
      ++ askedAndAnswered

/-- The memo never arrives, although the second question is only asked when it has been made: it
bears a time that the first answer is up to. -/
theorem arrives_not_overtaken :
    overtaken.asking.isNone ∧ overtaken.answers.length = 2
      ∧ ∃ m ∈ overtaken.server.database.memos, m.isVisibleTo (some 1)
        ∧ ∀ a ∈ overtaken.answers, m ∉ a.changes.memos := by
  decide +kernel

end SharedMemos.Server
