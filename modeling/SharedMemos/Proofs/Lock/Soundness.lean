import SharedMemos.Lock.Keyed
import SharedMemos.Proofs.Lookup
import Mathlib.Data.List.Nodup

/-!
# Locks by key are exclusive

Entries come and go while requests still refer to the locks that they found there, so that it takes
an argument that no two holders of one key have two locks for it. The argument is about whoever
refers to a lock: its entry stays as long as there is one, since only letting go drops entries, and
only such that nobody refers to. So the lock that a request stands in line for is the one that its
key leads to, and of that lock only the first in line is the holder.

`Keyed.Sound` says that. Every step of any request keeps it, whatever the order of the steps is:
requests may look at their locks as often and in whichever order, and give up at any time.

## Main results

* `Keyed.Sound` — what holds of locks by key at all times
* `Keyed.Sound.act`, `Keyed.sound_run` — it holds after every step, and so after every run
* `Keyed.Sound.nodup_held_keys` — no key has two holders
-/

namespace SharedMemos.Lock

namespace Keyed

variable {l : Keyed} {ticket lock : Nat} {key : String}

/-! ### Lines and claims -/

/-- The tickets of all requests that are not over. -/
def tickets (l : Keyed) : List Nat :=
  l.held.map (·.ticket) ++ l.waiting.map (·.ticket)

theorem mem_awaited {c : Guard} :
    c ∈ l.awaited ↔ ∃ r ∈ l.waiting, ∃ lock, r.lock = some lock ∧ r.claim lock = c := by
  simp [awaited, Request.claim?]

theorem mem_claims {c : Guard} : c ∈ l.claims ↔ c ∈ l.held ∨ c ∈ l.awaited :=
  List.mem_append

theorem mem_awaited_of_waiting {r : Request} (hr : r ∈ l.waiting) (hlock : r.lock = some lock) :
    r.claim lock ∈ l.awaited :=
  mem_awaited.mpr ⟨r, hr, lock, hlock, rfl⟩

@[simp] theorem claims_request (l : Keyed) (id key : String) :
    (l.request id key).claims = l.claims := by
  simp [claims, awaited, request, Request.claim?]

@[simp] theorem line_request (l : Keyed) (id key : String) (lock : Nat) :
    (l.request id key).line lock = l.line lock :=
  rfl

@[simp] theorem held_enter (l : Keyed) (key : String) : (l.enter key).held = l.held := by
  rw [enter]
  split <;> rfl

@[simp] theorem waiting_enter (l : Keyed) (key : String) :
    (l.enter key).waiting = l.waiting := by
  rw [enter]
  split <;> rfl

@[simp] theorem made_enter (l : Keyed) (key : String) : (l.enter key).made = l.made := by
  rw [enter]
  split <;> rfl

@[simp] theorem awaited_enter (l : Keyed) (key : String) :
    (l.enter key).awaited = l.awaited := by
  rw [awaited, waiting_enter, awaited]

@[simp] theorem claims_enter (l : Keyed) (key : String) : (l.enter key).claims = l.claims := by
  rw [claims, held_enter, awaited_enter, claims]

@[simp] theorem tickets_enter (l : Keyed) (key : String) :
    (l.enter key).tickets = l.tickets := by
  rw [tickets, held_enter, waiting_enter, tickets]

/-- Nobody stands in line for a lock that has just been made. -/
@[simp] theorem line_enter (l : Keyed) (key : String) (lock : Nat) :
    (l.enter key).line lock = l.line lock := by
  rw [enter]
  split
  · rfl
  · rw [line, line, List.getD_eq_getElem?_getD, List.getD_eq_getElem?_getD, List.getElem?_append]
    split
    · rfl
    · rename_i hlock
      rw [List.getElem?_eq_none (Nat.le_of_not_lt hlock)]
      cases lock - l.lines.length <;> rfl

theorem line_modify (f : List Nat → List Nat) (hlock : lock < l.lines.length) (lock' : Nat) :
    (l.lines.modify lock f).getD lock' []
      = if lock = lock' then f (l.line lock') else l.line lock' := by
  rw [line, List.getD_eq_getElem?_getD, List.getD_eq_getElem?_getD, List.getElem?_modify]
  split
  · subst lock'
    rw [List.getElem?_eq_getElem hlock]
    rfl
  · cases l.lines[lock']? <;> rfl

theorem awaited_filter (l : Keyed) (ticket : Nat) :
    (l.waiting.filter (·.ticket != ticket)).filterMap Request.claim?
      = l.awaited.filter (·.ticket != ticket) := by
  rw [awaited, List.filter_filterMap, List.filterMap_filter]
  congr 1
  funext r
  cases hlock : r.lock <;> simp [Request.claim?, hlock, Request.claim, Option.filter]

/-- Whoever drops out, is no longer among those with a claim. -/
theorem claims_drop (l : Keyed) (ticket : Nat) (lock : Option Nat) :
    (l.drop ticket lock).claims = l.claims.filter (·.ticket != ticket) := by
  rw [claims, claims, List.filter_append, ← awaited_filter]
  rfl

theorem tickets_drop (l : Keyed) (ticket : Nat) (lock : Option Nat) :
    (l.drop ticket lock).tickets = l.tickets.filter (· != ticket) := by
  simp [tickets, drop, List.filter_map, Function.comp_def]

/-! ### What holds at all times -/

/-- Whoever refers to a lock stands in line for it, and finds it at his key. -/
structure Sound (l : Keyed) : Prop where
  /-- No key has two entries. -/
  keys : l.tracked.Nodup
  /-- No lock has two entries. -/
  apart : ∀ e ∈ l.entries, ∀ e' ∈ l.entries, e.2 = e'.2 → e = e'
  bounded : ∀ e ∈ l.entries, e.2 < l.lines.length
  entered : ∀ c ∈ l.claims, (c.key, c.lock) ∈ l.entries
  lined : ∀ lock ticket, ticket ∈ l.line lock ↔ ∃ c ∈ l.claims, c.ticket = ticket ∧ c.lock = lock
  distinct : l.tickets.Nodup
  made : ∀ ticket ∈ l.tickets, ticket < l.made
  /-- Only the first in line is a holder. -/
  first : ∀ g ∈ l.held, (l.line g.lock).head? = some g.ticket

theorem sound_empty : Sound {} where
  keys := List.nodup_nil
  apart := by simp
  bounded := by simp
  entered := by simp [claims, awaited]
  lined := by simp [claims, awaited, line]
  distinct := List.nodup_nil
  made := by simp [tickets]
  first := by simp

theorem lock?_eq_some_iff (h : l.Sound) : l.lock? key = some lock ↔ (key, lock) ∈ l.entries := by
  rw [lock?, Option.map_eq_some_iff]
  constructor
  · rintro ⟨⟨key', _⟩, hfound, rfl⟩
    obtain ⟨hmem, rfl⟩ := (find?_eq_some_iff_of_nodup h.keys).mp hfound
    exact hmem
  · intro hmem
    exact ⟨(key, lock), (find?_eq_some_iff_of_nodup h.keys).mpr ⟨hmem, rfl⟩, rfl⟩

theorem lock?_eq_none_iff : l.lock? key = none ↔ key ∉ l.tracked := by
  rw [lock?, Option.map_eq_none_iff, List.find?_eq_none, tracked, List.mem_map]
  constructor
  · rintro hnone ⟨e, he, rfl⟩
    exact hnone e he (beq_self_eq_true e.1)
  · rintro hnone e he hkey
    exact hnone ⟨e, he, eq_of_beq hkey⟩

/-- A key leads to one lock at a time. -/
theorem Sound.entry_unique (h : l.Sound) {lock' : Nat} (hlock : (key, lock) ∈ l.entries)
    (hlock' : (key, lock') ∈ l.entries) : lock = lock' :=
  congrArg Prod.snd (List.inj_on_of_nodup_map h.keys hlock hlock' rfl)

/-- A lock is that of one key. -/
theorem Sound.key_of_claim (h : l.Sound) {c : Guard} (hc : c ∈ l.claims)
    (hentry : (key, c.lock) ∈ l.entries) : c.key = key :=
  congrArg Prod.fst (h.apart _ (h.entered c hc) _ hentry rfl)

theorem mem_tickets_of_waiting {r : Request} (hr : r ∈ l.waiting) : r.ticket ∈ l.tickets :=
  List.mem_append_right _ (List.mem_map_of_mem hr)

/-- Tickets tell those apart who have claims. -/
theorem Sound.claim_unique (h : l.Sound) {c c' : Guard} (hc : c ∈ l.claims) (hc' : c' ∈ l.claims)
    (hticket : c.ticket = c'.ticket) : c = c' := by
  obtain ⟨hheld, hwaiting, hapart⟩ := List.nodup_append.mp h.distinct
  have hnot : ∀ g ∈ l.held, ∀ r ∈ l.waiting, g.ticket ≠ r.ticket := fun g hg r hr =>
    hapart _ (List.mem_map_of_mem hg) _ (List.mem_map_of_mem hr)
  rcases mem_claims.mp hc with hg | hq <;> rcases mem_claims.mp hc' with hg' | hq'
  · exact List.inj_on_of_nodup_map hheld hg hg' hticket
  · obtain ⟨r', hr', _, _, rfl⟩ := mem_awaited.mp hq'
    exact absurd hticket (hnot _ hg _ hr')
  · obtain ⟨r, hr, _, _, rfl⟩ := mem_awaited.mp hq
    exact absurd hticket.symm (hnot _ hg' _ hr)
  · obtain ⟨r, hr, lock, hlock, rfl⟩ := mem_awaited.mp hq
    obtain ⟨r', hr', lock', hlock', rfl⟩ := mem_awaited.mp hq'
    obtain rfl := List.inj_on_of_nodup_map hwaiting hr hr' hticket
    rw [hlock] at hlock'
    cases hlock'
    rfl

theorem Sound.waiting_unique (h : l.Sound) {r q : Request} (hr : r ∈ l.waiting)
    (hq : q ∈ l.waiting) (hticket : r.ticket = q.ticket) : r = q :=
  List.inj_on_of_nodup_map (List.nodup_append.mp h.distinct).2.1 hr hq hticket

theorem Sound.find?_waiting (h : l.Sound) {r : Request} :
    l.waiting.find? (·.ticket == ticket) = some r ↔ r ∈ l.waiting ∧ r.ticket = ticket :=
  find?_eq_some_iff_of_nodup (List.nodup_append.mp h.distinct).2.1

theorem Sound.find?_held (h : l.Sound) {g : Guard} :
    l.held.find? (·.ticket == ticket) = some g ↔ g ∈ l.held ∧ g.ticket = ticket :=
  find?_eq_some_iff_of_nodup (List.nodup_append.mp h.distinct).1

/-- Who holds a lock does not wait for it. -/
theorem Sound.not_held_of_awaited (h : l.Sound) {c : Guard} (hc : c ∈ l.awaited) : c ∉ l.held := by
  intro hheld
  obtain ⟨-, -, hapart⟩ := List.nodup_append.mp h.distinct
  obtain ⟨r, hr, lock, -, rfl⟩ := mem_awaited.mp hc
  exact hapart _ (List.mem_map_of_mem hheld) _ (List.mem_map_of_mem hr) rfl

/-! ### The parts of a step -/

theorem tickets_request (l : Keyed) (id key : String) :
    (l.request id key).tickets = l.tickets ++ [l.made] := by
  simp [tickets, request]

theorem Sound.request (h : l.Sound) (id key : String) : (l.request id key).Sound where
  keys := h.keys
  apart := h.apart
  bounded := h.bounded
  entered := by
    rw [claims_request]
    exact h.entered
  lined := by
    simp only [claims_request, line_request]
    exact h.lined
  distinct := by
    rw [tickets_request, List.nodup_append]
    refine ⟨h.distinct, List.nodup_singleton _, ?_⟩
    intro ticket hticket made hmade
    rw [List.mem_singleton.mp hmade]
    exact Nat.ne_of_lt (h.made ticket hticket)
  made := by
    intro ticket hticket
    rw [tickets_request] at hticket
    rcases List.mem_append.mp hticket with hmem | hmem
    · exact Nat.lt_succ_of_lt (h.made ticket hmem)
    · rw [List.mem_singleton.mp hmem]
      exact Nat.lt_succ_self _
  first := h.first

theorem Sound.enter (h : l.Sound) (key : String) : (l.enter key).Sound where
  keys := by
    rw [Keyed.enter]
    split
    · exact h.keys
    · rename_i hnone
      have hkey := lock?_eq_none_iff.mp hnone
      rw [tracked, List.map_append, List.nodup_append]
      refine ⟨h.keys, List.nodup_singleton _, ?_⟩
      rintro k hk _ hnew rfl
      rw [List.mem_singleton.mp hnew] at hk
      exact hkey hk
  apart := by
    rw [Keyed.enter]
    split
    · exact h.apart
    · intro e he e' he' hsame
      rcases List.mem_append.mp he with hold | hnew <;>
        rcases List.mem_append.mp he' with hold' | hnew'
      · exact h.apart e hold e' hold' hsame
      · rw [List.mem_singleton.mp hnew'] at hsame
        exact absurd hsame (Nat.ne_of_lt (h.bounded e hold))
      · rw [List.mem_singleton.mp hnew] at hsame
        exact absurd hsame.symm (Nat.ne_of_lt (h.bounded e' hold'))
      · rw [List.mem_singleton.mp hnew, List.mem_singleton.mp hnew']
  bounded := by
    rw [Keyed.enter]
    split
    · exact h.bounded
    · intro e he
      rw [List.length_append, List.length_singleton]
      rcases List.mem_append.mp he with hold | hnew
      · exact Nat.lt_succ_of_lt (h.bounded e hold)
      · rw [List.mem_singleton.mp hnew]
        exact Nat.lt_succ_self _
  entered := by
    intro c hc
    rw [claims_enter] at hc
    rw [Keyed.enter]
    split
    · exact h.entered c hc
    · exact List.mem_append_left _ (h.entered c hc)
  lined := by
    simp only [claims_enter, line_enter]
    exact h.lined
  distinct := by
    rw [tickets_enter]
    exact h.distinct
  made := by
    rw [tickets_enter, made_enter]
    exact h.made
  first := by
    simp only [held_enter, line_enter]
    exact h.first

/-- The lock that a request finds is in use. -/
theorem Sound.lockOf_mem (h : l.Sound) (key : String) :
    (key, l.lockOf key) ∈ (l.enter key).entries := by
  rw [lockOf, Keyed.enter]
  split
  · rename_i lock hlock
    rw [hlock]
    exact (lock?_eq_some_iff h).mp hlock
  · rename_i hnone
    rw [hnone]
    exact List.mem_append_right _ (List.mem_singleton_self _)

/-- Who joins a line, stands in it from then on. -/
theorem Sound.mem_awaited_join (h : l.Sound) {r : Request} (hr : r ∈ l.waiting)
    (hfresh : r.lock = none) {c : Guard} :
    c ∈ (l.join r.ticket lock).awaited ↔ c ∈ l.awaited ∨ c = r.claim lock := by
  have honly : ∀ q ∈ l.waiting, q.ticket = r.ticket → q = r := fun q hq hticket =>
    h.waiting_unique hq hr hticket
  rw [mem_awaited, mem_awaited]
  constructor
  · rintro ⟨q, hq, lock', hlock', rfl⟩
    obtain ⟨q, hmem, rfl⟩ := List.mem_map.mp hq
    by_cases hticket : q.ticket = r.ticket
    · rw [if_pos hticket] at hlock' ⊢
      cases hlock'
      rw [honly q hmem hticket]
      exact .inr rfl
    · rw [if_neg hticket] at hlock' ⊢
      exact .inl ⟨q, hmem, lock', hlock', rfl⟩
  · rintro (⟨q, hq, lock', hlock', rfl⟩ | rfl)
    · have hticket : q.ticket ≠ r.ticket := by
        intro hticket
        rw [honly q hq hticket, hfresh] at hlock'
        cases hlock'
      exact ⟨q, List.mem_map.mpr ⟨q, hq, if_neg hticket⟩, lock', hlock', rfl⟩
    · exact ⟨{ r with lock := some lock }, List.mem_map.mpr ⟨r, hr, if_pos rfl⟩, lock, rfl, rfl⟩

theorem Sound.mem_claims_join (h : l.Sound) {r : Request} (hr : r ∈ l.waiting)
    (hfresh : r.lock = none) {c : Guard} :
    c ∈ (l.join r.ticket lock).claims ↔ c ∈ l.claims ∨ c = r.claim lock := by
  rw [mem_claims, mem_claims, or_assoc]
  exact or_congr_right (h.mem_awaited_join hr hfresh)

theorem tickets_join (l : Keyed) (ticket lock : Nat) :
    (l.join ticket lock).tickets = l.tickets := by
  rw [tickets, tickets, join, List.map_map]
  congr 2
  funext r
  by_cases hticket : r.ticket = ticket <;> simp [hticket]

theorem Sound.line_join (h : l.Sound) (hlock : (key, lock) ∈ l.entries) (ticket lock' : Nat) :
    (l.join ticket lock).line lock'
      = if lock = lock' then l.line lock' ++ [ticket] else l.line lock' :=
  line_modify _ (h.bounded _ hlock) lock'

theorem Sound.join (h : l.Sound) {r : Request} (hr : r ∈ l.waiting) (hfresh : r.lock = none)
    (hlock : (r.key, lock) ∈ l.entries) : (l.join r.ticket lock).Sound where
  keys := h.keys
  apart := h.apart
  bounded := by
    intro e he
    rw [Keyed.join, List.length_modify]
    exact h.bounded e he
  entered := by
    intro c hc
    rcases (h.mem_claims_join hr hfresh).mp hc with hc | rfl
    · exact h.entered c hc
    · exact hlock
  lined := by
    intro lock' ticket
    simp only [h.mem_claims_join hr hfresh, or_and_right, exists_or, ← h.lined, exists_eq_left,
      h.line_join hlock]
    split
    · rename_i hsame
      simp [hsame, Request.claim, eq_comm]
    · rename_i hne
      simp [hne, Request.claim]
  distinct := by
    rw [tickets_join]
    exact h.distinct
  made := by
    rw [tickets_join]
    exact h.made
  first := by
    intro g hg
    rw [h.line_join hlock, ← h.first g hg]
    split
    · rw [List.head?_append, h.first g hg]
      rfl
    · rfl

/-- A claim stays one when it becomes a guard. -/
theorem Sound.mem_claims_take (h : l.Sound) {c : Guard} (hc : c ∈ l.awaited) {c' : Guard} :
    c' ∈ (l.take c).claims ↔ c' ∈ l.claims := by
  have hclaim : c ∈ l.claims := mem_claims.mpr (.inr hc)
  rw [Keyed.take]
  split
  · rw [mem_claims]
    constructor
    · rintro (hheld | hawaited)
      · rcases List.mem_append.mp hheld with hheld | hnew
        · exact mem_claims.mpr (.inl hheld)
        · rw [List.mem_singleton.mp hnew]
          exact hclaim
      · obtain ⟨q, hq, lock, hlock, rfl⟩ := mem_awaited.mp hawaited
        exact mem_claims.mpr (.inr (mem_awaited_of_waiting (List.mem_filter.mp hq).1 hlock))
    · intro hc'
      by_cases hticket : c'.ticket = c.ticket
      · rw [h.claim_unique hc' hclaim hticket]
        exact .inl (List.mem_append_right _ (List.mem_singleton_self _))
      · rcases mem_claims.mp hc' with hheld | hawaited
        · exact .inl (List.mem_append_left _ hheld)
        · obtain ⟨q, hq, lock, hlock, rfl⟩ := mem_awaited.mp hawaited
          exact .inr (mem_awaited.mpr
            ⟨q, List.mem_filter.mpr ⟨hq, bne_iff_ne.mpr hticket⟩, lock, hlock, rfl⟩)
  · rfl

theorem mem_tickets_take {c : Guard} (hc : c ∈ l.awaited) :
    ticket ∈ (l.take c).tickets ↔ ticket ∈ l.tickets := by
  obtain ⟨r, hr, lock, -, rfl⟩ := mem_awaited.mp hc
  rw [take]
  split
  · simp only [tickets, List.map_append, List.map_cons, List.map_nil, List.mem_append,
      List.mem_singleton, List.mem_map, List.mem_filter]
    constructor
    · rintro ((hheld | rfl) | ⟨q, ⟨hq, -⟩, rfl⟩)
      · exact .inl hheld
      · exact .inr ⟨r, hr, rfl⟩
      · exact .inr ⟨q, hq, rfl⟩
    · rintro (hheld | ⟨q, hq, rfl⟩)
      · exact .inl (.inl hheld)
      · by_cases hticket : q.ticket = r.ticket
        · exact .inl (.inr hticket)
        · exact .inr ⟨q, ⟨hq, bne_iff_ne.mpr hticket⟩, rfl⟩
  · rfl

theorem Sound.take (h : l.Sound) {c : Guard} (hc : c ∈ l.awaited) : (l.take c).Sound where
  keys := by
    rw [Keyed.take]
    split <;> exact h.keys
  apart := by
    rw [Keyed.take]
    split <;> exact h.apart
  bounded := by
    rw [Keyed.take]
    split <;> exact h.bounded
  entered := by
    intro c' hc'
    rw [h.mem_claims_take hc] at hc'
    rw [Keyed.take]
    split <;> exact h.entered c' hc'
  lined := by
    intro lock ticket
    simp only [h.mem_claims_take hc]
    rw [Keyed.take]
    split <;> exact h.lined lock ticket
  distinct := by
    obtain ⟨r, hr, lock, -, rfl⟩ := mem_awaited.mp hc
    rw [Keyed.take]
    split
    · obtain ⟨hheld, hwaiting, hapart⟩ := List.nodup_append.mp h.distinct
      have hnot : r.ticket ∉ l.held.map (·.ticket) := fun hmem =>
        hapart _ hmem _ (List.mem_map_of_mem hr) rfl
      simp only [tickets, List.map_append, List.map_cons, List.map_nil]
      refine List.nodup_append.mpr ⟨List.nodup_append.mpr ⟨hheld, List.nodup_singleton _, ?_⟩,
        hwaiting.sublist (List.filter_sublist.map _), ?_⟩
      · rintro t ht _ hnew rfl
        rw [List.mem_singleton.mp hnew] at ht
        exact hnot ht
      · rintro t ht _ hleft rfl
        obtain ⟨q, hmem, rfl⟩ := List.mem_map.mp hleft
        obtain ⟨hq, hne⟩ := List.mem_filter.mp hmem
        rcases List.mem_append.mp ht with ht | hnew
        · exact hapart _ ht _ (List.mem_map_of_mem hq) rfl
        · rw [List.mem_singleton.mp hnew] at hne
          simp at hne
    · exact h.distinct
  made := by
    intro ticket hticket
    rw [mem_tickets_take hc] at hticket
    rw [Keyed.take]
    split <;> exact h.made ticket hticket
  first := by
    rw [Keyed.take]
    split
    · rename_i hfirst
      intro g hg
      rcases List.mem_append.mp hg with hheld | hnew
      · exact h.first g hheld
      · rw [List.mem_singleton.mp hnew]
        exact hfirst
    · exact h.first

/-- Who drops out leaves the line for his lock, and stands in no other. -/
theorem Sound.line_drop (h : l.Sound) {lock : Option Nat}
    (hlock : ∀ c ∈ l.claims, c.ticket = ticket → lock = some c.lock) (lock' : Nat) :
    (l.drop ticket lock).line lock' = (l.line lock').filter (· != ticket) := by
  have hstays : lock ≠ some lock' → (l.line lock').filter (· != ticket) = l.line lock' := by
    intro hne
    rw [List.filter_eq_self]
    intro t ht
    obtain ⟨c, hc, rfl, hat⟩ := (h.lined lock' t).mp ht
    have hticket : c.ticket ≠ ticket := fun hticket => hne (hat ▸ hlock c hc hticket)
    simpa using hticket
  cases lock with
  | none => exact (hstays nofun).symm
  | some lock =>
    by_cases hsame : lock = lock'
    · subst hsame
      simp only [line, drop, List.getD_eq_getElem?_getD, List.getElem?_modify, if_true]
      cases l.lines[lock]? <;> rfl
    · rw [hstays (by simpa using hsame)]
      simp only [line, drop, List.getD_eq_getElem?_getD, List.getElem?_modify, if_neg hsame]
      cases l.lines[lock']? <;> rfl

theorem Sound.drop (h : l.Sound) {lock : Option Nat}
    (hlock : ∀ c ∈ l.claims, c.ticket = ticket → lock = some c.lock) :
    (l.drop ticket lock).Sound where
  keys := h.keys
  apart := h.apart
  bounded := by
    intro e he
    cases lock with
    | none => exact h.bounded e he
    | some lock =>
      rw [Keyed.drop, List.length_modify]
      exact h.bounded e he
  entered := by
    intro c hc
    rw [claims_drop] at hc
    exact h.entered c (List.mem_filter.mp hc).1
  lined := by
    intro lock' t
    rw [h.line_drop hlock, claims_drop, List.mem_filter, h.lined]
    constructor
    · rintro ⟨⟨c, hc, rfl, hat⟩, hne⟩
      exact ⟨c, List.mem_filter.mpr ⟨hc, hne⟩, rfl, hat⟩
    · rintro ⟨c, hc, rfl, hat⟩
      obtain ⟨hc, hne⟩ := List.mem_filter.mp hc
      exact ⟨⟨c, hc, rfl, hat⟩, hne⟩
  distinct := by
    rw [tickets_drop]
    exact h.distinct.filter _
  made := by
    intro t ht
    rw [tickets_drop] at ht
    exact h.made t (List.mem_filter.mp ht).1
  first := by
    intro g hg
    obtain ⟨hg, hne⟩ := List.mem_filter.mp hg
    obtain ⟨others, hline⟩ := List.head?_eq_some_iff.mp (h.first g hg)
    rw [h.line_drop hlock, hline, List.filter_cons, if_pos hne]
    rfl

theorem claims_tidy (l : Keyed) (key : String) : (l.tidy key).claims = l.claims := by
  rw [tidy]
  split
  · split <;> rfl
  · rfl

/-- An entry is dropped only where nobody refers to its lock. -/
theorem Sound.tidy (h : l.Sound) (key : String) : (l.tidy key).Sound := by
  rw [Keyed.tidy]
  split
  · rename_i lock hlock
    split
    · exact h
    · rename_i hnobody
      have hsublist : (l.entries.filter (·.1 != key)).Sublist l.entries := List.filter_sublist
      refine {
        keys := h.keys.sublist (hsublist.map _)
        apart := fun e he e' he' => h.apart e (hsublist.subset he) e' (hsublist.subset he')
        bounded := fun e he => h.bounded e (hsublist.subset he)
        entered := fun c hc => List.mem_filter.mpr ⟨h.entered c hc, ?_⟩
        lined := h.lined
        distinct := h.distinct
        made := h.made
        first := h.first }
      have hentry : (key, lock) ∈ l.entries := (lock?_eq_some_iff h).mp hlock
      have hkey : c.key ≠ key := by
        rintro rfl
        have hsame := h.entry_unique hentry (h.entered c hc)
        exact hnobody (List.any_eq_true.mpr ⟨c, hc, by simp [hsame]⟩)
      simpa using hkey
  · exact h

/-! ### Steps and runs -/

theorem look_of_looked {r : Request} (hlock : r.lock = some lock) :
    l.look r = l.take (r.claim lock) := by
  rw [look, hlock]

theorem look_of_fresh {r : Request} (hfresh : r.lock = none) :
    l.look r = ((l.enter r.key).join r.ticket (l.lockOf r.key)).take
      (r.claim (l.lockOf r.key)) := by
  rw [look, hfresh]

/-- A request that looks for the first time stands in line for the lock of its key then. -/
theorem Sound.joined (h : l.Sound) {r : Request} (hr : r ∈ l.waiting) (hfresh : r.lock = none) :
    ((l.enter r.key).join r.ticket (l.lockOf r.key)).Sound ∧
      ∀ c, c ∈ ((l.enter r.key).join r.ticket (l.lockOf r.key)).awaited ↔
        c ∈ l.awaited ∨ c = r.claim (l.lockOf r.key) := by
  have hr' : r ∈ (l.enter r.key).waiting := by rwa [waiting_enter]
  refine ⟨(h.enter r.key).join hr' hfresh (h.lockOf_mem r.key), fun c => ?_⟩
  rw [(h.enter r.key).mem_awaited_join hr' hfresh, awaited_enter]

theorem Sound.look (h : l.Sound) {r : Request} (hr : r ∈ l.waiting) : (l.look r).Sound := by
  cases hlock : r.lock with
  | some lock =>
    rw [look_of_looked hlock]
    exact h.take (mem_awaited_of_waiting hr hlock)
  | none =>
    obtain ⟨hjoined, hawaited⟩ := h.joined hr hlock
    rw [look_of_fresh hlock]
    exact hjoined.take ((hawaited _).mpr (.inr rfl))

theorem Sound.poll (h : l.Sound) (ticket : Nat) : (l.poll ticket).Sound := by
  rw [Keyed.poll]
  split
  · rename_i r hfound
    exact h.look (h.find?_waiting.mp hfound).1
  · exact h

/-- What a waiting request has a claim to, is the lock that it stands in line for. -/
theorem Sound.lock_of_claim (h : l.Sound) {r : Request} (hr : r ∈ l.waiting) {c : Guard}
    (hc : c ∈ l.claims) (hticket : c.ticket = r.ticket) : r.lock = some c.lock := by
  obtain ⟨-, -, hapart⟩ := List.nodup_append.mp h.distinct
  rcases mem_claims.mp hc with hheld | hawaited
  · exact absurd hticket (hapart _ (List.mem_map_of_mem hheld) _ (List.mem_map_of_mem hr))
  · obtain ⟨q, hq, lock, hlock, rfl⟩ := mem_awaited.mp hawaited
    rw [← h.waiting_unique hq hr hticket]
    exact hlock

theorem Sound.giveUp (h : l.Sound) (ticket : Nat) : (l.giveUp ticket).Sound := by
  rw [Keyed.giveUp]
  split
  · rename_i r hfound
    obtain ⟨hr, rfl⟩ := h.find?_waiting.mp hfound
    exact h.drop fun c hc hticket => h.lock_of_claim hr hc hticket
  · exact h

theorem Sound.drop_held (h : l.Sound) {g : Guard} (hg : g ∈ l.held) :
    (l.drop g.ticket (some g.lock)).Sound :=
  h.drop fun c hc hticket => by rw [h.claim_unique hc (mem_claims.mpr (.inl hg)) hticket]

theorem Sound.letGo (h : l.Sound) (ticket : Nat) : (l.letGo ticket).Sound := by
  rw [Keyed.letGo]
  split
  · rename_i g hfound
    obtain ⟨hg, rfl⟩ := h.find?_held.mp hfound
    exact (h.drop_held hg).tidy g.key
  · exact h

/-- What may happen next, in any order: a request is made, looks at its lock, or gives up, or a
holder lets go. Whoever it is about, is known by the ticket. -/
inductive Event where
  | request (id key : String)
  | poll (ticket : Nat)
  | giveUp (ticket : Nat)
  | letGo (ticket : Nat)
deriving Repr, DecidableEq

/-- What an event makes of the locks. -/
def act (l : Keyed) : Event → Keyed
  | .request id key => l.request id key
  | .poll ticket => l.poll ticket
  | .giveUp ticket => l.giveUp ticket
  | .letGo ticket => l.letGo ticket

/-- The locks after some events. -/
def run (events : List Event) : Keyed :=
  events.foldl act {}

theorem Sound.act (h : l.Sound) (e : Event) : (l.act e).Sound := by
  cases e with
  | request id key => exact h.request id key
  | poll ticket => exact h.poll ticket
  | giveUp ticket => exact h.giveUp ticket
  | letGo ticket => exact h.letGo ticket

theorem Sound.foldl_act (h : l.Sound) (events : List Event) :
    (events.foldl Keyed.act l).Sound := by
  induction events generalizing l with
  | nil => exact h
  | cons e events ih => exact ih (h.act e)

theorem sound_run (events : List Event) : (run events).Sound :=
  sound_empty.foldl_act events

/-- **No key has two holders**: they would hold the one lock that the key leads to, and a lock has
one first in line. -/
theorem Sound.nodup_held_keys (h : l.Sound) : (l.held.map (·.key)).Nodup := by
  refine List.Nodup.map_on ?_ (List.nodup_append.mp h.distinct).1.of_map
  intro g hg g' hg' hkey
  have hclaim : g ∈ l.claims := mem_claims.mpr (.inl hg)
  have hclaim' : g' ∈ l.claims := mem_claims.mpr (.inl hg')
  have hlock : g.lock = g'.lock :=
    h.entry_unique (h.entered g hclaim) (hkey ▸ h.entered g' hclaim')
  refine h.claim_unique hclaim hclaim' (Option.some.inj ?_)
  rw [← h.first g hg, ← h.first g' hg', hlock]

end Keyed

end SharedMemos.Lock
