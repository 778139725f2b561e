import SharedMemos.Proofs.Lock.Entries

/-!
# Locks by key are fair

After each move of a caller every waiting request looks at its lock once, in order. Then the locks
are settled: a request that waits is not the first in line, and so the first in line is a holder.

What becomes of a key is therefore told by one queue. Its first is the holder, and the others wait
in the order in which they asked. Who asks goes to its end, who gives up leaves it from behind the
first, and the first leaves it by letting go. There are as many of these queues as there are keys,
and none of them depends on another.

Looking does not change the queue, it only makes a holder of whoever is first. So the queue is
followed through what callers do, and looking comes in once, where locks become settled.

## Main results

* `Keyed.Settled` — what holds of locks by key when every request has looked
* `Keyed.Settled.move` — what a move makes of the queue of a key
* `Keyed.fair_after` — the law of the queue, for any run of moves
-/

namespace SharedMemos.Lock

/-- The ticket and the name. -/
def Guard.mark (g : Guard) : Nat × String :=
  (g.ticket, g.id)

/-- The ticket and the name. -/
def Request.mark (r : Request) : Nat × String :=
  (r.ticket, r.id)

namespace Keyed

variable {l l' : Keyed} {ticket lock : Nat} {key : String}

/-- The holder of the lock of a key, and those who wait for it, in order. -/
def queue (l : Keyed) (key : String) : List Guard :=
  l.claims.filter (·.key == key)

theorem mem_queue {c : Guard} : c ∈ l.queue key ↔ c ∈ l.claims ∧ c.key = key := by
  simp [queue]

/-- Every request stands in line, and the lines are those of the queues. -/
structure Lined (l : Keyed) : Prop extends l.Sound where
  looked : ∀ r ∈ l.waiting, r.lock ≠ none
  ordered : ∀ e ∈ l.entries, l.line e.2 = (l.queue e.1).map (·.ticket)
  used : ∀ key, ¬ l.Stale key

/-- Every request has looked: who waits is not the first in line. -/
structure Settled (l : Keyed) : Prop extends l.Lined where
  turn : ∀ c ∈ l.awaited, (l.line c.lock).head? ≠ some c.ticket

theorem settled_empty : Settled {} where
  toSound := sound_empty
  looked := by simp
  ordered := by simp
  used := by simp [Stale, tracked]
  turn := by simp [awaited]

/-! ### The queue and its line -/

theorem Lined.line_of_claim (h : l.Lined) {c : Guard} (hc : c ∈ l.claims) :
    l.line c.lock = (l.queue c.key).map (·.ticket) :=
  h.ordered _ (h.entered c hc)

theorem Lined.queue_ne_nil (h : l.Lined) (hkey : key ∈ l.tracked) : l.queue key ≠ [] := by
  intro hnil
  refine h.used key ⟨hkey, fun c hc hckey => ?_⟩
  have hmem : c ∈ l.queue key := mem_queue.mpr ⟨hc, hckey⟩
  rw [hnil] at hmem
  cases hmem

/-- The tickets of those with a claim are distinct. -/
theorem Sound.nodup_claims (h : l.Sound) : (l.claims.map (·.ticket)).Nodup := by
  refine h.distinct.sublist ?_
  rw [claims, List.map_append, tickets]
  refine List.Sublist.append_left ?_ _
  rw [awaited]
  induction l.waiting with
  | nil => exact List.Sublist.refl _
  | cons r rs ih =>
    cases hlock : r.lock with
    | none =>
      rw [List.filterMap_cons_none (by rw [Request.claim?, hlock]; rfl)]
      exact ih.cons _
    | some lock =>
      have hclaim : r.claim? = some (r.claim lock) := by rw [Request.claim?, hlock]; rfl
      rw [List.filterMap_cons_some hclaim]
      exact ih.cons_cons _

/-! ### Looking -/

/-- Whose turn it is, is the first in the queue. -/
theorem Lined.queue_of_turn (h : l.Lined) {c : Guard} (hc : c ∈ l.claims)
    (hturn : (l.line c.lock).head? = some c.ticket) :
    ∃ rest, l.queue c.key = c :: rest ∧ ∀ c' ∈ rest, c'.ticket ≠ c.ticket := by
  rw [h.line_of_claim hc] at hturn
  have hnodup : ((l.queue c.key).map (·.ticket)).Nodup :=
    h.nodup_claims.sublist (List.filter_sublist.map _)
  cases hqueue : l.queue c.key with
  | nil =>
    rw [hqueue] at hturn
    cases hturn
  | cons first rest =>
    rw [hqueue] at hturn hnodup
    have hmem : first ∈ l.claims := (mem_queue.mp (hqueue ▸ List.mem_cons_self)).1
    obtain rfl := h.claim_unique hmem hc (Option.some.inj hturn)
    refine ⟨rest, rfl, fun c' hc' hsame => ?_⟩
    exact (List.nodup_cons.mp hnodup).1 (List.mem_map.mpr ⟨c', hc', hsame⟩)

/-- Becoming a holder keeps the place in the queue: it was the first one. -/
theorem Lined.queue_take (h : l.Lined) {c : Guard} (hc : c ∈ l.awaited) (key : String) :
    (l.take c).queue key = l.queue key := by
  have hclaim : c ∈ l.claims := mem_claims.mpr (.inr hc)
  rw [take]
  split
  · rename_i hturn
    rw [queue, claims, awaited, awaited_filter, List.filter_append, List.filter_append,
      List.filter_comm]
    by_cases hkey : c.key = key
    · subst hkey
      obtain ⟨rest, hqueue, hrest⟩ := h.queue_of_turn hclaim hturn
      have hparts : l.held.filter (·.key == c.key) ++ l.awaited.filter (·.key == c.key)
          = c :: rest := by
        rw [← List.filter_append]
        exact hqueue
      have hheld : l.held.filter (·.key == c.key) = [] := by
        cases hheld : l.held.filter (·.key == c.key) with
        | nil => rfl
        | cons g gs =>
          rw [hheld] at hparts
          cases hparts
          have hmem : c ∈ l.held := (List.mem_filter.mp (hheld ▸ List.mem_cons_self)).1
          exact absurd hmem (h.not_held_of_awaited hc)
      rw [hheld, List.nil_append] at hparts
      have hstays : rest.filter (·.ticket != c.ticket) = rest :=
        List.filter_eq_self.mpr fun c' hc' => bne_iff_ne.mpr (hrest c' hc')
      simp [hheld, hparts, hstays, hqueue]
    · have hstays : (l.awaited.filter (·.key == key)).filter (·.ticket != c.ticket)
          = l.awaited.filter (·.key == key) := by
        refine List.filter_eq_self.mpr fun c' hc' => bne_iff_ne.mpr fun hsame => hkey ?_
        obtain ⟨hmem, hckey⟩ := List.mem_filter.mp hc'
        rw [← h.claim_unique (mem_claims.mpr (.inr hmem)) hclaim hsame]
        exact eq_of_beq hckey
      have hnone : [c].filter (·.key == key) = [] := by simp [hkey]
      rw [hnone, hstays, List.append_nil, queue, claims, List.filter_append]
  · rfl

theorem Lined.take (h : l.Lined) {c : Guard} (hc : c ∈ l.awaited) : (l.take c).Lined where
  toSound := h.toSound.take hc
  looked := by
    rw [Keyed.take]
    split
    · exact fun r hr => h.looked r (List.mem_filter.mp hr).1
    · exact h.looked
  ordered := by
    intro e he
    rw [h.queue_take hc]
    rw [Keyed.take] at he ⊢
    split at he <;> rename_i hturn
    · rw [if_pos hturn]
      exact h.ordered e he
    · rw [if_neg hturn]
      exact h.ordered e he
  used := by
    intro key hstale
    refine h.used key ⟨by simpa using hstale.1, fun c' hc' => hstale.2 c' ?_⟩
    exact (h.mem_claims_take hc).mpr hc'

/-- The locks are as before, and the queues too; some of those who waited hold locks now. -/
structure Progress (l l' : Keyed) : Prop where
  lined : l'.Lined
  entries : l'.entries = l.entries
  lines : l'.lines = l.lines
  made : l'.made = l.made
  queue : ∀ key, l'.queue key = l.queue key
  awaited : ∀ c ∈ l'.awaited, c ∈ l.awaited

theorem Lined.progress (h : l.Lined) : l.Progress l :=
  ⟨h, rfl, rfl, rfl, fun _ => rfl, fun _ => id⟩

theorem Progress.trans {l'' : Keyed} (h : l.Progress l') (h' : l'.Progress l'') :
    l.Progress l'' where
  lined := h'.lined
  entries := h'.entries.trans h.entries
  lines := h'.lines.trans h.lines
  made := h'.made.trans h.made
  queue key := (h'.queue key).trans (h.queue key)
  awaited c hc := h.awaited c (h'.awaited c hc)

theorem Lined.progress_take (h : l.Lined) {c : Guard} (hc : c ∈ l.awaited) :
    l.Progress (l.take c) where
  lined := h.take hc
  entries := by
    rw [Keyed.take]
    split <;> rfl
  lines := by
    rw [Keyed.take]
    split <;> rfl
  made := by
    rw [Keyed.take]
    split <;> rfl
  queue := h.queue_take hc
  awaited := by
    rw [Keyed.take]
    split
    · intro c' hc'
      rw [Keyed.awaited, awaited_filter] at hc'
      exact (List.mem_filter.mp hc').1
    · exact fun _ => id

/-- Who has looked and still waits, is not the first in line. -/
theorem not_turn_of_awaited_take {c c' : Guard} (hc' : c' ∈ (l.take c).awaited)
    (hsame : c'.ticket = c.ticket) (hlock : c'.lock = c.lock) :
    ((l.take c).line c'.lock).head? ≠ some c'.ticket := by
  rw [take] at hc' ⊢
  split at hc' <;> rename_i hturn
  · rw [awaited, awaited_filter] at hc'
    exact absurd hsame (bne_iff_ne.mp (List.mem_filter.mp hc').2)
  · rw [if_neg hturn, hsame, hlock]
    exact hturn

/-- A poll of one who has looked already: he is no longer both waiting and first in line. -/
theorem Lined.poll (h : l.Lined) (ticket : Nat) :
    l.Progress (l.poll ticket) ∧ ∀ c ∈ (l.poll ticket).awaited, c.ticket = ticket →
      ((l.poll ticket).line c.lock).head? ≠ some c.ticket := by
  rw [Keyed.poll]
  split
  · rename_i r hfound
    obtain ⟨hr, rfl⟩ := h.find?_waiting.mp hfound
    obtain ⟨lock, hlock⟩ := Option.ne_none_iff_exists'.mp (h.looked r hr)
    have hclaim := mem_awaited_of_waiting hr hlock
    have hprogress := h.progress_take hclaim
    rw [look_of_looked hlock]
    refine ⟨hprogress, fun c hc hsame => ?_⟩
    have hc' : c ∈ l.claims := mem_claims.mpr (.inr (hprogress.awaited c hc))
    obtain rfl := h.claim_unique hc' (mem_claims.mpr (.inr hclaim)) hsame
    exact not_turn_of_awaited_take hc rfl rfl
  · rename_i hnone
    refine ⟨h.progress, fun c hc hsame => ?_⟩
    obtain ⟨r, hr, lock, -, rfl⟩ := mem_awaited.mp hc
    exact absurd (beq_iff_eq.mpr hsame) (List.find?_eq_none.mp hnone r hr)

theorem Lined.foldl_poll (h : l.Lined) (tickets : List Nat) :
    l.Progress (tickets.foldl Keyed.poll l) ∧ ∀ c ∈ (tickets.foldl Keyed.poll l).awaited,
      c.ticket ∈ tickets → ((tickets.foldl Keyed.poll l).line c.lock).head? ≠ some c.ticket := by
  induction tickets generalizing l with
  | nil => exact ⟨h.progress, by simp⟩
  | cons ticket tickets ih =>
    obtain ⟨hfirst, hturn⟩ := h.poll ticket
    obtain ⟨hrest, hturns⟩ := ih hfirst.lined
    refine ⟨hfirst.trans hrest, fun c hc hmem => ?_⟩
    rcases List.mem_cons.mp hmem with hsame | hmem
    · have hline := hturn c (hrest.awaited c hc) hsame
      rwa [line, ← hrest.lines] at hline
    · exact hturns c hc hmem

/-- Once every request has looked, the locks are settled, and the queues are as before. -/
theorem Lined.pollAll (h : l.Lined) :
    l.pollAll.Settled ∧ l.pollAll.made = l.made ∧ ∀ key, l.pollAll.queue key = l.queue key := by
  obtain ⟨hprogress, hturns⟩ := h.foldl_poll (l.waiting.map (·.ticket))
  refine ⟨⟨hprogress.lined, fun c hc => hturns c hc ?_⟩, hprogress.made, hprogress.queue⟩
  obtain ⟨r, hr, lock, -, rfl⟩ := mem_awaited.mp (hprogress.awaited c hc)
  exact List.mem_map.mpr ⟨r, hr, rfl⟩

/-! ### Leaving -/

theorem queue_drop (l : Keyed) (ticket : Nat) (lock : Option Nat) (key : String) :
    (l.drop ticket lock).queue key = (l.queue key).filter (·.ticket != ticket) := by
  rw [queue, claims_drop, List.filter_comm, queue]

theorem queue_tidy (l : Keyed) (key key' : String) : (l.tidy key).queue key' = l.queue key' := by
  rw [queue, claims_tidy, queue]

theorem filter_queue_of_none (h : ∀ c ∈ l.claims, c.ticket ≠ ticket) (key : String) :
    (l.queue key).filter (·.ticket != ticket) = l.queue key :=
  List.filter_eq_self.mpr fun c hc => bne_iff_ne.mpr (h c (mem_queue.mp hc).1)

theorem Lined.ordered_drop (h : l.Lined) {lock : Option Nat}
    (hlock : ∀ c ∈ l.claims, c.ticket = ticket → lock = some c.lock) :
    ∀ e ∈ l.entries, (l.drop ticket lock).line e.2
      = ((l.drop ticket lock).queue e.1).map (·.ticket) := by
  intro e he
  rw [h.line_drop hlock, queue_drop, h.ordered e he, List.filter_map]
  rfl

/-- Every key in use has a holder. -/
def Manned (l : Keyed) : Prop :=
  ∀ key ∈ l.tracked, ∃ g ∈ l.held, g.key = key

/-- One leaves his queue, and everybody else stays. -/
structure Leaves (ticket : Nat) (l l' : Keyed) : Prop where
  lined : l'.Lined
  made : l'.made = l.made
  queue : ∀ key, l'.queue key = (l.queue key).filter (·.ticket != ticket)

theorem Lined.leaves_of_none (h : l.Lined) (hnone : ∀ c ∈ l.claims, c.ticket ≠ ticket) :
    Leaves ticket l l :=
  ⟨h, rfl, fun key => (filter_queue_of_none hnone key).symm⟩

/-- Whoever does not hold his lock can leave. -/
theorem Lined.giveUp (h : l.Lined) (hmanned : l.Manned)
    (hticket : ∀ g ∈ l.held, g.ticket ≠ ticket) :
    Leaves ticket l (l.giveUp ticket) ∧ (l.giveUp ticket).held = l.held ∧
      (l.giveUp ticket).tracked = l.tracked := by
  rw [Keyed.giveUp]
  split
  · rename_i r hfound
    obtain ⟨hr, rfl⟩ := h.find?_waiting.mp hfound
    have hlock : ∀ c ∈ l.claims, c.ticket = r.ticket → r.lock = some c.lock := fun c hc hsame =>
      h.lock_of_claim hr hc hsame
    have hheld : l.held.filter (·.ticket != r.ticket) = l.held :=
      List.filter_eq_self.mpr fun g hg => bne_iff_ne.mpr (hticket g hg)
    refine ⟨⟨?_, rfl, queue_drop l r.ticket r.lock⟩, hheld, rfl⟩
    refine ⟨h.toSound.drop hlock, fun q hq => h.looked q (List.mem_filter.mp hq).1,
      h.ordered_drop hlock, ?_⟩
    rintro key ⟨hkey, hnobody⟩
    obtain ⟨g, hg, hgkey⟩ := hmanned key hkey
    rw [← hheld] at hg
    exact hnobody g (mem_claims.mpr (.inl hg)) hgkey
  · rename_i hnone
    refine ⟨h.leaves_of_none fun c hc => ?_, rfl, rfl⟩
    rcases mem_claims.mp hc with hheld | hawaited
    · exact hticket c hheld
    · obtain ⟨r, hr, lock, -, rfl⟩ := mem_awaited.mp hawaited
      exact fun hsame => List.find?_eq_none.mp hnone r hr (beq_iff_eq.mpr hsame)

theorem mem_entries_of_tidy {e : String × Nat} (he : e ∈ (l.tidy key).entries) :
    e ∈ l.entries := by
  rw [tidy] at he
  split at he
  · split at he
    · exact he
    · exact (List.mem_filter.mp he).1
  · exact he

@[simp] theorem waiting_tidy (l : Keyed) (key : String) : (l.tidy key).waiting = l.waiting := by
  rw [tidy]
  split
  · split <;> rfl
  · rfl

@[simp] theorem line_tidy (l : Keyed) (key : String) (lock : Nat) :
    (l.tidy key).line lock = l.line lock := by
  rw [tidy]
  split
  · split <;> rfl
  · rfl

@[simp] theorem made_tidy (l : Keyed) (key : String) : (l.tidy key).made = l.made := by
  rw [tidy]
  split
  · split <;> rfl
  · rfl

/-- Whoever does not wait for his lock can leave. -/
theorem Lined.letGo (h : l.Lined) (hticket : ∀ r ∈ l.waiting, r.ticket ≠ ticket) :
    Leaves ticket l (l.letGo ticket) ∧ (l.letGo ticket).waiting = l.waiting := by
  have hsound := h.toSound.letGo ticket
  have hused : ∀ key, ¬ (l.letGo ticket).Stale key := fun key hstale =>
    h.used key ((stale_letGo_iff h.toSound ticket).mp hstale)
  cases hfound : l.held.find? (·.ticket == ticket) with
  | some g =>
    have hletGo : l.letGo ticket = (l.drop ticket (some g.lock)).tidy g.key := by
      rw [Keyed.letGo, hfound]
    rw [hletGo] at hsound hused ⊢
    obtain ⟨hg, rfl⟩ := h.find?_held.mp hfound
    have hlock : ∀ c ∈ l.claims, c.ticket = g.ticket → some g.lock = some c.lock :=
      fun c hc hsame => by rw [h.claim_unique hc (mem_claims.mpr (.inl hg)) hsame]
    have hwaiting : l.waiting.filter (·.ticket != g.ticket) = l.waiting :=
      List.filter_eq_self.mpr fun r hr => bne_iff_ne.mpr (hticket r hr)
    refine ⟨⟨⟨hsound, ?_, ?_, hused⟩, made_tidy _ _, ?_⟩, (waiting_tidy _ _).trans hwaiting⟩
    · intro r hr
      rw [waiting_tidy] at hr
      exact h.looked r (List.mem_filter.mp hr).1
    · intro e he
      rw [line_tidy, queue_tidy]
      have hentry := mem_entries_of_tidy he
      exact h.ordered_drop hlock e hentry
    · intro key
      rw [queue_tidy, queue_drop]
  | none =>
    have hletGo : l.letGo ticket = l := by rw [Keyed.letGo, hfound]
    rw [hletGo]
    refine ⟨h.leaves_of_none fun c hc => ?_, rfl⟩
    rcases mem_claims.mp hc with hheld | hawaited
    · exact fun hsame => List.find?_eq_none.mp hfound c hheld (beq_iff_eq.mpr hsame)
    · obtain ⟨r, hr, lock, -, rfl⟩ := mem_awaited.mp hawaited
      exact hticket r hr

/-- Several leave, one after the other. -/
theorem Lined.foldl_leave {step : Keyed → Nat → Keyed} {P : Keyed → Prop} {tickets : List Nat}
    (h : l.Lined) (hstep : ∀ l : Keyed, l.Lined → P l → ∀ ticket ∈ tickets,
      Leaves ticket l (step l ticket) ∧ P (step l ticket)) (hl : P l) :
    (tickets.foldl step l).Lined ∧ (tickets.foldl step l).made = l.made ∧
      ∀ key, (tickets.foldl step l).queue key
        = (l.queue key).filter (!tickets.contains ·.ticket) := by
  induction tickets generalizing l with
  | nil => exact ⟨h, rfl, fun key => (List.filter_eq_self.mpr fun _ _ => rfl).symm⟩
  | cons ticket tickets ih =>
    obtain ⟨hfirst, hl⟩ := hstep l h hl ticket List.mem_cons_self
    obtain ⟨hrest, hmade, hqueue⟩ :=
      ih hfirst.lined (fun l h hl t ht => hstep l h hl t (List.mem_cons_of_mem _ ht)) hl
    refine ⟨hrest, hmade.trans hfirst.made, fun key => (hqueue key).trans ?_⟩
    rw [hfirst.queue, List.filter_filter]
    refine List.filter_congr fun c _ => ?_
    rw [List.contains_cons, Bool.not_or, Bool.and_comm]
    rfl

/-! ### Moves -/

/-- What a caller does: he asks for the lock of a key, or takes back a request, or lets go. -/
inductive Move where
  | lock (id key : String)
  | cancel (id : String)
  | release (id : String)
deriving Repr, DecidableEq

/-- What a move makes of the locks. Then every request that waits looks at its lock once. -/
def move (l : Keyed) (m : Move) : Keyed :=
  match m with
  | .lock id key => (l.request id key).pollAll
  | .cancel id => (l.cancel id).pollAll
  | .release id => (l.release id).pollAll

/-- The locks after some moves. -/
def after (moves : List Move) : Keyed :=
  moves.foldl move {}

/-- The ticket of the next request after the move. -/
def Move.next (made : Nat) : Move → Nat
  | .lock _ _ => made + 1
  | _ => made

/-- What a move makes of the queue of a key: who asks goes to its end, who gives up leaves it from
behind the first, and the first leaves it by letting go. -/
def Move.change (key : String) (made : Nat) (m : Move) (q : List (Nat × String)) :
    List (Nat × String) :=
  match m with
  | .lock id key' => if key' = key then q ++ [(made, id)] else q
  | .cancel id => q.take 1 ++ (q.drop 1).filter (·.2 != id)
  | .release id => (q.take 1).filter (·.2 != id) ++ q.drop 1

/-- Where the locks are settled, the first in the queue holds the lock and the others wait. -/
theorem Settled.queue_cases (h : l.Settled) (key : String) :
    l.queue key = [] ∧ l.held.filter (·.key == key) = [] ∧ l.awaited.filter (·.key == key) = [] ∨
      ∃ g, l.held.filter (·.key == key) = [g] ∧
        l.queue key = g :: l.awaited.filter (·.key == key) := by
  have hparts : l.queue key = l.held.filter (·.key == key) ++ l.awaited.filter (·.key == key) :=
    List.filter_append ..
  cases hheld : l.held.filter (·.key == key) with
  | nil =>
    rw [hheld, List.nil_append] at hparts
    cases hawaited : l.awaited.filter (·.key == key) with
    | nil => exact .inl ⟨hparts.trans hawaited, rfl, rfl⟩
    | cons c cs =>
      -- a request that is the first in line would hold the lock
      obtain ⟨hc, hkey⟩ := List.mem_filter.mp (hawaited.symm ▸ List.mem_cons_self : c ∈ _)
      have hline := h.line_of_claim (mem_claims.mpr (.inr hc))
      rw [eq_of_beq hkey, hparts, hawaited] at hline
      exact absurd (by rw [hline]; rfl) (h.turn c hc)
  | cons g gs =>
    cases gs with
    | nil => exact .inr ⟨g, rfl, by rw [hparts, hheld]; rfl⟩
    | cons g' gs =>
      have hnodup : ((l.held.filter (·.key == key)).map (·.key)).Nodup :=
        h.nodup_held_keys.sublist (List.filter_sublist.map _)
      have hmem : ∀ x ∈ [g, g'], x.key = key := by
        intro x hx
        have hx' : x ∈ l.held.filter (·.key == key) := by
          rw [hheld]
          exact List.mem_of_mem_take (i := 2) hx
        exact eq_of_beq (List.mem_filter.mp hx').2
      rw [hheld, List.map_cons, List.map_cons, hmem g (by simp), hmem g' (by simp)] at hnodup
      simp at hnodup

theorem Settled.manned (h : l.Settled) : l.Manned := by
  intro key hkey
  rcases h.queue_cases key with ⟨hnil, -, -⟩ | ⟨g, hheld, -⟩
  · exact absurd hnil (h.queue_ne_nil hkey)
  · obtain ⟨hg, hgkey⟩ := List.mem_filter.mp (hheld.symm ▸ List.mem_singleton_self g)
    exact ⟨g, hg, eq_of_beq hgkey⟩

/-- Names tell which of the waiting requests have the tickets that are picked by name. -/
theorem Sound.contains_awaited (h : l.Sound) (id : String) {c : Guard} (hc : c ∈ l.awaited) :
    ((l.waiting.filter (·.id == id)).map (·.ticket)).contains c.ticket = (c.id == id) := by
  obtain ⟨r, hr, lock, -, rfl⟩ := mem_awaited.mp hc
  rw [Bool.eq_iff_iff, List.contains_iff_mem, List.mem_map]
  constructor
  · rintro ⟨q, hq, hticket⟩
    obtain ⟨hq, hid⟩ := List.mem_filter.mp hq
    rwa [h.waiting_unique hq hr hticket] at hid
  · intro hid
    exact ⟨r, List.mem_filter.mpr ⟨hr, hid⟩, rfl⟩

/-- The same of the holders. -/
theorem Sound.contains_held (h : l.Sound) (id : String) {g : Guard} (hg : g ∈ l.held) :
    ((l.held.filter (·.id == id)).map (·.ticket)).contains g.ticket = (g.id == id) := by
  rw [Bool.eq_iff_iff, List.contains_iff_mem, List.mem_map]
  constructor
  · rintro ⟨g', hg', hticket⟩
    obtain ⟨hg', hid⟩ := List.mem_filter.mp hg'
    rwa [h.claim_unique (mem_claims.mpr (.inl hg')) (mem_claims.mpr (.inl hg)) hticket] at hid
  · intro hid
    exact ⟨g, List.mem_filter.mpr ⟨hg, hid⟩, rfl⟩

theorem Sound.held_ne_waiting (h : l.Sound) {g : Guard} (hg : g ∈ l.held) {r : Request}
    (hr : r ∈ l.waiting) : g.ticket ≠ r.ticket :=
  (List.nodup_append.mp h.distinct).2.2 _ (List.mem_map_of_mem hg) _ (List.mem_map_of_mem hr)

/-- What a move makes of the locks, as it shows in their queues. -/
structure Moved (l : Keyed) (m : Move) (l' : Keyed) : Prop where
  settled : l'.Settled
  made : l'.made = m.next l.made
  queue : ∀ key, (l'.queue key).map Guard.mark
    = m.change key l.made ((l.queue key).map Guard.mark)

theorem Sound.not_contains_held (h : l.Sound) (id : String) {g : Guard} (hg : g ∈ l.held) :
    ((l.waiting.filter (·.id == id)).map (·.ticket)).contains g.ticket = false := by
  rw [Bool.eq_false_iff, ne_eq, List.contains_iff_mem, List.mem_map]
  rintro ⟨r, hr, hticket⟩
  exact h.held_ne_waiting hg (List.mem_filter.mp hr).1 hticket.symm

theorem Sound.not_contains_awaited (h : l.Sound) (id : String) {c : Guard} (hc : c ∈ l.awaited) :
    ((l.held.filter (·.id == id)).map (·.ticket)).contains c.ticket = false := by
  obtain ⟨r, hr, lock, -, rfl⟩ := mem_awaited.mp hc
  rw [Bool.eq_false_iff, ne_eq, List.contains_iff_mem, List.mem_map]
  rintro ⟨g, hg, hticket⟩
  exact h.held_ne_waiting (List.mem_filter.mp hg).1 hr hticket

/-- A move is settled by its last step, in which every request looks. -/
theorem moved_pollAll {m : Move} (h : l'.Lined) (hmade : l'.made = m.next l.made)
    (hqueue : ∀ key, (l'.queue key).map Guard.mark
      = m.change key l.made ((l.queue key).map Guard.mark)) : Moved l m l'.pollAll := by
  obtain ⟨hsettled, hmade', hqueue'⟩ := h.pollAll
  exact ⟨hsettled, hmade'.trans hmade, fun key => by rw [hqueue', hqueue]⟩

theorem Settled.move_cancel (h : l.Settled) (id : String) :
    Moved l (.cancel id) (l.move (.cancel id)) := by
  have hstep : ∀ l' : Keyed, l'.Lined → (l'.Manned ∧ l'.held = l.held) →
      ∀ ticket ∈ (l.waiting.filter (·.id == id)).map (·.ticket),
      Leaves ticket l' (l'.giveUp ticket) ∧
        (l'.giveUp ticket).Manned ∧ (l'.giveUp ticket).held = l.held := by
    rintro l' hlined ⟨hmanned, hheld⟩ ticket hticket
    obtain ⟨r, hr, rfl⟩ := List.mem_map.mp hticket
    have hnot : ∀ g ∈ l'.held, g.ticket ≠ r.ticket := fun g hg =>
      h.held_ne_waiting (hheld ▸ hg) (List.mem_filter.mp hr).1
    obtain ⟨hleaves, hheld', htracked'⟩ := hlined.giveUp hmanned hnot
    refine ⟨hleaves, ?_, hheld'.trans hheld⟩
    rw [Manned, htracked', hheld']
    exact hmanned
  obtain ⟨hlined, hmade, hqueue⟩ := h.foldl_leave hstep ⟨h.manned, rfl⟩
  refine moved_pollAll hlined hmade fun key => ?_
  rw [Keyed.cancel, hqueue]
  rcases h.queue_cases key with ⟨hnil, -, -⟩ | ⟨g, hheld, hsome⟩
  · rw [hnil]
    rfl
  · obtain ⟨hg, -⟩ := List.mem_filter.mp (hheld.symm ▸ List.mem_singleton_self g)
    have hwait : (l.awaited.filter (·.key == key)).filter
        (!((l.waiting.filter (·.id == id)).map (·.ticket)).contains ·.ticket)
        = (l.awaited.filter (·.key == key)).filter (·.id != id) :=
      List.filter_congr fun c hc => by
        rw [h.contains_awaited id (List.mem_filter.mp hc).1]
        rfl
    rw [hsome, List.filter_cons_of_pos (by rw [h.not_contains_held id hg]; rfl), hwait]
    simp [Move.change, List.filter_map, Guard.mark, Function.comp_def]

theorem Settled.move_release (h : l.Settled) (id : String) :
    Moved l (.release id) (l.move (.release id)) := by
  have hstep : ∀ l' : Keyed, l'.Lined → l'.waiting = l.waiting →
      ∀ ticket ∈ (l.held.filter (·.id == id)).map (·.ticket),
      Leaves ticket l' (l'.letGo ticket) ∧ (l'.letGo ticket).waiting = l.waiting := by
    intro l' hlined hwaiting ticket hticket
    obtain ⟨g, hg, rfl⟩ := List.mem_map.mp hticket
    have hnot : ∀ r ∈ l'.waiting, r.ticket ≠ g.ticket := fun r hr =>
      (h.held_ne_waiting (List.mem_filter.mp hg).1 (hwaiting ▸ hr)).symm
    obtain ⟨hleaves, hwaiting'⟩ := hlined.letGo hnot
    exact ⟨hleaves, hwaiting'.trans hwaiting⟩
  obtain ⟨hlined, hmade, hqueue⟩ := h.foldl_leave hstep rfl
  refine moved_pollAll hlined hmade fun key => ?_
  rw [Keyed.release, hqueue]
  rcases h.queue_cases key with ⟨hnil, -, -⟩ | ⟨g, hheld, hsome⟩
  · rw [hnil]
    rfl
  · obtain ⟨hg, -⟩ := List.mem_filter.mp (hheld.symm ▸ List.mem_singleton_self g)
    have hwait : (l.awaited.filter (·.key == key)).filter
        (!((l.held.filter (·.id == id)).map (·.ticket)).contains ·.ticket)
        = l.awaited.filter (·.key == key) :=
      List.filter_eq_self.mpr fun c hc => by
        rw [h.not_contains_awaited id (List.mem_filter.mp hc).1]
        rfl
    rw [hsome, List.filter_cons, h.contains_held id hg, hwait]
    cases hid : g.id == id <;> simp [Move.change, Guard.mark, hid, bne]

/-! ### Asking for a lock -/

/-- Who waits and has looked, looks in vain while a new request is made. -/
theorem Settled.poll_request (h : l.Settled) (id key : String) {r : Request} (hr : r ∈ l.waiting) :
    (l.request id key).poll r.ticket = l.request id key := by
  have hfound : (l.request id key).waiting.find? (·.ticket == r.ticket) = some r :=
    (h.toSound.request id key).find?_waiting.mpr ⟨List.mem_append_left _ hr, rfl⟩
  obtain ⟨lock, hlock⟩ := Option.ne_none_iff_exists'.mp (h.looked r hr)
  rw [poll, hfound]
  simp only [look_of_looked hlock]
  rw [take, line_request, if_neg (h.turn _ (mem_awaited_of_waiting hr hlock))]

/-- So when all look, only the new request does something. -/
theorem Settled.pollAll_request (h : l.Settled) (id key : String) :
    (l.request id key).pollAll
      = (((l.request id key).enter key).join l.made ((l.request id key).lockOf key)).take
        ⟨l.made, id, key, (l.request id key).lockOf key⟩ := by
  have hvain : ∀ tickets : List Nat, (∀ ticket ∈ tickets, ∃ r ∈ l.waiting, r.ticket = ticket) →
      tickets.foldl poll (l.request id key) = l.request id key := by
    intro tickets htickets
    induction tickets with
    | nil => rfl
    | cons ticket tickets ih =>
      obtain ⟨r, hr, rfl⟩ := htickets ticket List.mem_cons_self
      rw [List.foldl_cons, h.poll_request id key hr]
      exact ih fun t ht => htickets t (List.mem_cons_of_mem _ ht)
  have hfound : (l.request id key).waiting.find? (·.ticket == l.made)
      = some ⟨l.made, id, key, none⟩ :=
    (h.toSound.request id key).find?_waiting.mpr ⟨List.mem_append_right _ (by simp), rfl⟩
  have htickets : (l.request id key).waiting.map (·.ticket)
      = l.waiting.map (·.ticket) ++ [l.made] := by simp [Keyed.request]
  rw [pollAll, htickets, List.foldl_append, hvain _ fun t ht => List.mem_map.mp ht]
  rw [List.foldl_cons, List.foldl_nil, poll, hfound]
  rfl

/-- The lock of a key has the line of its queue, also if it is still to be made. -/
theorem Lined.line_lockOf (h : l.Lined) (key : String) :
    l.line (l.lockOf key) = (l.queue key).map (·.ticket) := by
  cases hlock : l.lock? key with
  | some lock =>
    rw [lockOf, hlock]
    exact h.ordered _ ((lock?_eq_some_iff h.toSound).mp hlock)
  | none =>
    have hqueue : l.queue key = [] := by
      rw [List.eq_nil_iff_forall_not_mem]
      intro c hc
      obtain ⟨hclaim, rfl⟩ := mem_queue.mp hc
      exact lock?_eq_none_iff.mp hlock (mem_tracked_of_claim h.toSound hclaim)
    rw [lockOf, hlock, hqueue, line, List.getD_eq_getElem?_getD]
    simp

theorem mem_entries_enter {e : String × Nat} (he : e ∈ (l.enter key).entries) :
    e ∈ l.entries ∨ e = (key, l.lockOf key) := by
  rw [enter] at he
  split at he
  · exact .inl he
  · rename_i hnone
    rcases List.mem_append.mp he with hold | hnew
    · exact .inl hold
    · rw [lockOf, hnone]
      exact .inr (List.mem_singleton.mp hnew)

section Asking

variable (id key : String)

/-- The locks when a new request has joined its line, and has not become a holder yet. -/
def joined (l : Keyed) : Keyed :=
  ((l.request id key).enter key).join l.made (l.lockOf key)

/-- What the new request stands in line for. -/
def newest (l : Keyed) : Guard :=
  ⟨l.made, id, key, l.lockOf key⟩

theorem Sound.waiting_joined (h : l.Sound) : (l.joined id key).waiting
    = l.waiting ++ [⟨l.made, id, key, some (l.lockOf key)⟩] := by
  have hold : l.waiting.map (fun q => if q.ticket = l.made
      then { q with lock := some (l.lockOf key) } else q) = l.waiting :=
    (List.map_congr_left fun q hq =>
      if_neg (Nat.ne_of_lt (h.made _ (mem_tickets_of_waiting hq)))).trans (List.map_id' _)
  rw [Keyed.joined, Keyed.join, waiting_enter, Keyed.request, List.map_append, hold]
  simp

theorem held_joined (l : Keyed) : (l.joined id key).held = l.held := by
  rw [joined, join, held_enter]
  rfl

theorem Sound.awaited_joined (h : l.Sound) :
    (l.joined id key).awaited = l.awaited ++ [l.newest id key] := by
  rw [awaited, h.waiting_joined, List.filterMap_append]
  rfl

/-- The new request is at the end of its queue. -/
theorem Sound.queue_joined (h : l.Sound) (key' : String) : (l.joined id key).queue key'
    = l.queue key' ++ if key = key' then [l.newest id key] else [] := by
  rw [queue, claims, h.awaited_joined, held_joined, ← List.append_assoc, List.filter_append, queue,
    claims]
  congr 1
  by_cases hkey : key = key' <;> simp [newest, hkey]

theorem Settled.sound_joined (h : l.Settled) : (l.joined id key).Sound :=
  ((h.toSound.request id key).joined (List.mem_append_right _ (List.mem_singleton_self _)) rfl).1

theorem Settled.line_joined (h : l.Settled) (lock' : Nat) :
    (l.joined id key).line lock'
      = if l.lockOf key = lock' then l.line lock' ++ [l.made] else l.line lock' := by
  have hline := ((h.toSound.request id key).enter key).line_join
    ((h.toSound.request id key).lockOf_mem key) l.made lock'
  rwa [line_enter, line_request] at hline

theorem Settled.lined_joined (h : l.Settled) : (l.joined id key).Lined where
  toSound := h.sound_joined id key
  looked := by
    intro r hr
    rw [h.waiting_joined] at hr
    rcases List.mem_append.mp hr with hold | hnew
    · exact h.looked r hold
    · rw [List.mem_singleton.mp hnew]
      nofun
  ordered := by
    have hsound := (h.toSound.request id key).enter key
    have hentry : (key, l.lockOf key) ∈ ((l.request id key).enter key).entries :=
      (h.toSound.request id key).lockOf_mem key
    intro e he
    rw [h.line_joined, h.queue_joined]
    by_cases hlock : l.lockOf key = e.2
    · obtain rfl := hsound.apart _ hentry e he hlock
      rw [if_pos rfl, if_pos rfl, h.line_lockOf, List.map_append]
      rfl
    · have hkey : key ≠ e.1 := by
        rintro rfl
        exact hlock (hsound.entry_unique hentry he)
      rw [if_neg hlock, if_neg hkey, List.append_nil]
      rcases mem_entries_enter he with hold | rfl
      · exact h.ordered e hold
      · exact absurd rfl hkey
  used := by
    rintro key' ⟨htracked, hnobody⟩
    have hclaims : ∀ c, c ∈ l.claims ∨ c = l.newest id key → c ∈ (l.joined id key).claims := by
      rintro c (hc | rfl)
      · rw [claims, h.awaited_joined, held_joined, ← List.append_assoc]
        exact List.mem_append_left _ hc
      · exact mem_claims.mpr (.inr (by rw [h.awaited_joined]; simp))
    have hkey : key' ≠ key := fun hsame => hnobody _ (hclaims _ (.inr rfl)) hsame.symm
    refine h.used key' ⟨?_, fun c hc => hnobody c (hclaims c (.inl hc))⟩
    exact (mem_tracked_enter.mp htracked).resolve_right hkey

theorem Settled.move_lock (h : l.Settled) : Moved l (.lock id key) (l.move (.lock id key)) := by
  have hjoined := h.lined_joined id key
  have hnewest : l.newest id key ∈ (l.joined id key).awaited := by
    rw [h.awaited_joined]
    exact List.mem_append_right _ (List.mem_singleton_self _)
  have hmove : l.move (.lock id key) = (l.joined id key).take (l.newest id key) :=
    h.pollAll_request id key
  have hprogress := hjoined.progress_take hnewest
  rw [hmove]
  refine ⟨⟨hprogress.lined, fun c hc => ?_⟩, ?_, fun key' => ?_⟩
  · have hold := hprogress.awaited c hc
    rw [h.awaited_joined] at hold
    rcases List.mem_append.mp hold with hold | hnew
    · -- a line that has a first keeps it when the newest joins
      have hline : (l.joined id key).line c.lock = l.line c.lock ∨
          (l.joined id key).line c.lock = l.line c.lock ++ [l.made] := by
        rw [h.line_joined]
        split
        · exact .inr rfl
        · exact .inl rfl
      have hmem : c.ticket ∈ l.line c.lock :=
        (h.lined _ _).mpr ⟨c, mem_claims.mpr (.inr hold), rfl, rfl⟩
      obtain ⟨first, others, hfirst⟩ := List.exists_cons_of_ne_nil (List.ne_nil_of_mem hmem)
      have hturn := h.turn c hold
      rw [line, hprogress.lines, ← line]
      rcases hline with hline | hline <;> rw [hline, hfirst] <;> rwa [hfirst] at hturn
    · rw [List.mem_singleton.mp hnew] at hc ⊢
      exact not_turn_of_awaited_take hc rfl rfl
  · rw [hprogress.made, Keyed.joined, Keyed.join, made_enter]
    rfl
  · rw [hprogress.queue, h.queue_joined, List.map_append]
    by_cases hkey : key = key' <;> simp [Move.change, hkey, newest, Guard.mark]

end Asking

/-! ### Runs of moves -/

/-- **What a move makes of the queue of a key.** -/
theorem Settled.move (h : l.Settled) (m : Move) : Moved l m (l.move m) := by
  cases m with
  | lock id key => exact h.move_lock id key
  | cancel id => exact h.move_cancel id
  | release id => exact h.move_release id

/-- The tickets that were given out in some moves, and the queue of a key that they make. -/
def queueAfter (key : String) (moves : List Move) : Nat × List (Nat × String) :=
  moves.foldl (fun s m => (m.next s.1, m.change key s.1 s.2)) (0, [])

theorem settled_after (moves : List Move) :
    (after moves).Settled ∧ ∀ key,
      queueAfter key moves = ((after moves).made, ((after moves).queue key).map Guard.mark) := by
  induction moves using List.reverseRecOn with
  | nil => exact ⟨settled_empty, fun key => rfl⟩
  | append_singleton moves m ih =>
    obtain ⟨hsettled, hqueue⟩ := ih
    have hmoved := hsettled.move m
    have hafter : after (moves ++ [m]) = (after moves).move m := by
      rw [after, List.foldl_append]
      rfl
    rw [hafter]
    refine ⟨hmoved.settled, fun key => ?_⟩
    have hnext : queueAfter key (moves ++ [m])
        = (m.next (queueAfter key moves).1, m.change key (queueAfter key moves).1
          (queueAfter key moves).2) := by
      rw [queueAfter, List.foldl_append]
      rfl
    rw [hnext, hqueue, hmoved.made, hmoved.queue]

/-- Where all have looked, everybody who waits stands in line. -/
theorem map_filterMap_claim? {waiting : List Request} (h : ∀ r ∈ waiting, r.lock ≠ none)
    (key : String) : ((waiting.filterMap Request.claim?).filter (·.key == key)).map Guard.mark
      = (waiting.filter (·.key == key)).map Request.mark := by
  induction waiting with
  | nil => rfl
  | cons r rs ih =>
    obtain ⟨lock, hlock⟩ := Option.ne_none_iff_exists'.mp (h r List.mem_cons_self)
    have hclaim : r.claim? = some (r.claim lock) := by rw [Request.claim?, hlock]; rfl
    have hkey : (r.claim lock).key = r.key := rfl
    rw [List.filterMap_cons_some hclaim, List.filter_cons, List.filter_cons, hkey]
    split
    · rw [List.map_cons, List.map_cons, ih fun q hq => h q (List.mem_cons_of_mem _ hq)]
      rfl
    · exact ih fun q hq => h q (List.mem_cons_of_mem _ hq)

/-- A settled lock has a holder if somebody waits for it. -/
theorem Settled.exists_holder (h : l.Settled) {r : Request} (hr : r ∈ l.waiting) :
    ∃ g ∈ l.held, g.key = r.key := by
  obtain ⟨lock, hlock⟩ := Option.ne_none_iff_exists'.mp (h.looked r hr)
  have hclaim := mem_claims.mpr (.inr (mem_awaited_of_waiting hr hlock))
  exact h.manned _ (mem_tracked_of_claim h.toSound hclaim)

/-- The keys in use are those that somebody holds or waits for. -/
theorem Settled.mem_tracked_iff (h : l.Settled) :
    key ∈ l.tracked ↔ (∃ g ∈ l.held, g.key = key) ∨ ∃ r ∈ l.waiting, r.key = key := by
  constructor
  · exact fun hkey => .inl (h.manned key hkey)
  · rintro (⟨g, hg, rfl⟩ | ⟨r, hr, rfl⟩)
    · exact mem_tracked_of_claim h.toSound (mem_claims.mpr (.inl hg))
    · obtain ⟨g, hg, hkey⟩ := h.exists_holder hr
      rw [← hkey]
      exact mem_tracked_of_claim h.toSound (mem_claims.mpr (.inl hg))

/-- Every move is made of events, so that what holds after all events holds in the midst of it. -/
theorem exists_events_move (l : Keyed) (m : Move) :
    ∃ events : List Event, l.move m = events.foldl act l := by
  have hpoll : ∀ l : Keyed, ∃ events : List Event, l.pollAll = events.foldl act l := fun l =>
    ⟨(l.waiting.map (·.ticket)).map .poll, by rw [List.foldl_map]; rfl⟩
  have hthen : ∀ (events : List Event) (l' : Keyed), l' = events.foldl act l →
      ∃ events : List Event, l'.pollAll = events.foldl act l := by
    rintro events _ rfl
    obtain ⟨more, hmore⟩ := hpoll (events.foldl act l)
    exact ⟨events ++ more, by rw [hmore, List.foldl_append]⟩
  cases m with
  | lock id key => exact hthen [.request id key] _ rfl
  | cancel id =>
    exact hthen (((l.waiting.filter (·.id == id)).map (·.ticket)).map .giveUp) _
      (by rw [List.foldl_map]; rfl)
  | release id =>
    exact hthen (((l.held.filter (·.id == id)).map (·.ticket)).map .letGo) _
      (by rw [List.foldl_map]; rfl)

/-- **Locks by key are fair.** After any moves, and whatever events come next, no key has two
holders. Each key has a queue of its own, which is made of the moves alone: its first is the holder
and the others wait, in order. So who waits, waits for a holder of his key. The keys in use are
those that are held or waited for, each once. -/
theorem fair_after (moves : List Move) :
    (∀ events : List Event, ((events.foldl act (after moves)).held.map (·.key)).Nodup) ∧
    (∀ key, ((after moves).held.filter (·.key == key)).map Guard.mark
        = (queueAfter key moves).2.take 1 ∧
      ((after moves).waiting.filter (·.key == key)).map Request.mark
        = (queueAfter key moves).2.drop 1) ∧
    (∀ r ∈ (after moves).waiting, ∃ g ∈ (after moves).held, g.key = r.key) ∧
    (after moves).tracked.Nodup ∧
    ∀ key, key ∈ (after moves).tracked ↔
      (∃ g ∈ (after moves).held, g.key = key) ∨ ∃ r ∈ (after moves).waiting, r.key = key := by
  obtain ⟨h, hqueue⟩ := settled_after moves
  refine ⟨fun events => (h.toSound.foldl_act events).nodup_held_keys, fun key => ?_,
    fun r hr => h.exists_holder hr, h.keys, fun key => h.mem_tracked_iff⟩
  rw [hqueue, ← map_filterMap_claim? h.looked key, ← awaited]
  rcases h.queue_cases key with ⟨hnil, hheld, hawaited⟩ | ⟨g, hheld, hsome⟩
  · rw [hnil, hheld, hawaited]
    exact ⟨rfl, rfl⟩
  · rw [hsome, hheld]
    exact ⟨rfl, rfl⟩

/-- Whoever gives up is passed over, and another key is not waited for. -/
example : queueAfter "a" [.lock "x" "a", .lock "y" "a", .lock "z" "a", .lock "w" "b", .cancel "y",
    .release "x"] = (4, [(2, "z")]) := by
  decide

end Keyed

end SharedMemos.Lock
