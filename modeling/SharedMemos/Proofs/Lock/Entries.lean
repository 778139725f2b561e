import SharedMemos.Proofs.Lock.Soundness
import Mathlib.Data.List.Induction

/-!
# Entries that stay behind

An entry is of use as long as somebody refers to its lock. It is dropped when a holder lets go and
nobody else is there. A lock that is let go while a request waits is handed to the request, and the
entry stays for it. If that request gives up before it looks again, then nobody lets go any more,
and the entry stays behind until the key is asked for again.

Nothing else leaves an entry behind, which is the law here: it says of each event when an entry is
stale after it.

## Main results

* `Keyed.stale_act_iff` — what makes an entry stale, and what ends that
* `Keyed.stale_run_iff` — so an entry is stale if it was abandoned and not looked up since
* `Keyed.run_leaves_entry` — a run that leaves an entry behind
-/

namespace SharedMemos.Lock.Keyed

variable {l : Keyed} {ticket lock : Nat} {key : String}

/-- The key has an entry, and nobody refers to its lock. -/
def Stale (l : Keyed) (key : String) : Prop :=
  key ∈ l.tracked ∧ ∀ c ∈ l.claims, c.key ≠ key

/-- A request for the key looks for the first time. -/
def LooksUp (l : Keyed) (key : String) : Event → Prop
  | .poll ticket => ∃ r ∈ l.waiting, r.ticket = ticket ∧ r.key = key ∧ r.lock = none
  | _ => False

/-- A request that has looked gives up, and it is the last one to refer to the lock of the key. -/
def Abandons (l : Keyed) (key : String) : Event → Prop
  | .giveUp ticket => ∃ r ∈ l.waiting, r.ticket = ticket ∧ r.key = key ∧ r.lock ≠ none ∧
      ∀ c ∈ l.claims, c.key = key → c.ticket = ticket
  | _ => False

/-! ### One event -/

theorem mem_tracked_of_claim (h : l.Sound) {c : Guard} (hc : c ∈ l.claims) : c.key ∈ l.tracked :=
  List.mem_map.mpr ⟨_, h.entered c hc, rfl⟩

theorem mem_tracked_enter {key' : String} :
    key' ∈ (l.enter key).tracked ↔ key' ∈ l.tracked ∨ key' = key := by
  rw [enter]
  split
  · rename_i lock hlock
    have hkey : key ∈ l.tracked := by
      by_contra hnot
      rw [lock?_eq_none_iff.mpr hnot] at hlock
      cases hlock
    constructor
    · exact .inl
    · rintro (htracked | rfl)
      · exact htracked
      · exact hkey
  · simp [tracked]

@[simp] theorem tracked_take (l : Keyed) (c : Guard) : (l.take c).tracked = l.tracked := by
  rw [take]
  split <;> rfl

theorem stale_poll_iff (h : l.Sound) (ticket : Nat) :
    (l.poll ticket).Stale key ↔ l.Stale key ∧ ¬ l.LooksUp key (.poll ticket) := by
  rw [poll]
  split
  · rename_i r hfound
    obtain ⟨hr, rfl⟩ := h.find?_waiting.mp hfound
    have hlooks : l.LooksUp key (.poll r.ticket) ↔ r.key = key ∧ r.lock = none := by
      constructor
      · rintro ⟨q, hq, hticket, hkey⟩
        rwa [h.waiting_unique hq hr hticket] at hkey
      · rintro ⟨hkey, hfresh⟩
        exact ⟨r, hr, rfl, hkey, hfresh⟩
    rw [hlooks]
    cases hlock : r.lock with
    | some lock =>
      rw [look_of_looked hlock, Stale, tracked_take, Stale]
      simp only [h.mem_claims_take (mem_awaited_of_waiting hr hlock), reduceCtorEq, and_false,
        not_false_eq_true, and_true]
    | none =>
      obtain ⟨hjoined, hawaited⟩ := h.joined hr hlock
      have hclaims : ∀ c, c ∈ (l.look r).claims ↔ c ∈ l.claims ∨ c = r.claim (l.lockOf r.key) := by
        intro c
        rw [look_of_fresh hlock, hjoined.mem_claims_take ((hawaited _).mpr (.inr rfl)),
          mem_claims, hawaited, mem_claims, or_assoc]
        exact or_congr_left (iff_of_eq (congrArg _ (held_enter l r.key)))
      have htracked : ∀ k, k ∈ (l.look r).tracked ↔ k ∈ l.tracked ∨ k = r.key := by
        intro k
        rw [look_of_fresh hlock, tracked_take, ← mem_tracked_enter]
        rfl
      rw [and_iff_left rfl, Stale, htracked, Stale]
      simp only [hclaims]
      constructor
      · rintro ⟨hkey, hnobody⟩
        have hne : r.key ≠ key := hnobody _ (.inr rfl)
        exact ⟨⟨hkey.resolve_right (Ne.symm hne), fun c hc => hnobody c (.inl hc)⟩, hne⟩
      · rintro ⟨⟨hkey, hnobody⟩, hne⟩
        refine ⟨.inl hkey, ?_⟩
        rintro c (hc | rfl)
        · exact hnobody c hc
        · exact hne
  · rename_i hnone
    have hnot : ¬ l.LooksUp key (.poll ticket) := by
      rintro ⟨q, hq, hticket, -, -⟩
      exact List.find?_eq_none.mp hnone q hq (by simpa using hticket)
    rw [and_iff_left hnot]

/-- Where one with a ticket drops out, nobody refers to the key if nobody else did. -/
theorem stale_drop_iff (l : Keyed) (ticket : Nat) (lock : Option Nat) :
    (l.drop ticket lock).Stale key ↔
      key ∈ l.tracked ∧ ∀ c ∈ l.claims, c.key = key → c.ticket = ticket := by
  rw [Stale, claims_drop]
  refine and_congr_right fun _ => forall_congr' fun c => ?_
  simp only [List.mem_filter, bne_iff_ne, ne_eq, and_imp]
  exact forall_congr' fun _ => not_imp_not

theorem stale_giveUp_iff (h : l.Sound) (ticket : Nat) :
    (l.giveUp ticket).Stale key ↔ l.Stale key ∨ l.Abandons key (.giveUp ticket) := by
  rw [giveUp]
  split
  · rename_i r hfound
    obtain ⟨hr, rfl⟩ := h.find?_waiting.mp hfound
    rw [stale_drop_iff]
    constructor
    · rintro ⟨hkey, honly⟩
      by_cases hnobody : ∀ c ∈ l.claims, c.key ≠ key
      · exact .inl ⟨hkey, hnobody⟩
      · push Not at hnobody
        obtain ⟨c, hc, rfl⟩ := hnobody
        have hlock := h.lock_of_claim hr hc (honly c hc rfl)
        have hclaim := mem_claims.mpr (.inr (mem_awaited_of_waiting hr hlock))
        have hsame : c = r.claim c.lock := h.claim_unique hc hclaim (honly c hc rfl)
        have hlooked : r.lock ≠ none := Option.ne_none_iff_exists'.mpr ⟨_, hlock⟩
        exact .inr ⟨r, hr, rfl, by rw [hsame]; rfl, hlooked, honly⟩
    · rintro (⟨hkey, hnobody⟩ | ⟨q, hq, hticket, rfl, hlooked, honly⟩)
      · exact ⟨hkey, fun c hc hckey => absurd hckey (hnobody c hc)⟩
      · obtain ⟨lock, hlock⟩ := Option.ne_none_iff_exists'.mp hlooked
        have hclaim := mem_claims.mpr (.inr (mem_awaited_of_waiting hq hlock))
        exact ⟨mem_tracked_of_claim h hclaim, honly⟩
  · rename_i hnone
    have hnot : ¬ l.Abandons key (.giveUp ticket) := by
      rintro ⟨q, hq, hticket, -⟩
      exact List.find?_eq_none.mp hnone q hq (by simpa using hticket)
    rw [or_iff_left hnot]

theorem stale_tidy_iff (h : l.Sound) {key' : String} :
    (l.tidy key).Stale key' ↔ l.Stale key' ∧ key' ≠ key := by
  rw [tidy]
  split
  · rename_i lock hlock
    have hentry := (lock?_eq_some_iff h).mp hlock
    split
    · rename_i hsome
      obtain ⟨c, hc, hat⟩ := List.any_eq_true.mp hsome
      have hkey : c.key = key := h.key_of_claim hc (eq_of_beq hat ▸ hentry)
      exact (and_iff_left_of_imp fun hstale hsame => hstale.2 c hc (hkey.trans hsame.symm)).symm
    · have htracked : key' ∈ (l.entries.filter (·.1 != key)).map (·.1) ↔
          key' ∈ l.tracked ∧ key' ≠ key := by
        simp only [tracked, List.mem_map, List.mem_filter, bne_iff_ne]
        constructor
        · rintro ⟨e, ⟨he, hne⟩, rfl⟩
          exact ⟨⟨e, he, rfl⟩, hne⟩
        · rintro ⟨⟨e, he, rfl⟩, hne⟩
          exact ⟨e, ⟨he, hne⟩, rfl⟩
      exact (and_congr_left' htracked).trans and_right_comm
  · rename_i hnone
    refine (and_iff_left_of_imp ?_).symm
    rintro ⟨htracked, -⟩ rfl
    exact lock?_eq_none_iff.mp hnone htracked

/-- A holder who lets go leaves no entry behind. -/
theorem stale_letGo_iff (h : l.Sound) (ticket : Nat) :
    (l.letGo ticket).Stale key ↔ l.Stale key := by
  rw [letGo]
  split
  · rename_i g hfound
    obtain ⟨hg, rfl⟩ := h.find?_held.mp hfound
    have hclaim : g ∈ l.claims := mem_claims.mpr (.inl hg)
    rw [stale_tidy_iff (h.drop_held hg), stale_drop_iff]
    constructor
    · rintro ⟨⟨hkey, honly⟩, hne⟩
      refine ⟨hkey, fun c hc hckey => hne ?_⟩
      rw [← hckey, h.claim_unique hc hclaim (honly c hc hckey)]
    · rintro ⟨hkey, hnobody⟩
      exact ⟨⟨hkey, fun c hc hckey => absurd hckey (hnobody c hc)⟩, (hnobody g hclaim).symm⟩
  · rfl

/-- **Only a request that abandons the lock of a key leaves the entry behind**, and only looking up
the key ends that. -/
theorem stale_act_iff (h : l.Sound) (e : Event) :
    (l.act e).Stale key ↔ (l.Stale key ∧ ¬ l.LooksUp key e) ∨ l.Abandons key e := by
  cases e with
  | request id key' =>
    have hrequest : (l.request id key').Stale key ↔ l.Stale key := by
      rw [Stale, claims_request]
      rfl
    rw [act, hrequest]
    simp [LooksUp, Abandons]
  | poll ticket =>
    rw [act, stale_poll_iff h]
    simp [Abandons]
  | giveUp ticket =>
    rw [act, stale_giveUp_iff h]
    simp [LooksUp]
  | letGo ticket =>
    rw [act, stale_letGo_iff h]
    simp [LooksUp, Abandons]

/-- Whoever abandons a lock had been handed it: it is the first in line. -/
theorem Abandons.first (h : l.Sound) (habandons : l.Abandons key (.giveUp ticket)) :
    ∃ lock, (key, lock) ∈ l.entries ∧ (l.line lock).head? = some ticket := by
  obtain ⟨r, hr, rfl, rfl, hlooked, honly⟩ := habandons
  obtain ⟨lock, hlock⟩ := Option.ne_none_iff_exists'.mp hlooked
  have hclaim := mem_claims.mpr (.inr (mem_awaited_of_waiting hr hlock))
  have hentry := h.entered _ hclaim
  refine ⟨lock, hentry, ?_⟩
  have hall : ∀ t ∈ l.line lock, t = r.ticket := by
    intro t ht
    obtain ⟨c, hc, rfl, hat⟩ := (h.lined lock t).mp ht
    exact honly c hc (h.key_of_claim hc (hat ▸ hentry))
  have hmem : r.ticket ∈ l.line lock := (h.lined lock r.ticket).mpr ⟨_, hclaim, rfl, rfl⟩
  cases hline : l.line lock with
  | nil =>
    rw [hline] at hmem
    cases hmem
  | cons t ts => rw [List.head?_cons, hall t (by simp [hline])]

/-! ### Runs -/

theorem run_append_singleton (events : List Event) (e : Event) :
    run (events ++ [e]) = (run events).act e := by
  rw [run, List.foldl_append]
  rfl

/-- **An entry is stale if its lock was abandoned and the key has not been looked up since.** -/
theorem stale_run_iff (events : List Event) (key : String) :
    (run events).Stale key ↔ ∃ before e after, events = before ++ e :: after ∧
      (run before).Abandons key e ∧
      ∀ earlier e' later, after = earlier ++ e' :: later →
        ¬ (run (before ++ e :: earlier)).LooksUp key e' := by
  induction events using List.reverseRecOn with
  | nil =>
    constructor
    · rintro ⟨hkey, -⟩
      cases hkey
    · rintro ⟨before, e, after, hnil, -⟩
      cases before <;> cases hnil
  | append_singleton events e ih =>
    rw [run_append_singleton, stale_act_iff (sound_run events), ih]
    constructor
    · rintro (⟨⟨before, e', after, rfl, habandons, hnot⟩, hlooks⟩ | habandons)
      · refine ⟨before, e', after ++ [e], by simp, habandons, ?_⟩
        intro earlier e'' later hafter
        rcases List.eq_nil_or_concat' later with rfl | ⟨later, last, rfl⟩
        · obtain ⟨rfl, rfl⟩ := List.append_inj' hafter rfl |>.imp id List.singleton_inj.mp
          exact hlooks
        · rw [← List.cons_append, ← List.append_assoc] at hafter
          exact hnot earlier e'' later (List.append_inj' hafter rfl).1
      · exact ⟨events, e, [], rfl, habandons, by simp⟩
    · rintro ⟨before, e', after, hevents, habandons, hnot⟩
      rcases List.eq_nil_or_concat' after with rfl | ⟨after, last, rfl⟩
      · obtain ⟨rfl, rfl⟩ := List.append_inj' hevents rfl |>.imp id List.singleton_inj.mp
        exact .inr habandons
      · rw [← List.cons_append, ← List.append_assoc] at hevents
        obtain ⟨rfl, rfl⟩ := List.append_inj' hevents rfl |>.imp id List.singleton_inj.mp
        refine .inl ⟨⟨before, e', after, rfl, habandons, ?_⟩, hnot after e [] rfl⟩
        rintro earlier e'' later rfl
        exact hnot earlier e'' (later ++ [e]) (by simp)

/-- As long as no lock is abandoned, the keys in use are those that somebody refers to. -/
theorem mem_tracked_run_iff {events : List Event}
    (h : ∀ before e after, events = before ++ e :: after → ∀ key, ¬ (run before).Abandons key e)
    (key : String) : key ∈ (run events).tracked ↔ ∃ c ∈ (run events).claims, c.key = key := by
  constructor
  · intro hkey
    by_contra hnobody
    push Not at hnobody
    obtain ⟨before, e, after, hevents, habandons, -⟩ :=
      (stale_run_iff events key).mp ⟨hkey, hnobody⟩
    exact h before e after hevents key habandons
  · rintro ⟨c, hc, rfl⟩
    exact mem_tracked_of_claim (sound_run events) hc

/-- A run that leaves an entry behind: the lock is let go while a request waits, which gives up
before it looks again. Nobody holds the lock or waits for it then. -/
theorem run_leaves_entry :
    ∃ events key, key ∈ (run events).tracked ∧ (run events).held = [] ∧
      (run events).waiting = [] :=
  ⟨[.request "a" "k", .poll 0, .request "b" "k", .poll 1, .letGo 0, .giveUp 1], "k", by decide⟩

end SharedMemos.Lock.Keyed
