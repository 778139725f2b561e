import SharedMemos.Proofs.Server.Attachments.Contracts

/-!
# What is done to sessions

A request about an upload works on a session that it has found, and goes on to do so when the row of
the session has been removed. What it relies on all the time is that the name of the session is none
of another user's (`IsHeld`): then scratch files that the name leads to may be written, rows with
the name may be changed and removed, and the object that the client has stored may go.

Deeds of the users keep all of that, and so it lasts with any invariant that does
(`IsLasting.isHeld`). Each step on a session has one contract, which asks for no more than that.

## Main definitions

* `IsMine` — no session of another user has a name
* `IsHeld` — what is known of a session of one of the users, open or not

## Main results

* `IsHeld.deed` — it stays known
* `filing_upholds`, `changeSession_upholds`, `deleteSession_upholds` — the steps
-/

namespace SharedMemos.Server

open SharedMemos.Storage SharedMemos.Upload Attempt

variable {digested : Digested} {source : Source} {first last : Nat} {party : UserId → Prop}
  {inv : State → Prop} {s t : State} {id path : String} {x : Session}

/-! ### Names of sessions -/

/-- No session of another user has the name. -/
def IsMine (party : UserId → Prop) (id : String) (s : State) : Prop :=
  ∀ x ∈ s.holdings.sessions, x.id = id → party x.creator

theorem IsMine.deed (h : IsMine party id s) (hdeed : Deed digested source first party s t) :
    IsMine party id t := by
  intro x hx hid
  rcases hdeed.sessions x hx with hnew | ⟨y, hy, hterms⟩
  · exact hnew
  · obtain ⟨hsame, hcreator, -⟩ := Session.terms_inj.mp hterms
    rw [hcreator]
    exact h y hy (hsame.symm.trans hid)

/-- What is known of a session of one of the users, whether it is still open or not: its name is
none of another user's, its files are where that leads, and nobody else owns its key. -/
structure IsHeld (party : UserId → Prop) (id : String) (x : Session) (s : State) : Prop where
  id_eq : x.id = id
  user : party x.creator
  mine : IsMine party id s
  files : ∀ path, x.Keeps path → IsFileOf s.holdings.scratchDirectory id path
  key : ∀ key, x.target.key? = some key → Filename.IsKey key ∧ IsOwn party key s

/-- An open session of one of the users is known to be. -/
theorem IsSound.isHeld (h : IsSound source first s) (hx : x ∈ s.holdings.sessions)
    (huser : party x.creator) : IsHeld party x.id x s where
  id_eq := rfl
  user := huser
  mine y hy hid := by
    rw [List.inj_on_of_nodup_map h.filed.distinct hy hx hid]
    exact huser
  files := h.filed.files x hx
  key _ hkey := ⟨(h.owned.issued _ _ _ (Holdings.owns_of_session hx hkey)).isKey,
    h.isOwn (Holdings.owns_of_session hx hkey) huser⟩

/-- **What is known of a session stays known.** -/
theorem IsHeld.deed (h : IsHeld party id x s) (hdeed : Deed digested source first party s t) :
    IsHeld party id x t where
  id_eq := h.id_eq
  user := h.user
  mine := h.mine.deed hdeed
  files := by
    rw [hdeed.scratchDirectory_eq]
    exact h.files
  key key hkey := ⟨(h.key key hkey).1, (h.key key hkey).2.deed hdeed⟩

theorem IsLasting.isHeld (hinv : IsLasting digested source first party inv) (id : String)
    (x : Session) : IsLasting digested source first party fun s => inv s ∧ IsHeld party id x s :=
  hinv.and fun _ h hdeed => h.deed hdeed

/-! ### Steps -/

namespace IsSound

/-- Changing a scratch file that the name of a session leads to is part of uploading. -/
theorem uploading_of_filing (h : IsSound source first s) (hmine : IsMine party id s)
    (hfile : IsFileOf s.holdings.scratchDirectory id path)
    (hrel : (Footprint.filing path).rel s t) : Uploading party s t := by
  obtain ⟨hholdings, hdraws, hkept⟩ := hrel
  have hsessions : t.holdings.sessions = s.holdings.sessions := by rw [hholdings]
  refine ⟨?_, hdraws, ?_, ?_, ?_, ?_⟩
  · rw [hsessions]
    exact hholdings
  · exact fun y hy => ⟨y, hsessions ▸ hy, rfl⟩
  · rw [hsessions]
  · exact fun y hy => h.filed.files y (hsessions ▸ hy)
  · refine fun y hy hother => ⟨hsessions ▸ hy, fun other hat => hkept other ?_⟩
    rintro rfl
    exact hother (hmine y hy ((h.filed.files y hy other hat).id_eq hfile))

/-- Changing rows with a name is part of uploading, if nothing changes that they were opened
with. -/
theorem uploading_of_change (h : IsSound source first s) (hmine : IsMine party id s)
    {condition : Session → Bool} {change : Session → Session}
    (hterms : ∀ y, (change y).terms = y.terms)
    (hfiles : ∀ y, y.id = id → ∀ path, (change y).Keeps path →
      y.Keeps path ∨ IsFileOf s.holdings.scratchDirectory id path)
    (hholdings : t.holdings = { s.holdings with
      sessions := s.holdings.sessions.map fun y =>
        if y.id == id && condition y then change y else y })
    (hdraws : s.draws ≤ t.draws) : Uploading party s t := by
  have hchanged : ∀ y ∈ t.holdings.sessions, ∃ z ∈ s.holdings.sessions, y.terms = z.terms
      ∧ ∀ path, y.Keeps path → z.Keeps path ∨ IsFileOf s.holdings.scratchDirectory z.id path := by
    rw [hholdings]
    intro y hy
    obtain ⟨z, hz, rfl⟩ := List.mem_map.mp hy
    refine ⟨z, hz, ?_⟩
    split
    · rename_i hmeant
      have hid := beq_iff_eq.mp (Bool.and_eq_true_iff.mp hmeant).1
      exact ⟨hterms z, hid ▸ hfiles z hid⟩
    · exact ⟨rfl, fun path => .inl⟩
  refine ⟨?_, hdraws, fun y hy => ?_, ?_, ?_, ?_⟩
  · rw [hholdings]
  · obtain ⟨z, hz, hsame, -⟩ := hchanged y hy
    exact ⟨z, hz, hsame⟩
  · have hsame : t.holdings.sessions.map (·.id) = s.holdings.sessions.map (·.id) := by
      rw [hholdings, List.map_map]
      refine List.map_congr_left fun y _ => ?_
      rw [Function.comp_apply]
      split
      · exact (Session.terms_inj.mp (hterms y)).1
      · rfl
    rw [hsame]
  · intro y hy path hat
    obtain ⟨z, hz, hsame, hkept⟩ := hchanged y hy
    rw [(Session.terms_inj.mp hsame).1]
    exact (hkept path hat).elim (h.filed.files z hz path) fun hfile => hfile
  · refine fun y hy hother => ⟨?_, fun path _ => scratch?_of_scratch (by rw [hholdings]) path⟩
    rw [hholdings]
    refine List.mem_map.mpr ⟨y, hy, if_neg fun hmeant => hother (hmine y hy ?_)⟩
    exact beq_iff_eq.mp (Bool.and_eq_true_iff.mp hmeant).1

/-- Removing rows with a name is part of uploading. -/
theorem uploading_of_close (h : IsSound source first s) (hmine : IsMine party id s)
    (hholdings : t.holdings = { s.holdings with
      sessions := s.holdings.sessions.filter (·.id != id) })
    (hdraws : s.draws ≤ t.draws) : Uploading party s t := by
  have hsessions : ∀ y ∈ t.holdings.sessions, y ∈ s.holdings.sessions := by
    rw [hholdings]
    exact fun y hy => List.mem_of_mem_filter hy
  refine ⟨?_, hdraws, fun y hy => ⟨y, hsessions y hy, rfl⟩, ?_, ?_, ?_⟩
  · rw [hholdings]
  · rw [hholdings]
    exact List.filter_sublist.map _
  · exact fun y hy => h.filed.files y (hsessions y hy)
  · refine fun y hy hother => ⟨?_, fun path _ => scratch?_of_scratch (by rw [hholdings]) path⟩
    rw [hholdings]
    exact List.mem_filter.mpr ⟨hy, bne_iff_ne.mpr fun hid => hother (hmine y hy hid)⟩

end IsSound

/-- What lasts is kept by what keeps something more. -/
theorem Attempt.Upholds.of_more {α : Type} {a : Action α} {more : State → Prop}
    (h : a.Upholds last more more fun _ => more) (himp : ∀ s, more s → inv s) :
    a.Upholds last inv more fun _ => inv :=
  (h.weaken_inv himp).weaken (fun _ hs => hs) fun _ => himp

section

variable (hinv : IsLasting digested source first party inv)
include hinv

/-- **A scratch file may be changed where the name of a session leads.** -/
theorem filing_upholds {α : Type} {a : Action α} (ha : a.Within (Footprint.filing path))
    (hmine : ∀ s, inv s → IsMine party id s ∧ IsFileOf s.holdings.scratchDirectory id path) :
    a.Upholds last inv inv fun _ => inv := by
  have hkeeps : ∀ s t, (Footprint.filing path).rel s t → inv s → inv t := by
    intro s t hrel hs
    obtain ⟨hnobody, hfile⟩ := hmine s hs
    exact hinv.of_uploading hs ((hinv.sound hs).uploading_of_filing hnobody hfile hrel)
  exact .of_within ha (fun _ _ hrel => hrel.2.1) (fun s _ t _ hrel _ => hkeeps s t hrel)
    fun s t hrel _ => hkeeps s t hrel

/-- **The row of a session may be changed**, but not what it was opened with. -/
theorem changeSession_upholds {condition : Session → Bool} {change : Instant → Session → Session}
    (hmine : ∀ s, inv s → IsMine party id s) (hterms : ∀ time y, (change time y).terms = y.terms)
    (hfiles : ∀ s, inv s → ∀ time y, y.id = id → ∀ path, (change time y).Keeps path →
      y.Keeps path ∨ IsFileOf s.holdings.scratchDirectory id path) :
    (transactNow fun time => Database.changeSession id condition (change time)).Upholds last inv inv
      fun _ => inv := by
  intro s
  rcases hexec : (transactNow fun time => Database.changeSession id condition (change time)).exec s
    with ⟨e | isDone, t⟩
  · obtain ⟨time, -, rfl⟩ := exec_transactNow_error hexec
    exact ⟨Nat.le_refl _, fun _ hs => hinv.stable s _ ⟨rfl, Nat.le_refl _⟩ hs⟩
  · obtain ⟨time, d, hrun, rfl⟩ := exec_transactNow_ok hexec
    refine ⟨Nat.le_refl _, fun _ hs => ?_⟩
    rcases Database.run_changeSession hrun with ⟨-, rfl⟩ | ⟨-, rfl⟩
    · exact hinv.stable s _ ⟨rfl, Nat.le_refl _⟩ hs
    · exact hinv.of_uploading hs ((hinv.sound hs).uploading_of_change (hmine s hs) (hterms time)
        (hfiles s hs time) rfl (Nat.le_refl _))

/-- **The row of a session may be removed.** -/
theorem deleteSession_upholds (hmine : ∀ s, inv s → IsMine party id s) :
    (transact (Database.deleteSession id)).Upholds last inv inv fun _ => inv := by
  refine .transact (fun _ hs => hs) ?_
  intro s isDone d hrun hs
  have hd := Database.run_deleteSession hrun
  cases isDone with
  | false =>
    rw [if_neg Bool.false_ne_true] at hd
    subst hd
    exact hs
  | true =>
    rw [if_pos rfl] at hd
    subst hd
    exact hinv.of_uploading hs
      ((hinv.sound hs).uploading_of_close (hmine s hs) rfl (Nat.le_refl _))

end

end SharedMemos.Server
