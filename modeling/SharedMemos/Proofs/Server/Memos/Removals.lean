import SharedMemos.Proofs.Server.Memos.Changes

/-!
# Names of memos that are gone

A user is told of a memo when a request takes from the user what the user had of it: the memo, where
the user could change it, or the grant that let the user change it. So the events of a run are the
history of what users have lost, and they are nothing else (`tells_written_iff`). That cuts both
ways.

Whoever could change a memo and does not see it any more must have lost it in between, at a time
between the two, and is told so by every answer about a window that holds that time
(`removal_reaches`). What the memo has been through otherwise does not matter.

But a grant can be lost without the memo being lost from view. A memo that is open to members or to
everyone is seen without a grant, and a grant can be given back. An answer names such a memo among
those that are gone although the user sees it, and it may give it among the memos as well
(`removed_iff`, `removes_visible`).

## Main results

* `tells_written_iff` — events are the history of what users have lost
* `removal_reaches` — whoever loses a memo from view is told, once
* `removed_iff` — what the names of an answer stand for
-/

namespace SharedMemos.Server

open Attempt Database SharedMemos.Filter

variable {s t : State} {user : UserId} {name : String} {time : Instant}

/-- Does a request take a memo of a name from a user who could change it, or the grant to do so? -/
def State.Loses (s : State) (w : Write) (user : UserId) (name : String) : Prop :=
  ∃ m ∈ s.database.memos, m.name = name ∧ m.canModify user
    ∧ ∀ n ∈ (w.act.exec s).2.database.memos, n.id = m.id → ¬ n.canModify user

instance (s : State) (w : Write) (user : UserId) (name : String) :
    Decidable (s.Loses w user name) :=
  inferInstanceAs (Decidable (∃ m ∈ s.database.memos, m.name = name ∧ m.canModify user
    ∧ ∀ n ∈ (w.act.exec s).2.database.memos, n.id = m.id → ¬ n.canModify user))

/-! ### The history -/

/-- **A request tells the users who lose something by it**, at its time. -/
theorem Write.tells_iff (w : Write) (hs : s.IsOrderly) :
    (w.act.exec s).2.database.Tells user name time
      ↔ s.database.Tells user name time
        ∨ time = s.source.time s.looks ∧ s.Loses w user name := by
  rcases (w.step hs).database with hsame | ⟨-, before, after, hexchange⟩
  · rw [State.Loses, hsame]
    constructor
    · exact .inl
    · rintro (htold | ⟨-, m, hm, -, hcould, hlost⟩)
      · exact htold
      · exact absurd hcould (hlost m hm rfl)
  · rw [hexchange.tells]
    refine or_congr Iff.rfl (and_congr Iff.rfl ?_)
    constructor
    · rintro ⟨row, hrow, hname, hcould, hcannot⟩
      refine ⟨row, hexchange.taken row hrow, hname, hcould, fun n hn hid => ?_⟩
      rcases (hexchange.rows n).mp hn with hn | ⟨-, hstays⟩
      · exact hcannot n hn
      · exact absurd hid (hstays row hrow)
    · rintro ⟨m, hm, hname, hcould, hlost⟩
      -- the memo itself would still be there if it were not the row that is taken out
      have htaken : ∃ row ∈ before, m.id = row.id := by
        by_contra hstays
        simp only [not_exists, not_and] at hstays
        exact hlost m ((hexchange.rows m).mpr (.inr ⟨hm, hstays⟩)) rfl hcould
      obtain ⟨row, hrow, hid⟩ := htaken
      obtain rfl := hs.keyed.id m hm row (hexchange.taken row hrow) hid
      refine ⟨m, hrow, hname, hcould, fun n hn => ?_⟩
      exact hlost n ((hexchange.rows n).mpr (.inl hn)) (hexchange.same m hrow n hn).1

/-- **Events are the history of what users have lost.** The induction is on the run from its first
request, so that the rest of the run starts from where that has led. -/
theorem tells_written_iff (writes : List Write) : ∀ {s : State}, s.IsOrderly →
    ((s.written writes).database.Tells user name time
      ↔ s.database.Tells user name time
        ∨ ∃ earlier w later, writes = earlier ++ w :: later
          ∧ time = s.source.time (s.written earlier).looks
          ∧ (s.written earlier).Loses w user name) := by
  induction writes with
  | nil =>
    intro s hs
    constructor
    · exact .inl
    · rintro (htold | ⟨earlier, w, later, hsplit, -⟩)
      · exact htold
      · exact absurd hsplit.symm (List.append_ne_nil_of_right_ne_nil _ (List.cons_ne_nil _ _))
  | cons w writes ih =>
    intro s hs
    have hsource := (w.step hs).source
    rw [State.written_cons, ih ((w.step hs).isOrderly hs), w.tells_iff hs, hsource]
    constructor
    · rintro ((htold | hfirst) | ⟨earlier, w', later, rfl, hrest⟩)
      · exact .inl htold
      · exact .inr ⟨[], w, writes, rfl, hfirst⟩
      · exact .inr ⟨w :: earlier, w', later, rfl, hrest⟩
    · rintro (htold | ⟨earlier, w', later, hsplit, hrest⟩)
      · exact .inl (.inl htold)
      · cases earlier with
        | nil =>
          obtain ⟨rfl, rfl⟩ := List.cons.inj hsplit
          exact .inl (.inr hrest)
        | cons v earlier =>
          obtain ⟨rfl, rfl⟩ := List.cons.inj hsplit
          exact .inr ⟨earlier, w', later, rfl, hrest⟩

/-! ### From one instant to another -/

/-- The state at an instant: the requests that came later have not been made. -/
def State.asOf (s : State) : List Write → Instant → State
  | [], _ => s
  | w :: writes, time =>
    if s.source.time s.looks ≤ time then (w.act.exec s).2.asOf writes time else s

/-- Is a memo there, under whatever fields, for a user to change? -/
def State.Entrusts (s : State) (user : UserId) (m : Memo) : Prop :=
  ∃ n ∈ s.database.memos, n.id = m.id ∧ n.name = m.name ∧ n.canModify user

/-- A memo keeps its name. -/
theorem Write.name_eq (w : Write) (hs : s.IsOrderly) {m n : Memo} (hm : m ∈ s.database.memos)
    (hn : n ∈ (w.act.exec s).2.database.memos) (hid : n.id = m.id) : n.name = m.name := by
  rcases (w.step hs).database with hsame | ⟨-, before, after, hexchange⟩
  · rw [hsame] at hn
    rw [hs.keyed.id n hn m hm hid]
  · rcases (hexchange.rows n).mp hn with hn | ⟨hn, -⟩
    · cases before with
      | none =>
        have hlast := hs.keyed.last m hm
        have hfresh := (hexchange.fresh rfl n hn).1
        omega
      | some row =>
        obtain ⟨hrow, huid, -⟩ := hexchange.same row rfl n hn
        rw [hs.keyed.id m hm row (hexchange.taken row rfl) (hid.symm.trans hrow)]
        exact Memo.name_inj.mpr huid
    · rw [hs.keyed.id n hn m hm hid]

/-- **What a user could change stays so, or the user is told.** -/
theorem Write.entrusts_or_tells (w : Write) (hs : s.IsOrderly) {m : Memo}
    (hm : s.Entrusts user m) :
    (w.act.exec s).2.Entrusts user m
      ∨ (w.act.exec s).2.database.Tells user m.name (s.source.time s.looks) := by
  obtain ⟨row, hrow, hid, hname, hcould⟩ := hm
  by_cases hlost : ∀ n ∈ (w.act.exec s).2.database.memos, n.id = row.id → ¬ n.canModify user
  · exact .inr ((w.tells_iff hs).mpr (.inr ⟨rfl, row, hrow, hname, hcould, hlost⟩))
  · simp only [not_forall, not_not] at hlost
    obtain ⟨n, hn, hnid, hcan⟩ := hlost
    exact .inl ⟨n, hn, hnid.trans hid, (w.name_eq hs hrow hn hnid).trans hname, hcan⟩

theorem Source.IsTicking.mono {source : Source} (h : source.IsTicking) {i j : Nat} (hij : i ≤ j) :
    source.time i ≤ source.time j := by
  rcases Nat.eq_or_lt_of_le hij with rfl | hlt
  · exact le_refl _
  · exact (h i j hlt).le

/-- Up to an instant, what a user could change at first stays so, or the user is told by then. -/
theorem asOf_entrusts_or_tells (writes : List Write) (upTo : Instant) {m : Memo} :
    ∀ {s : State}, s.IsOrderly → s.source.IsTicking → s.Entrusts user m →
      (s.asOf writes upTo).Entrusts user m
        ∨ ∃ t, s.source.time s.looks ≤ t ∧ t ≤ upTo
          ∧ (s.written writes).database.Tells user m.name t := by
  induction writes with
  | nil => exact fun hs _ hm => .inl hm
  | cons w writes ih =>
    intro s hs hticks hm
    have hstep := w.step hs
    have hnext := hstep.isOrderly hs
    rw [State.asOf, State.written_cons]
    split
    · rename_i hdue
      rcases w.entrusts_or_tells hs hm with hkept | htold
      · rcases ih hnext (hstep.source ▸ hticks) hkept with hkept | ⟨t, hfrom, hupTo, htold⟩
        · exact .inl hkept
        · rw [hstep.source] at hfrom
          exact .inr ⟨t, (hticks.mono hstep.looks).trans hfrom, hupTo, htold⟩
      · exact .inr ⟨_, le_refl _, hdue, State.tells_written hnext htold writes⟩
    · exact .inl hm

/-- **Between two instants**, what a user could change at the first stays so, or the user is told in
the window. -/
theorem asOf_window (writes : List Write) {after upTo : Instant} (hwindow : after ≤ upTo)
    {m : Memo} : ∀ {s : State}, s.IsOrderly → s.source.IsTicking →
      (s.asOf writes after).Entrusts user m →
      (s.asOf writes upTo).Entrusts user m
        ∨ ∃ t, after < t ∧ t ≤ upTo ∧ (s.written writes).database.Tells user m.name t := by
  induction writes with
  | nil => exact fun hs _ hm => .inl hm
  | cons w writes ih =>
    intro s hs hticks hm
    have hstep := w.step hs
    rw [State.asOf] at hm
    split at hm
    · rename_i hdue
      rw [State.asOf, if_pos (hdue.trans hwindow), State.written_cons]
      exact ih (hstep.isOrderly hs) (hstep.source ▸ hticks) hm
    · -- the window starts here, before the first request
      rename_i hlater
      rcases asOf_entrusts_or_tells (w :: writes) upTo hs hticks hm with
        hkept | ⟨t, hfrom, hupTo, htold⟩
      · exact .inl hkept
      · exact .inr ⟨t, (not_le.mp hlater).trans_le hfrom, hupTo, htold⟩

/-! ### Answers -/

section

variable {state : Option MemoState} {source : String} {filter : Compiled} {s₀ : State}

/-- **Whoever loses a memo from view is told, once.** The user made the memo or was granted access
to it as it was at one time, and at a later time it is gone or the user does not see it. Then every
answer about the time in between names it. -/
theorem removal_reaches (hs : s₀.IsOrderly) (hticks : s₀.source.IsTicking) (writes : List Write)
    (hpos : 0 < user) (hmax : user ≤ Text.maxInt64) (state : Option MemoState)
    (hfilter : compileGuarded source = .ok filter) {since anchor : Timestamp}
    (hwindow : since.toInstant ≤ anchor.toInstant) (hepoch : Instant.epoch < anchor.toInstant)
    {m : Memo} (hm : m ∈ (s₀.asOf writes since.toInstant).database.memos)
    (hheld : m.creator = user ∨ Tag.grant user ∈ m.tags)
    (hgone : ∀ n ∈ (s₀.asOf writes anchor.toInstant).database.memos, n.id = m.id →
      n.isVisibleTo (some user) = false) :
    ∃ changes t, (listChanges (some user) state source since (some anchor)).exec
        (s₀.written writes) = (.ok changes, t) ∧ changes.removed.count m.name = 1 := by
  have hcould : m.canModify user := (Memo.canModify_iff_grant hpos hmax).mpr hheld
  have htold : ∃ t, since.toInstant < t ∧ t ≤ anchor.toInstant
      ∧ (s₀.written writes).database.Tells user m.name t := by
    rcases asOf_window writes hwindow hs hticks ⟨m, hm, rfl, rfl, hcould⟩ with
      ⟨n, hn, hid, -, hcan⟩ | htold
    · exact absurd (Memo.isVisibleTo_of_canModify hcan) (ne_true_of_eq_false (hgone n hn hid))
    · exact htold
  refine ⟨_, _, listChanges_exec user state since hfilter (windowEnd_exec_some hepoch _), ?_⟩
  exact List.count_eq_one_of_mem nodup_removed (mem_removed.mpr htold)

/-- A user is granted access to a memo, which is then opened to members; the user is granted access
no longer, and at last the memo is restricted again. -/
def grantedAndTaken : List Write :=
  [.create (some 7) { content := "plan", tags := ["collab/8"] },
    .update (some 8) (Text.showPadded Limit.uidLength 0) { visibility := some .members },
    .update (some 7) (Text.showPadded Limit.uidLength 0) { tags := some [] },
    .update (some 7) (Text.showPadded Limit.uidLength 0) { visibility := some .restricted }]

/-- The user who had a grant after two seconds does not see the memo after four. -/
theorem removal_reaches_grantedAndTaken :
    ∃ m, m ∈ (tickingServer.asOf grantedAndTaken ⟨2000000⟩).database.memos
      ∧ ∃ changes t, (listChanges (some 8) none "pinned" ⟨2, 0⟩ (some ⟨4, 0⟩)).exec
          (tickingServer.written grantedAndTaken) = (.ok changes, t)
        ∧ changes.removed.count m.name = 1 := by
  have hcompiles : ((compileGuarded "pinned").toOption.any fun _ => true) = true := by
    decide +kernel
  obtain ⟨filter, hfilter, -⟩ := compiles_of_any hcompiles
  have hheld : ((tickingServer.asOf grantedAndTaken ⟨2000000⟩).database.memos.any
      fun m => m.tags.contains (Tag.grant 8)) = true := by
    decide +kernel
  have hgone : ((tickingServer.asOf grantedAndTaken ⟨4000000⟩).database.memos.all
      fun m => !m.isVisibleTo (some 8)) = true := by
    decide +kernel
  obtain ⟨m, hm, htag⟩ := List.any_eq_true.mp hheld
  refine ⟨m, hm, ?_⟩
  refine removal_reaches (State.isOrderly_of_empty rfl rfl) tickingServer_isTicking grantedAndTaken
    (by decide) (by decide) none hfilter (by decide) (by decide) hm
    (.inr (List.contains_iff_mem.mp htag)) fun n hn _ => ?_
  exact (Bool.not_eq_true' _).mp (List.all_eq_true.mp hgone n hn)

/-- **What the names of an answer stand for.** They are those of the memos that a request of the
window has taken from the user, or a grant to change them; each is given once. -/
theorem removed_iff (hs : s₀.IsOrderly) (hevents : s₀.database.events = [])
    (hticks : s₀.source.IsTicking) (writes : List Write) (user : UserId)
    (state : Option MemoState) (hfilter : compileGuarded source = .ok filter) (since : Timestamp) :
    ∃ changes t, (listChanges (some user) state source since none).exec (s₀.written writes)
        = (.ok changes, t)
      ∧ changes.removed.Nodup
      ∧ ∀ name, name ∈ changes.removed
        ↔ ∃ earlier w later, writes = earlier ++ w :: later
          ∧ since.toInstant < s₀.source.time (s₀.written earlier).looks
          ∧ (s₀.written earlier).Loses w user name := by
  refine ⟨_, _, listChanges_exec user state since hfilter (windowEnd_exec_none _), nodup_removed,
    fun name => ?_⟩
  have hnever : ∀ t, ¬ s₀.database.Tells user name t := by
    rintro t ⟨e, he, -⟩
    rw [hevents] at he
    exact List.not_mem_nil he
  rw [mem_removed, Timestamp.toInstant_ofInstant, State.written_source hs]
  constructor
  · rintro ⟨t, hafter, -, htold⟩
    rcases (tells_written_iff writes hs).mp htold with
      htold | ⟨earlier, w, later, hsplit, rfl, hlost⟩
    · exact absurd htold (hnever t)
    · exact ⟨earlier, w, later, hsplit, hafter, hlost⟩
  · rintro ⟨earlier, w, later, hsplit, hafter, hlost⟩
    refine ⟨_, hafter, hticks.mono ?_, (tells_written_iff writes hs).mpr
      (.inr ⟨earlier, w, later, hsplit, rfl, hlost⟩)⟩
    rw [hsplit, State.written_append]
    exact State.looks_le_written (State.isOrderly_written hs earlier) (w :: later)

/-- A memo that is open to everyone is shared with a user and then not any more. -/
def openAndUnshared : List Write :=
  [.create (some 7) { content := "plan", visibility := some .everyone, tags := ["collab/8"] },
    .update (some 7) (Text.showPadded Limit.uidLength 0) { tags := some [] }]

/-- The request that takes the tag away is in the window. -/
theorem removed_iff_openAndUnshared :
    ∃ changes t, (listChanges (some 8) none "pinned" ⟨1, 0⟩ none).exec
        (tickingServer.written openAndUnshared) = (.ok changes, t)
      ∧ "memos/" ++ Text.showPadded Limit.uidLength 0 ∈ changes.removed := by
  have hcompiles : ((compileGuarded "pinned").toOption.any fun _ => true) = true := by
    decide +kernel
  obtain ⟨filter, hfilter, -⟩ := compiles_of_any hcompiles
  obtain ⟨changes, t, hexec, -, hnames⟩ := removed_iff (State.isOrderly_of_empty rfl rfl) rfl
    tickingServer_isTicking openAndUnshared 8 none hfilter ⟨1, 0⟩
  refine ⟨changes, t, hexec, (hnames _).mpr ?_⟩
  exact ⟨[openAndUnshared[0]], openAndUnshared[1], [], rfl, by decide +kernel, by decide +kernel⟩

/-- **A name of an answer need not be of a memo that is gone**: the user sees the memo, and it is
both among the memos and among the names. -/
theorem removes_visible :
    ∃ changes t m, (listChanges (some 8) none "" ⟨0, 0⟩ none).exec
        (tickingServer.written openAndUnshared) = (.ok changes, t)
      ∧ m ∈ t.database.memos ∧ m.isVisibleTo (some 8) ∧ m ∈ changes.memos
      ∧ m.name ∈ changes.removed := by
  have hanswer : ((((listChanges (some 8) none "" ⟨0, 0⟩ none).exec
      (tickingServer.written openAndUnshared)).1.toOption.any fun changes =>
        ((listChanges (some 8) none "" ⟨0, 0⟩ none).exec
          (tickingServer.written openAndUnshared)).2.database.memos.any fun m =>
            m.isVisibleTo (some 8) && changes.memos.contains m
              && changes.removed.contains m.name)) = true := by
    decide +kernel
  rcases hexec : (listChanges (some 8) none "" ⟨0, 0⟩ none).exec
      (tickingServer.written openAndUnshared) with ⟨e | changes, t⟩
  · rw [hexec] at hanswer
    cases hanswer
  · rw [hexec] at hanswer
    obtain ⟨m, hm, hboth⟩ := List.any_eq_true.mp (show t.database.memos.any _ = true from hanswer)
    simp only [Bool.and_eq_true, List.contains_iff_mem] at hboth
    exact ⟨changes, t, m, rfl, hm, hboth.1.1, hboth.1.2, hboth.2⟩

end

end SharedMemos.Server
