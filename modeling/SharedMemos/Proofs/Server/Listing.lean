import SharedMemos.Proofs.Query.Clause
import SharedMemos.Proofs.Server.Execution
import SharedMemos.Proofs.Time.Instant
import SharedMemos.Server.Memos

/-!
# Listing memos page by page

A client lists memos by asking for a page, then for the page that its token stands for, and so on
until a token is empty (`Walk`). Nothing is remembered between the pages but the offset in the
token: each page makes the query anew, filters what it finds and cuts a piece out of it. Over a
database that nobody changes, and while the clock stands still, all pages are cut out of the same
list, and so they fit together.

## What a listing overlooks

The list itself is what is visible, in the state and accepted by the filter, with one exception.
The store cannot find a tag by a text that holds a null character where the filter asks how tags
start, and a prefilter that has such a test in a group loses the memos that pass the group by it
alone (`isOverlooked`).

## Main results

* `listQuery_holds` — the clause of a listing's query
* `Walk.unique` — there is one way through the pages
* `listMemos_pages` — the pages together
-/

namespace SharedMemos.Server

open SharedMemos.Text SharedMemos.Filter SharedMemos.Query

/-! ### The query of a listing -/

/-- Does a store overlook a memo that the prefilter admits? It does if the memo passes some group
only by tests that the store cannot carry out, unless the prefilter is too large to be looked at. -/
def isOverlooked (p : Prefilter) (m : Memo) : Bool :=
  !isOversized p && p.tagGroups.any fun g => !g.seen.accepts m.tags

theorem seen_admits {p : Prefilter} {m : Memo} (h : p.admits m) :
    p.seen.admits m = p.tagGroups.all fun g => g.seen.accepts m.tags := by
  have hp := Prefilter.admits_iff.mp h
  rw [Bool.eq_iff_iff, Prefilter.admits_iff, List.all_eq_true]
  constructor
  · exact fun hseen g hg => hseen.tags g.seen (List.mem_map_of_mem hg)
  · intro htags
    refine { hp with tags := ?_, excluded := ?_ }
    · intro seen hseen
      obtain ⟨g, hg, rfl⟩ := List.mem_map.mp hseen
      exact htags g hg
    · intro seen hseen
      obtain ⟨g, hg, rfl⟩ := List.mem_map.mp hseen
      exact TagGroup.seen_rejects (hp.excluded g hg)

theorem admittedBy_of_admits {p : Prefilter} {m : Memo} (h : p.admits m) :
    (admittedBy p).holds m = !isOverlooked p m := by
  rw [admittedBy_holds, seen_admits h, (Prefilter.admits_iff.mp h).satisfiable, isOverlooked,
    Bool.not_and, Bool.not_not, List.any_eq_not_all_not, Bool.not_not]
  simp

/-- The clause of a listing's query holds of the memos that are visible, in the state and admitted
by the store. -/
theorem listQuery_holds {viewer : Viewer} {state : Option MemoState} {filter : Compiled} {m : Memo}
    (hviewer : ∀ user, viewer = some user → 0 < user ∧ user ≤ maxInt64) :
    (listQuery viewer state filter).clause.holds m
      = (m.isVisibleTo viewer && m.state == state.getD .normal
        && (admittedBy filter.prefilter).holds m) := by
  rw [MemoQuery.clause_holds hviewer]
  show (_ && _ && true && _) = _
  rw [Bool.and_true]
  rfl

/-- Where the rows that pass are not more than a listing looks at, the query finds all of them. -/
theorem listQuery_run_perm {viewer : Viewer} {state : Option MemoState} {filter : Compiled}
    {table : List Memo} (hviewer : ∀ user, viewer = some user → 0 < user ∧ user ≤ maxInt64)
    (hfew : table.countP (listQuery viewer state filter).clause.holds ≤ Limit.candidates) :
    ((listQuery viewer state filter).run table).Perm
      (table.filter (listQuery viewer state filter).clause.holds) := by
  rw [MemoQuery.run]
  split
  · rename_i hunsat
    have hnone : table.filter (listQuery viewer state filter).clause.holds = [] := by
      rw [List.filter_eq_nil_iff]
      intro m _
      rw [listQuery_holds hviewer, admittedBy_holds, show filter.prefilter.unsatisfiable = true
        from hunsat]
      simp
    rw [hnone]
  · have hlength : ((table.filter (listQuery viewer state filter).clause.holds).mergeSort
        (MemoQuery.before (listQuery viewer state filter).order)).length ≤ Limit.candidates := by
      rw [List.length_mergeSort, ← List.countP_eq_length_filter]
      exact hfew
    show (((table.filter _).mergeSort _).take Limit.candidates).Perm _
    rw [List.take_of_length_le hlength]
    exact List.mergeSort_perm _ _

theorem newestFirst_trans (a b c : Memo) (hab : MemoQuery.before .newestFirst a b)
    (hbc : MemoQuery.before .newestFirst b c) : MemoQuery.before .newestFirst a c := by
  simp only [MemoQuery.before, Bool.or_eq_true, Bool.and_eq_true, decide_eq_true_eq, beq_iff_eq,
    Instant.lt_iff, Instant.eq_iff] at *
  omega

theorem newestFirst_total (a b : Memo) :
    (MemoQuery.before .newestFirst a b || MemoQuery.before .newestFirst b a) := by
  simp only [MemoQuery.before, Bool.or_eq_true, Bool.and_eq_true, decide_eq_true_eq, beq_iff_eq,
    Instant.lt_iff, Instant.eq_iff]
  omega

/-- A query for the newest memos gives them in order. -/
theorem listQuery_run_pairwise {viewer : Viewer} {state : Option MemoState} {filter : Compiled}
    {table : List Memo} :
    ((listQuery viewer state filter).run table).Pairwise
      fun a b => MemoQuery.before .newestFirst a b := by
  rw [MemoQuery.run]
  split
  · exact List.Pairwise.nil
  · exact (List.pairwise_mergeSort newestFirst_trans newestFirst_total _).sublist
      (List.take_sublist _ _)

/-! ### Pages -/

theorem pageSize_pos (wanted : Int) : 0 < pageSize wanted := by
  rw [pageSize, Limit.pageSize, Limit.maxPageSize]
  split <;> omega

theorem pageOffset_showNat {n : Nat} (h : n ≤ maxNat64) : pageOffset (showNat n) = .ok n := by
  rw [pageOffset, if_neg (showNat_ne_empty n), nat64?_showNat h]

/-- What a listing is cut out of: the candidates that the filter accepts. -/
def listed (viewer : Viewer) (state : Option MemoState) (filter : Compiled) (time : Int)
    (table : List Memo) : List Memo :=
  ((listQuery viewer state filter).run table).filter (filter.accepts · time)

section

variable {viewer : Viewer} {state : Option MemoState} {source : String} {wanted : Int}
  {filter : Compiled} {time : Int} {s t : State}

/-- A page is a piece of the listing, and the clock has been looked at once. -/
theorem listMemos_exec (viewer : Viewer) (state : Option MemoState) (wanted : Int) (s : State)
    {token : String} {offset : Nat} (hfilter : compileGuarded source = .ok filter)
    (hoffset : pageOffset token = .ok offset) :
    (listMemos viewer state source wanted token).exec s
      = (.ok (pageOf (listed viewer state filter (s.source.time s.looks).seconds s.database.memos)
          offset (pageSize wanted)), { s with looks := s.looks + 1 }) := by
  have hrequest : (requestFilter source).exec s = (.ok filter, s) := by
    rw [requestFilter, Attempt.exec_ofExcept, hfilter]
    rfl
  rw [listMemos, Attempt.exec_bind_of_ok hrequest,
    Attempt.exec_bind_of_ok (show (Attempt.ofExcept (pageOffset token)).exec s = (.ok offset, s) by
      rw [Attempt.exec_ofExcept, hoffset])]
  rfl

/-- The pages from a token on: each is asked for with the token of the one before, in the state that
the one before has left, up to the first whose token is empty. -/
inductive Walk (viewer : Viewer) (state : Option MemoState) (source : String) (wanted : Int) :
    String → State → List MemoPage → Prop where
  | last {token : String} {s t : State} {page : MemoPage}
      (hpage : (listMemos viewer state source wanted token).exec s = (.ok page, t))
      (hlast : page.next = "") : Walk viewer state source wanted token s [page]
  | more {token : String} {s t : State} {page : MemoPage} {pages : List MemoPage}
      (hpage : (listMemos viewer state source wanted token).exec s = (.ok page, t))
      (hmore : page.next ≠ "") (hrest : Walk viewer state source wanted page.next t pages) :
      Walk viewer state source wanted token s (page :: pages)

/-- **There is one way through the pages.** -/
theorem Walk.unique {token : String} {pages pages' : List MemoPage}
    (h : Walk viewer state source wanted token s pages)
    (h' : Walk viewer state source wanted token s pages') : pages' = pages := by
  induction h generalizing pages' with
  | last hpage hlast =>
    cases h' with
    | last hpage' _ =>
      rw [hpage] at hpage'
      cases hpage'
      rfl
    | more hpage' hmore' _ =>
      rw [hpage] at hpage'
      cases hpage'
      exact absurd hlast hmore'
  | more hpage hmore hrest ih =>
    cases h' with
    | last hpage' hlast' =>
      rw [hpage] at hpage'
      cases hpage'
      exact absurd hlast' hmore
    | more hpage' _ hrest' =>
      rw [hpage] at hpage'
      cases hpage'
      rw [ih hrest']

/-- The pages from an offset on are what is left of the listing. The induction is on how much is
left: a page that is not the last takes at least one memo off. -/
theorem exists_walk (wanted : Int) {table : List Memo}
    (hfilter : compileGuarded source = .ok filter)
    (hlength : (listed viewer state filter time table).length ≤ maxNat64) :
    ∀ (offset : Nat) (token : String) (s : State), pageOffset token = .ok offset →
      s.database.memos = table → (∀ k, s.looks ≤ k → (s.source.time k).seconds = time) →
      ∃ pages, Walk viewer state source wanted token s pages
        ∧ pages.flatMap (·.memos) = (listed viewer state filter time table).drop offset := by
  intro offset
  induction hleft : (listed viewer state filter time table).length - offset using Nat.strongRecOn
    generalizing offset with
  | ind left ih =>
    intro token s hoffset htable hclock
    have hpage := listMemos_exec viewer state wanted s hfilter hoffset
    rw [htable, hclock s.looks (Nat.le_refl _)] at hpage
    have hpos := pageSize_pos wanted
    by_cases hmore : offset + pageSize wanted < (listed viewer state filter time table).length
    · have hnext : (pageOf (listed viewer state filter time table) offset (pageSize wanted)).next
          = showNat (offset + pageSize wanted) := if_pos hmore
      obtain ⟨pages, hwalk, hpages⟩ := ih _ (by omega) (offset + pageSize wanted) rfl
        (showNat (offset + pageSize wanted)) { s with looks := s.looks + 1 }
        (pageOffset_showNat (by omega)) htable
        fun k hk => hclock k (Nat.le_trans (Nat.le_succ _) hk)
      refine ⟨_, .more hpage ?_ (hnext ▸ hwalk), ?_⟩
      · rw [hnext]
        exact showNat_ne_empty _
      · rw [List.flatMap_cons, hpages, pageOf, ← List.drop_drop, List.take_append_drop]
    · refine ⟨_, .last hpage (if_neg hmore), ?_⟩
      rw [List.flatMap_singleton, pageOf]
      exact List.take_of_length_le (by rw [List.length_drop]; omega)

/-! ### The pages together -/

/-- A memo that a listing is to show: the viewer sees it, it is in the state, and the filter accepts
it. -/
def isWanted (viewer : Viewer) (state : Option MemoState) (filter : Compiled) (time : Int)
    (m : Memo) : Bool :=
  m.isVisibleTo viewer && m.state == state.getD .normal && filter.accepts m time

/-- The rows of a table that meet a condition, each once, the newest first. -/
structure IsListing (table : List Memo) (meets : Memo → Bool) (memos : List Memo) : Prop where
  rows : memos.Perm (table.filter meets)
  order : memos.Pairwise fun a b => MemoQuery.before .newestFirst a b

/-- Candidates that the filter accepts are the wanted memos that the store does not overlook. -/
theorem listed_isListing (time : Int) {table : List Memo}
    (hviewer : ∀ user, viewer = some user → 0 < user ∧ user ≤ maxInt64)
    (hfew : table.countP (listQuery viewer state filter).clause.holds ≤ Limit.candidates) :
    IsListing table
      (fun m => isWanted viewer state filter time m && !isOverlooked filter.prefilter m)
      (listed viewer state filter time table) := by
  constructor
  · have hrows := (listQuery_run_perm hviewer hfew).filter (filter.accepts · time)
    rw [List.filter_filter] at hrows
    have hmeets : ∀ m, (filter.accepts m time && (listQuery viewer state filter).clause.holds m)
        = (isWanted viewer state filter time m && !isOverlooked filter.prefilter m) := by
      intro m
      rw [listQuery_holds hviewer, isWanted]
      cases haccepts : filter.accepts m time with
      | false => simp
      | true =>
        rw [admittedBy_of_admits (Compiled.admits_of_accepts haccepts), Bool.true_and,
          Bool.and_true]
    rwa [List.filter_congr fun m _ => hmeets m] at hrows
  · exact listQuery_run_pairwise.filter _

theorem length_listed_le {table : List Memo} :
    (listed viewer state filter time table).length ≤ Limit.candidates := by
  refine Nat.le_trans (List.length_filter_le _ _) ?_
  rw [MemoQuery.run]
  split
  · exact Nat.zero_le _
  · exact List.length_take_le _ _

/-- Rows that are taken out of a listing are missing from it. -/
theorem IsListing.iff_of_and {table memos : List Memo} {meets spared : Memo → Bool}
    (h : IsListing table (fun m => meets m && spared m) memos) :
    IsListing table meets memos ↔ ∀ m ∈ table, meets m → spared m := by
  constructor
  · intro hall m hm hmeets
    have hmem : m ∈ memos := hall.rows.mem_iff.mpr (List.mem_filter.mpr ⟨hm, hmeets⟩)
    have hboth := (List.mem_filter.mp (h.rows.mem_iff.mp hmem)).2
    exact ((Bool.and_eq_true _ _).mp hboth).2
  · intro hspared
    refine ⟨?_, h.order⟩
    have hsame : table.filter (fun m => meets m && spared m) = table.filter meets := by
      refine List.filter_congr fun m hm => ?_
      cases hmeets : meets m with
      | false => rfl
      | true => rw [hspared m hm hmeets, Bool.and_true]
    exact hsame ▸ h.rows

/-- The pages from the empty token on are the listing. -/
theorem walk_listed (viewer : Viewer) (state : Option MemoState) (wanted : Int)
    (hfilter : compileGuarded source = .ok filter)
    (hclock : ∀ k, s.looks ≤ k → (s.source.time k).seconds = time) :
    ∃ pages, Walk viewer state source wanted "" s pages
      ∧ pages.flatMap (·.memos) = listed viewer state filter time s.database.memos := by
  have hlimit : Limit.candidates ≤ maxNat64 := by decide
  exact exists_walk wanted hfilter (Nat.le_trans length_listed_le hlimit) 0 "" s rfl rfl hclock

/-- **The pages of a listing together.** The way through the pages ends, and what it gives is the
wanted memos that the store does not overlook; so it is all that are wanted exactly if none of them
is overlooked. -/
theorem listMemos_pages (viewer : Viewer) (state : Option MemoState) (source : String)
    (wanted : Int) {filter : Compiled} {time : Int} {s : State}
    (hviewer : ∀ user, viewer = some user → 0 < user ∧ user ≤ maxInt64)
    (hfilter : compileGuarded source = .ok filter)
    (hclock : ∀ k, s.looks ≤ k → (s.source.time k).seconds = time)
    (hfew : s.database.memos.countP (listQuery viewer state filter).clause.holds
      ≤ Limit.candidates) :
    (∃ pages, Walk viewer state source wanted "" s pages)
      ∧ ∀ pages, Walk viewer state source wanted "" s pages →
        IsListing s.database.memos
            (fun m => isWanted viewer state filter time m && !isOverlooked filter.prefilter m)
            (pages.flatMap (·.memos))
          ∧ (IsListing s.database.memos (isWanted viewer state filter time)
              (pages.flatMap (·.memos))
            ↔ ∀ m ∈ s.database.memos, isWanted viewer state filter time m →
              isOverlooked filter.prefilter m = false) := by
  obtain ⟨pages, hwalk, hpages⟩ := walk_listed viewer state wanted hfilter hclock
  refine ⟨⟨pages, hwalk⟩, fun pages' hwalk' => ?_⟩
  have hlisting := listed_isListing time hviewer hfew
  rw [hwalk.unique hwalk', hpages]
  refine ⟨hlisting, ?_⟩
  rw [hlisting.iff_of_and]
  simp only [Bool.not_eq_true']

end

/-- A server with one memo, whose clock stands still. -/
def quietServer (m : Memo) : State :=
  { database := { memos := [m] }, source := ⟨fun _ => .epoch, fun _ _ => ""⟩ }

theorem quietServer_few (m : Memo) (q : Clause) :
    (quietServer m).database.memos.countP q.holds ≤ Limit.candidates :=
  Nat.le_trans List.countP_le_length (show 1 ≤ 10000 by decide)

/-- A filter that can be compiled and then meets a condition. -/
theorem compiles_of_any {source : String} {meets : Compiled → Bool}
    (h : (compileGuarded source).toOption.any meets) :
    ∃ filter, compileGuarded source = .ok filter ∧ meets filter := by
  cases hfilter : compileGuarded source with
  | ok filter =>
    rw [hfilter] at h
    exact ⟨filter, rfl, h⟩
  | error fault =>
    rw [hfilter] at h
    cases h

theorem wanted_of_any {source : String} (viewer : Viewer) (m : Memo) (isOver : Bool)
    (h : (compileGuarded source).toOption.any (fun f =>
      isWanted viewer none f 0 m && isOverlooked f.prefilter m == isOver)) :
    ∃ filter, compileGuarded source = .ok filter ∧ isWanted viewer none filter 0 m = true
      ∧ isOverlooked filter.prefilter m = isOver := by
  obtain ⟨filter, hfilter, hmeets⟩ := compiles_of_any h
  obtain ⟨hwanted, hover⟩ := Bool.and_eq_true_iff.mp hmeets
  exact ⟨filter, hfilter, hwanted, beq_iff_eq.mp hover⟩

/-- A user reads the memos with a tag that starts as asked. -/
theorem listMemos_pages_plannedMemo :
    let source := "tags.exists(t, t.startsWith(\"wo\")) && pinned == false"
    ∃ pages, Walk (some 7) none source 1 "" (quietServer plannedMemo) pages
      ∧ pages.flatMap (·.memos) = [plannedMemo] := by
  intro source
  obtain ⟨filter, hfilter, hwanted, hover⟩ : ∃ filter, compileGuarded source = .ok filter
      ∧ isWanted (some 7) none filter 0 plannedMemo = true
      ∧ isOverlooked filter.prefilter plannedMemo = false :=
    wanted_of_any (some 7) plannedMemo false (by decide +kernel)
  have hviewer : ∀ user : UserId, some 7 = some user → 0 < user ∧ user ≤ maxInt64 := by
    rintro _ ⟨⟩
    decide
  have hclock : ∀ k, (quietServer plannedMemo).looks ≤ k →
      ((quietServer plannedMemo).source.time k).seconds = 0 := fun k _ => rfl
  obtain ⟨⟨pages, hwalk⟩, hpages⟩ := listMemos_pages (some 7) none source 1 hviewer hfilter hclock
    (quietServer_few plannedMemo _)
  have hrows := (hpages pages hwalk).1.rows
  have hone : (quietServer plannedMemo).database.memos.filter (fun m =>
      isWanted (some 7) none filter 0 m && !isOverlooked filter.prefilter m) = [plannedMemo] := by
    rw [quietServer, List.filter_cons_of_pos (by rw [hwanted, hover]; rfl), List.filter_nil]
  rw [hone, List.perm_singleton] at hrows
  exact ⟨pages, hwalk, hrows⟩

/-- A memo whose tag holds a null character. -/
def nullTagged : Memo :=
  { plannedMemo with tags := ["a\x00c/d"] }

/-- The only memo is wanted, and it is on no page: the store measures the text that the tag is to
start with up to the null character. -/
theorem listing_overlooks_nullTagged :
    let source := "tags.exists(t, t.startsWith(\"a\x00\"))"
    ∃ filter, compileGuarded source = .ok filter ∧ isWanted (some 7) none filter 0 nullTagged
      ∧ ∃ pages, Walk (some 7) none source 0 "" (quietServer nullTagged) pages
        ∧ pages.flatMap (·.memos) = [] := by
  intro source
  obtain ⟨filter, hfilter, hwanted, hover⟩ : ∃ filter, compileGuarded source = .ok filter
      ∧ isWanted (some 7) none filter 0 nullTagged = true
      ∧ isOverlooked filter.prefilter nullTagged = true :=
    wanted_of_any (some 7) nullTagged true (by decide +kernel)
  have hviewer : ∀ user : UserId, some 7 = some user → 0 < user ∧ user ≤ maxInt64 := by
    rintro _ ⟨⟩
    decide
  have hclock : ∀ k, (quietServer nullTagged).looks ≤ k →
      ((quietServer nullTagged).source.time k).seconds = 0 := fun k _ => rfl
  obtain ⟨pages, hwalk, hpages⟩ := walk_listed (some 7) none 0 hfilter hclock
  have hrows : (listed (some 7) none filter 0 (quietServer nullTagged).database.memos).Perm _ :=
    (listed_isListing 0 hviewer (quietServer_few nullTagged _)).rows
  have hnone : (quietServer nullTagged).database.memos.filter (fun m =>
      isWanted (some 7) none filter 0 m && !isOverlooked filter.prefilter m) = [] := by
    rw [quietServer, List.filter_cons_of_neg (by rw [hwanted, hover]; decide), List.filter_nil]
  rw [hnone, List.perm_nil] at hrows
  exact ⟨filter, hfilter, hwanted, pages, hwalk, hpages.trans hrows⟩

end SharedMemos.Server
