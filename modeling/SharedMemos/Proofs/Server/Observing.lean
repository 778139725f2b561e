import SharedMemos.Proofs.Server.Comparison
import SharedMemos.Proofs.Server.Holdings

/-!
# Steps that observe

A quiet step may draw names, and what it leaves of the store is only told for the objects. Where it
has to be said that a request succeeds, more of the state matters: the next name, the calls that the
store fails, the uploads that it knows. Steps that *observe* leave all of it. What they do leave
behind is told by name: the storage setting that is written down where there is none, the client of
a bucket, and the keys that the store has been asked for.

Nothing that such steps leave behind makes a difference to what is found out later, or to where an
object is placed: those attempts are *unswayed*. The last part says when steps succeed, and what
they find.

## Main definitions

* `Footprint.observing` — steps that observe
* `IsUnswayed` — attempts to which it makes no difference
* `State.ReachesStore` — the server is tied to a store and gets to it

## Main results

* `storageSetting_observing`, `backendFor_observing`, `listParts_observing`, `head_observing`,
  `open_observing`, `exists?_observing` — the steps
* `reusableKey_unswayed`, `freeKey_unswayed`, `putStream_unswayed` — keys and objects
* `State.ReachesStore.exec_clientStore`, `exec_listParts`, `exec_signPart` — what they find
-/

namespace SharedMemos

open SharedMemos.Storage SharedMemos.Upload

/-! ### The store -/

namespace Storage.ObjectStore

variable {α : Type} {s : ObjectStore} {key : String}

/-- The store with other keys that it has been asked for. -/
def withSeen (s : ObjectStore) (seen : List String) : ObjectStore :=
  { s with seen := seen }

theorem see_eq (s : ObjectStore) (key : String) :
    s.see key = { s with seen := (s.see key).seen } := by
  rw [see]
  split <;> rfl

theorem failure?_see (call : Call) : (s.see key).failure? call = s.failure? call := by
  rw [failure?, see_failures, failure?]

/-- A call that works acts. -/
theorem call_of_works {what : Call} {act : ObjectStore → Except Error α × ObjectStore}
    (h : s.failure? what = none) : s.call what key act = act (s.see key) := by
  have hsee : (s.see key).failure? what = none := (failure?_see what).trans h
  rw [«call», hsee]

/-- A call that fails only notes the key. -/
theorem call_of_fails {what : Call} {act : ObjectStore → Except Error α × ObjectStore} {e : Error}
    (h : s.failure? what = some e) : s.call what key act = (.error e, s.see key) := by
  have hsee : (s.see key).failure? what = some e := (failure?_see what).trans h
  rw [«call», hsee]

/-- A call whose act changes nothing only notes the key. -/
theorem call_seen {what : Call} {act : ObjectStore → Except Error α × ObjectStore}
    (h : ∀ s, (act s).2 = s) : (s.call what key act).2 = s.see key := by
  rcases call_cases s what key act with ⟨e, hcall⟩ | hcall
  · rw [hcall]
  · rw [hcall, h]

/-- A call whose act ends no upload ends none. -/
theorem call_outcomes {what : Call} {act : ObjectStore → Except Error α × ObjectStore}
    (h : ∀ s, (act s).2.outcomes = s.outcomes) :
    (s.call what key act).2.outcomes = s.outcomes := by
  have hsee : (s.see key).outcomes = s.outcomes := (congrArg outcomes (see_eq s key) :)
  rcases call_cases s what key act with ⟨e, hcall⟩ | hcall
  · rw [hcall]
    exact hsee
  · rw [hcall, h]
    exact hsee

end Storage.ObjectStore

namespace Server

open Attempt

variable {α : Type} {s t : State}

/-! ### The footprint -/

/-- The state with other settings, another choice of stores and other keys that the store has been
asked for. -/
def State.observed (s : State) (settings : List (String × String)) (resolver : Resolver)
    (seen : List String) : State :=
  { s with
    database := { s.database with settings := settings }
    resolver := resolver
    store := { s.store with seen := seen } }

@[simp] theorem State.observed_observed (settings settings' : List (String × String))
    (resolver resolver' : Resolver) (seen seen' : List String) :
    (s.observed settings resolver seen).observed settings' resolver' seen'
      = s.observed settings' resolver' seen' := rfl

/-- Steps that find something out and draw no names. -/
def Footprint.observing : Footprint State where
  rel s t := ∃ settings resolver seen,
    resolver.isTied = s.resolver.isTied ∧ t = s.observed settings resolver seen
  refl s := ⟨s.database.settings, s.resolver, s.store.seen, rfl, rfl⟩
  trans := by
    rintro s t u ⟨settings, resolver, seen, htied, rfl⟩ ⟨settings', resolver', seen', htied', rfl⟩
    exact ⟨settings', resolver', seen', htied'.trans htied, rfl⟩

/-- The attempt only observes. -/
abbrev IsObserving (a : Action α) : Prop :=
  a.Within Footprint.observing

section

variable (h : Footprint.observing.rel s t)
include h

theorem quiet_of_observing : Footprint.quiet.rel s t := by
  obtain ⟨settings, resolver, seen, htied, rfl⟩ := h
  refine ⟨?_, Nat.le_refl _⟩
  show { s.holdings with isTied := resolver.isTied } = s.holdings
  rw [htied]
  rfl

theorem isTied_of_observing : t.resolver.isTied = s.resolver.isTied := by
  obtain ⟨settings, resolver, seen, htied, rfl⟩ := h
  exact htied

theorem draws_of_observing : t.draws = s.draws := by
  obtain ⟨settings, resolver, seen, -, rfl⟩ := h
  rfl

theorem scratch?_of_observing (path : String) : t.scratch? path = s.scratch? path := by
  obtain ⟨settings, resolver, seen, -, rfl⟩ := h
  rfl

theorem failure?_of_observing (what : Call) : t.store.failure? what = s.store.failure? what := by
  obtain ⟨settings, resolver, seen, -, rfl⟩ := h
  rfl

theorem upload?_of_observing (upload : String) :
    t.store.upload? upload = s.store.upload? upload := by
  obtain ⟨settings, resolver, seen, -, rfl⟩ := h
  rfl

end

theorem query_observing (f : Database → α) : IsObserving (query f) := Within.look _

theorem transact_observing {t : Transaction α}
    (h : ∀ d a d', t.run d = .ok (a, d') → d' = { d with settings := d'.settings }) :
    IsObserving (transact t) := by
  intro s
  rw [transact, exec_atomic]
  cases hrun : t.run s.database with
  | error e => exact Footprint.refl _ s
  | ok p =>
    obtain ⟨a, d⟩ := p
    refine ⟨d.settings, s.resolver, s.store.seen, rfl, ?_⟩
    show { s with database := d }
      = { s with database := { s.database with settings := d.settings } }
    rw [← h _ _ _ hrun]

theorem storageSetting_observing : IsObserving storageSetting := by
  refine Within.bind (Within.look _) fun text => ?_
  cases text with
  | some text => exact Within.ofExcept _
  | none =>
    refine Within.bind (transact_observing ?_) fun _ => Within.bind (Within.look _) fun text => ?_
    · exact fun d _ d' hrun => Database.run_initSetting hrun
    · cases text with
      | some text => exact Within.ofExcept _
      | none => exact Within.pure _

theorem backendFor_observing (kind : Kind) (setting : Setting) :
    IsObserving (backendFor kind setting) := fun s =>
  ⟨s.database.settings, (s.resolver.forKind kind setting).2, s.store.seen,
    Resolver.forKind_isTied _ _ _, rfl⟩

theorem onDisk_observing {f : Tree → Except Error α × Tree} (h : ∀ t, (f t).2 = t) :
    IsObserving (onDisk f) := by
  intro s
  refine ⟨s.database.settings, s.resolver, s.store.seen, rfl, ?_⟩
  show { s with disk := (f s.disk).2 } = s
  rw [h]

theorem onStore_observing {f : ObjectStore → Except Error α × ObjectStore}
    (h : ∀ s, (f s).2 = { s with seen := (f s).2.seen }) : IsObserving (onStore f) := fun s =>
  ⟨s.database.settings, s.resolver, (f s.store).2.seen, rfl, by
    show { s with store := (f s.store).2 } = { s with store := { s.store with seen := _ } }
    rw [← h]⟩

/-- A call on the store whose act changes nothing observes. -/
theorem call_observing {what : Call} {key : String}
    {act : ObjectStore → Except Error α × ObjectStore} (h : ∀ s, (act s).2 = s) :
    IsObserving (onStore fun s => s.call what key act) :=
  onStore_observing fun s => by
    rw [ObjectStore.call_seen h]
    exact ObjectStore.see_eq s key

theorem head_observing (b : Backend) (key : String) : IsObserving (b.head key) := by
  cases b with
  | disk => exact Within.throw _
  | bucket c => exact Within.throw _
  | tied => exact call_observing fun s => by split <;> rfl

theorem open_observing (b : Backend) (key : String) : IsObserving (b.open key) := by
  cases b with
  | disk =>
    show IsObserving (onDisk fun t => (Disk.open t key, t))
    exact onDisk_observing fun _ => rfl
  | bucket c => exact Within.throw _
  | tied => exact call_observing fun s => by split <;> rfl

theorem exists?_observing (b : Backend) (key : String) : IsObserving (b.exists? key) := by
  cases b with
  | disk =>
    show IsObserving (onDisk fun t => (Disk.exists? t key, t))
    exact onDisk_observing fun _ => rfl
  | bucket c => exact Within.throw _
  | tied =>
    show IsObserving (onStore fun s => s.exists? key)
    refine onStore_observing fun s => ?_
    rw [ObjectStore.exists?]
    split
    · rfl
    · exact ObjectStore.see_eq s key

theorem listParts_observing (b : Backend) (key upload : String) :
    IsObserving (b.listParts key upload) := by
  cases b with
  | disk => exact Within.throw _
  | bucket c => exact Within.throw _
  | tied => exact call_observing fun s => by split <;> rfl

theorem signPart_observing (b : Backend) (key upload : String) (number : Int) (lifetime : Nat) :
    IsObserving (b.signPart key upload number lifetime) := by
  cases b with
  | disk => exact Within.throw _
  | bucket c => exact Within.ofExcept _
  | tied => exact call_observing fun _ => rfl

/-! ### What is found out again -/

/-- Steps that observe do not change what is found out later. -/
abbrev IsUnswayed (a : Action α) : Prop :=
  a.Mirrors Footprint.observing.rel

theorem query_unswayed {f : Database → α}
    (h : ∀ d settings, f { d with settings := settings } = f d) : IsUnswayed (query f) := by
  refine .look ?_
  rintro s _ ⟨settings, resolver, seen, -, rfl⟩
  exact (h _ _).symm

theorem drawName_unswayed (length : Nat) : IsUnswayed (drawName length) := by
  rintro s _ ⟨settings, resolver, seen, htied, rfl⟩
  exact ⟨rfl, settings, resolver, seen, htied, rfl⟩

theorem onDisk_unswayed (f : Tree → Except Error α × Tree) : IsUnswayed (onDisk f) := by
  rintro s _ ⟨settings, resolver, seen, htied, rfl⟩
  exact ⟨rfl, settings, resolver, seen, htied, rfl⟩

/-- What is done to a store has nothing to do with the keys that it has been asked for. -/
def IsBlind (f : ObjectStore → Except Error α × ObjectStore) : Prop :=
  ∀ (s : ObjectStore) seen, (f (s.withSeen seen)).1 = (f s).1
    ∧ ∃ seen', (f (s.withSeen seen)).2 = (f s).2.withSeen seen'

theorem onStore_unswayed {f : ObjectStore → Except Error α × ObjectStore} (h : IsBlind f) :
    IsUnswayed (onStore f) := by
  rintro s _ ⟨settings, resolver, seen, htied, rfl⟩
  obtain ⟨hresult, seen', hafter⟩ := h s.store seen
  refine ⟨hresult.symm, settings, resolver, seen', htied, ?_⟩
  show { s.observed settings resolver seen with store := (f (s.store.withSeen seen)).2 } = _
  rw [hafter]
  rfl

theorem see_withSeen (s : ObjectStore) (seen : List String) (key : String) :
    (s.withSeen seen).see key = (s.see key).withSeen ((s.withSeen seen).see key).seen := by
  rw [ObjectStore.see_eq s, ObjectStore.see_eq (s.withSeen seen)]
  rfl

/-- Neither has noting that a key is asked for, before. -/
theorem IsBlind.see {f : ObjectStore → Except Error α × ObjectStore} (h : IsBlind f)
    (key : String) : IsBlind fun s => f (s.see key) := by
  intro s seen
  dsimp only
  rw [see_withSeen]
  exact h _ _

theorem call_unswayed {what : Call} {key : String}
    {act : ObjectStore → Except Error α × ObjectStore} (h : IsBlind act) :
    IsUnswayed (onStore fun s => s.call what key act) := by
  refine onStore_unswayed fun s seen => ?_
  have hfailure : (s.withSeen seen).failure? what = s.failure? what := rfl
  cases hcase : s.failure? what with
  | none =>
    rw [ObjectStore.call_of_works hcase, ObjectStore.call_of_works (hfailure.trans hcase)]
    exact h.see key s seen
  | some e =>
    rw [ObjectStore.call_of_fails hcase, ObjectStore.call_of_fails (hfailure.trans hcase)]
    exact ⟨rfl, _, see_withSeen s seen key⟩

theorem exists?_unswayed (b : Backend) (key : String) : IsUnswayed (b.exists? key) := by
  cases b with
  | disk =>
    show IsUnswayed (onDisk fun t => (Disk.exists? t key, t))
    exact onDisk_unswayed _
  | bucket c => exact .throw _
  | tied =>
    have hlook : IsBlind fun s : ObjectStore => (.ok (s.object? key).isSome, s) :=
      fun s seen => ⟨rfl, seen, rfl⟩
    show IsUnswayed (onStore fun s => s.exists? key)
    refine onStore_unswayed fun s seen => ?_
    have hall : (s.withSeen seen).saysAll = s.saysAll := rfl
    rw [ObjectStore.exists?, ObjectStore.exists?, hall]
    split
    · exact ⟨rfl, seen, rfl⟩
    · exact hlook.see key s seen

theorem putStream_unswayed (b : Backend) (key : String) (stream : Blob) (declared : Nat) :
    IsUnswayed (b.putStream key stream declared) := by
  cases b with
  | disk =>
    show IsUnswayed (onDisk fun t => Disk.putStream t key stream declared)
    exact onDisk_unswayed _
  | bucket c => exact .ofExcept _
  | tied => exact call_unswayed fun s seen => ⟨rfl, seen, rfl⟩

theorem reusableKey_unswayed (b : Backend) (user : UserId) (hash : String) :
    IsUnswayed (reusableKey b user hash) := by
  refine .bind (query_unswayed fun _ _ => rfl) fun existing => ?_
  split
  · exact .pure _
  · refine .bind (query_unswayed fun _ _ => rfl) fun count => ?_
    split
    · exact .pure _
    · refine .bind (exists?_unswayed b _) fun isThere => ?_
      split
      · exact .pure _
      · exact .pure _

theorem freeKey_unswayed (b : Backend) (filename : String) (attempts : Nat) :
    IsUnswayed (freeKey b filename attempts) := by
  induction attempts with
  | zero => exact .throw _
  | succ attempts ih =>
    refine .bind (drawName_unswayed _) fun name => ?_
    refine .bind (query_unswayed fun _ _ => rfl) fun isUsed => ?_
    split
    · exact ih
    · refine .bind (exists?_unswayed b _) fun isThere => ?_
      split
      · exact ih
      · exact .pure _

/-! ### What is found -/

/-- A session is found by the user who opened it. -/
theorem exec_ownSession {id : String} {x : Session} (h : s.database.session? id = some x) :
    (ownSession (some x.creator) id).exec s = (.ok x, s) := by
  have huser : (attachmentUser (some x.creator)).exec s = (.ok x.creator, s) := rfl
  have hquery : (query (·.session? id)).exec s = (.ok (s.database.session? id), s) := rfl
  have hown : (some x).filter (·.creator == x.creator) = some x :=
    Option.filter_eq_some_iff.mpr ⟨rfl, beq_self_eq_true _⟩
  rw [ownSession, exec_bind_of_ok huser, exec_bind_of_ok hquery, h, hown]
  rfl

/-- The server is tied to a store, and it can read its storage setting. -/
structure State.ReachesStore (s : State) : Prop where
  tied : s.resolver.isTied = true
  setting : ∃ setting, (storageSetting.exec s).1 = .ok setting

theorem exists_of_isOk {r : Except Error α} (h : r.isOk = true) : ∃ a, r = .ok a := by
  cases r with
  | error e => cases h
  | ok a => exact ⟨a, rfl⟩

theorem exec_backendFor_tied (htied : s.resolver.isTied = true) (kind : Kind) (setting : Setting) :
    (backendFor kind setting).exec s = (.ok .tied, s) := by
  simp only [backendFor, exec_atomic, Resolver.forKind, htied, if_true]

theorem exec_storageSetting (h : ∃ setting, (storageSetting.exec s).1 = .ok setting) :
    ∃ setting t, storageSetting.exec s = (.ok setting, t) ∧ Footprint.observing.rel s t := by
  obtain ⟨setting, hsetting⟩ := h
  exact ⟨setting, _, Prod.ext hsetting rfl, storageSetting_observing s⟩

/-- The server gets to its store. -/
theorem State.ReachesStore.exec_clientStore (h : s.ReachesStore) :
    ∃ t, clientStore.exec s = (.ok .tied, t) ∧ Footprint.observing.rel s t := by
  obtain ⟨setting, t, hexec, hrel⟩ := exec_storageSetting h.setting
  have htied : t.resolver.isTied = true := by
    obtain ⟨_, resolver, _, hsame, rfl⟩ := hrel
    exact hsame.trans h.tied
  exact ⟨t, (exec_bind_of_ok hexec).trans (exec_backendFor_tied htied .bucket setting), hrel⟩

/-- The store tells the parts of an upload that it knows. -/
theorem exec_listParts (key : String) {upload : String} {u : PendingUpload}
    (hworks : s.store.failure? .listParts = none) (hupload : s.store.upload? upload = some u) :
    ∃ t, (Backend.tied.listParts key upload).exec s = (.ok u.parts, t)
      ∧ Footprint.observing.rel s t := by
  refine ⟨_, Prod.ext ?_ rfl, listParts_observing .tied key upload s⟩
  show (s.store.listParts key upload).1 = .ok u.parts
  have hsee : (s.store.see key).upload? upload = some u := by
    rw [ObjectStore.upload?, ObjectStore.see_uploads]
    exact hupload
  rw [ObjectStore.listParts, ObjectStore.call_of_works hworks, hsee]

/-- The store signs an address for a part. -/
theorem exec_signPart (key upload : String) (number : Int) (lifetime : Nat)
    (hworks : s.store.failure? .signPart = none) :
    ∃ address t, (Backend.tied.signPart key upload number lifetime).exec s = (.ok address, t)
      ∧ Footprint.observing.rel s t := by
  have hresult : (s.store.signPart key upload number lifetime).1 = .ok _ :=
    congrArg Prod.fst (ObjectStore.call_of_works hworks)
  exact ⟨_, _, Prod.ext hresult rfl, signPart_observing .tied key upload number lifetime s⟩

/-- A kind of statement is only refused where it has been made to fail. -/
theorem Database.mishap?_of_allows_error {d : Database} {table : Table} {writing : Writing}
    {e : Error} (h : (allows table writing).run d = .error e) :
    d.mishap? table writing = some .fails := by
  rw [allows] at h
  rw [run_bind_eq_error] at h
  rcases h with h | ⟨_, _, hget, h⟩
  · cases h
  · obtain ⟨rfl, rfl⟩ := run_get_eq_ok.mp hget
    split at h
    · cases h
    · cases h
    · assumption

theorem Database.mishap?_of_changeSession_error {d : Database} {id : String}
    {condition : Session → Bool} {change : Session → Session} {e : Error}
    (h : (changeSession id condition change).run d = .error e) :
    d.mishap? .session .update = some .fails := by
  rw [changeSession] at h
  dsimp only at h
  rw [run_bind_eq_error] at h
  rcases h with h | ⟨_, _, hget, h⟩
  · cases h
  · obtain ⟨rfl, rfl⟩ := run_get_eq_ok.mp hget
    split at h
    · cases h
    · rw [run_bind_eq_error] at h
      rcases h with h | ⟨_, _, -, h⟩
      · exact mishap?_of_allows_error h
      · split at h
        · cases h
        · rw [run_bind_eq_error] at h
          rcases h with h | ⟨_, _, -, h⟩ <;> cases h

/-- A statement on a session that does not fail is carried out, or passes the row over. -/
theorem exec_changeSession (id : String) (condition : Session → Bool)
    (change : Instant → Session → Session)
    (hworks : s.database.mishap? .session .update ≠ some .fails) :
    ∃ isDone t, (transactNow fun time => Database.changeSession id condition (change time)).exec s
      = (.ok isDone, t) := by
  rcases hexec : (transactNow fun time => Database.changeSession id condition (change time)).exec s
    with ⟨e | isDone, t⟩
  · obtain ⟨time, hrun, -⟩ := exec_transactNow_error hexec
    exact absurd (Database.mishap?_of_changeSession_error hrun) hworks
  · exact ⟨isDone, t, rfl⟩

end Server

end SharedMemos
