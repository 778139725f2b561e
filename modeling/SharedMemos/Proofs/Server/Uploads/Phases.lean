import SharedMemos.Proofs.Server.Runs
import SharedMemos.Proofs.Server.Schedules
import SharedMemos.Proofs.Storage.Absence

/-!
# Phases of closing an upload

An upload of one object by its client is closed by completing it, by cancelling it, or by the sweep
when it has expired. Each of them goes on in steps, and what it has found out in one step may no
longer be so in the next. Two of its steps matter to the object: completing adds a row once the
object was found, and giving up removes the object once no row was found. In between, a request is
*adding* or *removing*, and bound to go on to its step; otherwise it is *calm*. All other steps are
gentle: they neither add a row nor touch what is stored, but for thumbnails.

Whether a job conforms to this is said of all states that it may be taken on from, since others work
on the state between its steps. Parts of requests are put together as they stand in a request: a
part leads from one phase to others, depending on how it ends, whatever comes after it (`Leads`).

## Main definitions

* `State.Hosts` — a server with an upload of one object under way
* `Gentle` — steps that do not matter
* `Phase`, `Moves` — how far a request is, and what its steps do
* `IsAdding`, `IsRemoving` — bound to add a row, or to remove an object
* `Conforms` — each step of a job is one of its phase
* `Leads` — what a part of a request leads to

## Main results

* `Conforms.of_step` — one step of a job
* `Leads.bind` — one part after the other
* `Leads.atomic`, `Leads.gentle` — single steps
-/

namespace SharedMemos.Server

open Attempt SharedMemos.Storage SharedMemos.Upload

/-! ### What steps keep -/

/-- Where the objects of attachments are. -/
def State.places (s : State) : List (Kind × String) :=
  s.database.attachments.map fun a => (a.storage, a.storageKey)

/-- A server that is tied to a store which removes what it is told to, and that can read its
setting. An upload called `id`, if there is one, is that of one object at a key. -/
structure State.Hosts (id key : String) (s : State) : Prop where
  tied : s.resolver.isTied = true
  setting : ∃ text, s.database.setting? storageSettingName = some text
    ∧ (Setting.ofText text).isOk = true
  removes : s.store.failure? .delete = none
  upload : ∀ x ∈ s.database.sessions, x.id = id → x.target = .direct key ∧ 0 < x.size

/-- What every step of closing an upload leaves alone. No upload is opened. -/
structure State.Keeps (s t : State) : Prop where
  disk : t.disk = s.disk
  tied : t.resolver.isTied = s.resolver.isTied
  settings : t.database.settings = s.database.settings
  failures : t.store.failures = s.store.failures
  sessions : t.database.sessions ⊆ s.database.sessions

/-- A step that leaves attachments where they are, loses no object, and stores none at the key. -/
structure Gentle (key : String) (s t : State) : Prop extends s.Keeps t where
  places : t.places = s.places
  kept : ∀ other, (s.store.object? other).isSome → (t.store.object? other).isSome
  gone : s.store.object? key = none → t.store.object? key = none

section

variable {id key : String} {s t : State}

theorem State.Keeps.hosts (h : s.Keeps t) (hs : s.Hosts id key) : t.Hosts id key where
  tied := h.tied.trans hs.tied
  setting := by
    rw [Database.setting?, h.settings]
    exact hs.setting
  removes := by
    rw [ObjectStore.failure?, h.failures]
    exact hs.removes
  upload x hx := hs.upload x (h.sessions hx)

theorem Gentle.refl (key : String) (s : State) : Gentle key s s where
  disk := rfl
  tied := rfl
  settings := rfl
  failures := rfl
  sessions _ := id
  places := rfl
  kept _ := id
  gone := id

/-- A step that touches neither the database nor anything stored. -/
theorem Gentle.of_same (hdatabase : t.database = s.database) (hstore : t.store = s.store)
    (hdisk : t.disk = s.disk) (htied : t.resolver.isTied = s.resolver.isTied) :
    Gentle key s t where
  disk := hdisk
  tied := htied
  settings := by rw [hdatabase]
  failures := by rw [hstore]
  sessions := by
    rw [hdatabase]
    exact List.Subset.refl _
  places := by rw [State.places, State.places, hdatabase]
  kept other := by
    rw [hstore]
    exact id
  gone := by
    rw [hstore]
    exact id

/-- A step that writes to the database. -/
theorem Gentle.of_database {d : Database}
    (hplaces : ({ s with database := d } : State).places = s.places)
    (hsettings : d.settings = s.database.settings) (hsessions : d.sessions ⊆ s.database.sessions) :
    Gentle key s { s with database := d } where
  disk := rfl
  tied := rfl
  settings := hsettings
  failures := rfl
  sessions := hsessions
  places := hplaces
  kept _ := id
  gone := id

/-- A call of the store. -/
theorem Gentle.of_store {store : ObjectStore} (hfailures : store.failures = s.store.failures)
    (hkept : ∀ other, (s.store.object? other).isSome → (store.object? other).isSome)
    (hgone : s.store.object? key = none → store.object? key = none) :
    Gentle key s { s with store := store } where
  disk := rfl
  tied := rfl
  settings := rfl
  failures := hfailures
  sessions := List.Subset.refl _
  places := rfl
  kept := hkept
  gone := hgone

/-- A call of the store that leaves all objects alone. -/
theorem Gentle.of_objects {store : ObjectStore} (hfailures : store.failures = s.store.failures)
    (hobjects : store.objects = s.store.objects) : Gentle key s { s with store := store } :=
  .of_store hfailures (fun other h => by rwa [ObjectStore.object?_of_objects hobjects])
    fun h => by rwa [ObjectStore.object?_of_objects hobjects]

end

/-! ### Phases -/

/-- How far a request is. -/
inductive Phase where
  | calm
  /-- The object has been found, and a row is to be added. -/
  | adding
  /-- No row was found for a key, and the object there is to be removed. -/
  | removing (key : String)

/-- Adding a row whose object is at a key. -/
def IsAddition (key : String) (change : State → State) : Prop :=
  ∃ a : Attachment, a.storage = .bucket ∧ a.storageKey = key
    ∧ change = fun s => ((transact (Database.insertAttachment a)).exec s).2

/-- Removing the object at a key. -/
def IsRemoval (key : String) (change : State → State) : Prop :=
  change = fun s => ((Backend.tied.delete key).exec s).2

section

variable {α : Type} (id key : String)

/-- Is the job bound to add a row whose object is at the key? -/
def IsAdding (j : Job State α) : Prop :=
  j.ComesTo (State.Hosts id key) (IsAddition key)

/-- Is the job bound to remove the object at a key? -/
def IsRemoving (k : String) (j : Job State α) : Prop :=
  j.ComesTo (State.Hosts id key) (IsRemoval k)

/-- What a job in a phase is bound to do. -/
def Phase.Binds (j : Job State α) : Phase → Prop
  | .calm => True
  | .adding => IsAdding id key j
  | .removing k => IsRemoving id key k j

variable (s t : State)

/-- What a step does that leads from one phase to another. -/
inductive Moves : Phase → Phase → Prop where
  | gentle (p : Phase) (h : Gentle key s t) : Moves p p
  | find (h : Gentle key s t) (hthere : (t.store.object? key).isSome) : Moves .calm .adding
  | miss (k : String) (h : Gentle key s t) (hfree : ∀ x ∈ t.places, x.2 ≠ k) :
      Moves .calm (.removing k)
  | add (h : s.Keeps t) (hobjects : t.store.objects = s.store.objects)
      (hplaces : t.places = s.places ∨ t.places = (.bucket, key) :: s.places) : Moves .adding .calm
  | remove (k : String) (h : s.Keeps t) (hplaces : t.places = s.places)
      (hgone : t.store.object? k = none)
      (hothers : ∀ other, other ≠ k → t.store.object? other = s.store.object? other) :
      Moves (.removing k) .calm

/-- Each step of the job, taken where the server hosts the upload, is one of the job's phase, and a
job that is done is calm. -/
inductive Conforms : Phase → Job State α → Prop where
  | done (r : α) : Conforms .calm (.done r)
  | step {p : Phase} {change : State → State} {next : State → Job State α} (q : State → Phase)
      (hbinds : p.Binds id key (.step change next))
      (hmoves : ∀ s, s.Hosts id key → Moves key s (change s) p (q s))
      (hrest : ∀ s, s.Hosts id key → Conforms (q s) (next s)) :
      Conforms p (.step change next)

end

section

variable {α β : Type} {id key k : String} {s t : State} {p q : Phase} {j : Job State α}

theorem Moves.keeps (h : Moves key s t p q) : s.Keeps t := by
  cases h with
  | gentle _ h | find h | miss _ h => exact h.toKeeps
  | add h | remove _ h => exact h

/-- What is gone is not stored again. -/
theorem Moves.gone (h : Moves key s t p q) (hgone : s.store.object? key = none) :
    t.store.object? key = none := by
  cases h with
  | gentle _ h | find h | miss _ h => exact h.gone hgone
  | add _ hobjects =>
    rw [ObjectStore.object?_of_objects hobjects]
    exact hgone
  | remove k _ _ hk hothers =>
    by_cases hsame : key = k
    · rwa [hsame]
    · exact (hothers key hsame).trans hgone

theorem Conforms.binds (h : Conforms id key p j) : p.Binds id key j := by
  cases h with
  | done => trivial
  | step _ hbinds => exact hbinds

theorem Conforms.of_step {change : State → State} {next : State → Job State α}
    (h : Conforms id key p (.step change next)) (hs : s.Hosts id key) :
    ∃ q, Moves key s (change s) p q ∧ Conforms id key q (next s) := by
  cases h with
  | step q _ hmoves hrest => exact ⟨q s, hmoves s hs, hrest s hs⟩

/-- A store that works removes what it is told to, and nothing else. -/
theorem moves_delete (hs : s.Hosts id key) (k : String) :
    Moves key s ((Backend.tied.delete k).exec s).2 (.removing k) .calm :=
  .remove k ⟨rfl, rfl, rfl, ObjectStore.delete_failures, List.Subset.refl _⟩ rfl
    (ObjectStore.object?_delete_self hs.removes) fun _ => ObjectStore.object?_delete_of_ne

end

/-! ### Parts of requests -/

section

variable {α : Type} (id key : String)

/-- A part of a request that is begun in a phase conforms, and `post` says with which results it may
come to an end in which phase. Whatever follows it has to conform from there on. -/
def Leads (p : Phase) (a : Action α) (post : Except Error α → Phase → Prop) : Prop :=
  ∀ (β : Type) (f : Except Error α → Job State β),
    (∀ r q, post r q → Conforms id key q (f r)) → Conforms id key p ((ExceptT.run a).bind f)

end

/-- The part ends calmly, and if it succeeds its result is as `found` says. -/
def Calmly {α : Type} (found : α → Prop) (r : Except Error α) (q : Phase) : Prop :=
  q = .calm ∧ ∀ x, r = .ok x → found x

theorem Calmly.ok {α : Type} {found : α → Prop} {x : α} (h : found x) :
    Calmly found (.ok x) .calm :=
  ⟨rfl, by rintro _ ⟨⟩; exact h⟩

theorem Calmly.error {α : Type} (found : α → Prop) (e : Error) :
    Calmly found (.error e) .calm :=
  ⟨rfl, nofun⟩

/-- The part succeeds, with a result as `found` says, and ends in a phase. -/
def Surely {α : Type} (p : Phase) (found : α → Prop) (r : Except Error α) (q : Phase) : Prop :=
  q = p ∧ ∃ x, r = .ok x ∧ found x

namespace Leads

variable {α β : Type} {id key : String} {p q : Phase} {a : Action α} {f : α → Action β}
  {g : State → Except Error α × State} {mid post : Except Error α → Phase → Prop}
  {post' : Except Error β → Phase → Prop} {found : α → Prop} {found' : β → Prop}

theorem mono (h : Leads id key p a mid) (himp : ∀ r q, mid r q → post r q) :
    Leads id key p a post :=
  fun β f hf => h β f fun r q hmid => hf r q (himp r q hmid)

/-- **One part after the other.** A failure ends the request. -/
theorem bind (h : Leads id key p a mid) (hok : ∀ x q, mid (.ok x) q → Leads id key q (f x) post')
    (herror : ∀ e q, mid (.error e) q → post' (.error e) q) : Leads id key p (a >>= f) post' := by
  intro γ g hg
  show Conforms id key p (Job.bind (Job.bind (ExceptT.run a) (ExceptT.bindCont f)) g)
  rw [Job.bind_assoc]
  refine h γ _ fun r q hmid => ?_
  cases r with
  | ok x => exact hok x q hmid γ g hg
  | error e => exact hg _ _ (herror e q hmid)

theorem bind_calmly (h : Leads id key p a (Calmly found))
    (hf : ∀ x, found x → Leads id key .calm (f x) (Calmly found')) :
    Leads id key p (a >>= f) (Calmly found') := by
  refine h.bind ?_ ?_
  · rintro x q ⟨rfl, hx⟩
    exact hf x (hx x rfl)
  · rintro e q ⟨rfl, -⟩
    exact .error found' e

theorem bind_surely (h : Leads id key p a (Surely q found))
    (hf : ∀ x, found x → Leads id key q (f x) post') : Leads id key p (a >>= f) post' := by
  refine h.bind ?_ ?_
  · rintro x q ⟨rfl, _, ⟨⟩, hx⟩
    exact hf x hx
  · rintro e q ⟨-, _, ⟨⟩, -⟩

/-- An outcome that is known. -/
theorem ofExcept {r : Except Error α} (h : post r p) :
    Leads id key p (Attempt.ofExcept r) post :=
  fun _ _ hf => hf r p h

theorem ofExcept_calmly (r : Except Error α) :
    Leads id key .calm (Attempt.ofExcept r) (Calmly fun _ => True) :=
  .ofExcept ⟨rfl, fun _ _ => trivial⟩

theorem pure {x : α} (h : post (.ok x) p) : Leads id key p (Pure.pure x : Action α) post :=
  fun _ _ hf => hf _ _ h

theorem throw {e : Error} (h : post (.error e) p) :
    Leads id key p (MonadExcept.throw e : Action α) post :=
  fun _ _ hf => hf _ _ h

theorem pure_calmly {x : α} (h : found x) :
    Leads id key .calm (Pure.pure x : Action α) (Calmly found) :=
  .pure (.ok h)

theorem throw_calmly (e : Error) :
    Leads id key .calm (MonadExcept.throw e : Action α) (Calmly found) :=
  .throw (.error found e)

/-- A single step, which is all that a request in its phase is bound to do. -/
theorem atomic (hbinds : ∀ {β} (next : State → Job State β),
      p.Binds id key (.step (fun s => (g s).2) next))
    (h : ∀ s, s.Hosts id key → ∃ q, Moves key s (g s).2 p q ∧ post (g s).1 q) :
    Leads id key p (Attempt.atomic g) post := by
  intro γ f hf
  classical
  let q (s : State) : Phase := if hs : s.Hosts id key then (h s hs).choose else p
  have hq : ∀ s, s.Hosts id key → Moves key s (g s).2 p (q s) ∧ post (g s).1 (q s) := by
    intro s hs
    rw [show q s = (h s hs).choose from dif_pos hs]
    exact (h s hs).choose_spec
  exact .step q (hbinds _) (fun s hs => (hq s hs).1) fun s hs => hf _ _ (hq s hs).2

/-- A gentle step. What the request is bound to do is still to come. -/
theorem gentle {ends : Except Error α → Prop} (h : ∀ s, s.Hosts id key → Gentle key s (g s).2)
    (hends : ∀ s, s.Hosts id key → ends (g s).1) :
    Leads id key p (Attempt.atomic g) fun r q => q = p ∧ ends r := by
  intro γ f hf
  have hrest : ∀ s, s.Hosts id key → Conforms id key p (f (g s).1) :=
    fun s hs => hf _ _ ⟨rfl, hends s hs⟩
  refine .step (fun _ => p) ?_ (fun s hs => .gentle p (h s hs)) hrest
  cases p with
  | calm => trivial
  | adding => exact .later fun s hs => (hrest s hs).binds
  | removing k => exact .later fun s hs => (hrest s hs).binds

/-- Looking at the state. -/
theorem look {g : State → α} (h : ∀ s, s.Hosts id key → found (g s)) :
    Leads id key p (Attempt.look g) (Surely p found) := by
  have hends : ∀ s : State, s.Hosts id key →
      ∃ x, (Except.ok (g s) : Except Error α) = .ok x ∧ found x :=
    fun s hs => ⟨g s, rfl, h s hs⟩
  exact .gentle (g := fun s => (.ok (g s), s)) (fun s _ => .refl key s) hends

theorem look_any (g : State → α) :
    Leads id key p (Attempt.look g) (Surely p fun _ => True) :=
  .look fun _ _ => trivial

/-- A part whose failure is taken as a value. -/
theorem outcome (h : Leads id key p a mid) :
    Leads id key p a.outcome fun r q => ∃ r', r = .ok r' ∧ mid r' q := by
  intro γ g hg
  show Conforms id key p (Job.bind (Job.bind (ExceptT.run a) _) g)
  rw [Job.bind_assoc]
  exact h γ _ fun r q hmid => hg _ _ ⟨r, rfl, hmid⟩

theorem outcome_calmly (h : Leads id key p a (Calmly found)) :
    Leads id key p a.outcome (Calmly fun r => ∀ x, r = .ok x → found x) := by
  refine h.outcome.mono ?_
  rintro _ q ⟨r, rfl, rfl, hr⟩
  exact .ok hr

theorem tolerate (h : Leads id key p a (Calmly found)) :
    Leads id key p a.tolerate (Calmly fun _ => True) :=
  h.outcome_calmly.bind_calmly fun _ _ => .pure_calmly trivial

end Leads

end SharedMemos.Server
