import SharedMemos.Proofs.Server.Database
import SharedMemos.Proofs.Server.Execution
import SharedMemos.Proofs.Storage.Disk
import SharedMemos.Proofs.Storage.ObjectStore
import SharedMemos.Server.Uploads.Completion
import SharedMemos.Server.Uploads.Opening
import SharedMemos.Server.Uploads.Sending
import SharedMemos.Server.Uploads.Sweep

/-!
# What the server holds

Most steps of a request find something out: they read rows, look at the clock, draw names, look up
the storage setting or ask a store about a key. None of that touches what the server holds for its
users, which is gathered in `Holdings`. Such steps are *quiet*. A proof about a request only has to
look at the few steps that are not.

A quiet step may draw names, and so the number of draws may grow; nothing else about it matters.

## Main definitions

* `State.holdings` — the rows of memos, attachments and uploads, and the files that go with them
* `Holdings.object?` — the object at a key of a kind of store
* `Footprint.quiet` — steps that find something out

## Main results

* `storageSetting_quiet`, `backendFor_quiet`, `memoLink_quiet`, `allocateKey_quiet`,
  `reusableKey_quiet` — what requests find out before they do anything
* `ownSession_spec`, `reusableKey_spec` — and what it is
-/

namespace SharedMemos.Server

open SharedMemos.Storage SharedMemos.Upload

/-- What the server holds: the rows of memos, attachments and uploads, scratch files and objects,
and what decides where they go and whether statements are carried out. -/
structure Holdings where
  memos : List Memo
  lastMemo : Int
  attachments : List Attachment
  lastAttachment : Int
  sessions : List Session
  scratchDirectory : String
  scratch : List (String × Scratch)
  disk : Tree
  objects : List (String × Blob)
  isTied : Bool
  source : Source
  mishaps : List (Table × Writing × Mishap)

/-- What the server holds in a state. -/
def State.holdings (s : State) : Holdings where
  memos := s.database.memos
  lastMemo := s.database.lastMemo
  attachments := s.database.attachments
  lastAttachment := s.database.lastAttachment
  sessions := s.database.sessions
  scratchDirectory := s.scratchDirectory
  scratch := s.scratch
  disk := s.disk
  objects := s.store.objects
  isTied := s.resolver.isTied
  source := s.source
  mishaps := s.database.mishaps

/-- The object at a key of a kind of store. -/
def Holdings.object? (h : Holdings) (kind : Kind) (key : String) : Option Blob :=
  match kind with
  | .disk => (Disk.open h.disk key).toOption
  | .bucket => (h.objects.find? (·.1 == key)).map (·.2)

/-- The object at a key of a kind of store. -/
def State.object? (s : State) (kind : Kind) (key : String) : Option Blob :=
  s.holdings.object? kind key

/-- Where the objects are the same, so is that at a key. -/
theorem Holdings.object?_of_same {h h' : Holdings} (hdisk : h'.disk = h.disk)
    (hobjects : h'.objects = h.objects) (kind : Kind) (key : String) :
    h'.object? kind key = h.object? kind key := by
  cases kind with
  | disk => rw [object?, object?, hdisk]
  | bucket => rw [object?, object?, hobjects]

theorem State.object?_of_holdings {s t : State} (h : t.holdings = s.holdings) (kind : Kind)
    (key : String) : t.object? kind key = s.object? kind key := by
  rw [object?, object?, h]

theorem scratch?_of_scratch {s t : State} (h : t.holdings.scratch = s.holdings.scratch)
    (path : String) : t.scratch? path = s.scratch? path := by
  have hscratch : t.scratch = s.scratch := h
  rw [State.scratch?, State.scratch?, hscratch]

theorem scratch?_of_holdings {s t : State} (h : t.holdings = s.holdings) (path : String) :
    t.scratch? path = s.scratch? path :=
  scratch?_of_scratch (congrArg Holdings.scratch h) path

theorem State.object?_disk {s : State} {key : String} {content : Blob} :
    s.object? .disk key = some content ↔ Disk.open s.disk key = .ok content := by
  show (Disk.open s.disk key).toOption = some content ↔ _
  cases Disk.open s.disk key <;> simp [Except.toOption]

/-- A server with nothing on it, whose random names count up. -/
def numberedServer : State :=
  { source := ⟨fun _ => .epoch, fun draw length => Text.showPadded length draw⟩ }

/-! ### Quiet steps -/

/-- Steps that find something out. -/
def Footprint.quiet : Footprint State where
  rel s t := t.holdings = s.holdings ∧ s.draws ≤ t.draws
  refl _ := ⟨rfl, Nat.le_refl _⟩
  trans h h' := ⟨h'.1.trans h.1, Nat.le_trans h.2 h'.2⟩

/-- Steps that find something out and ask no store. -/
def Footprint.unasked : Footprint State where
  rel s t := Footprint.quiet.rel s t ∧ t.store = s.store
  refl s := ⟨Footprint.quiet.refl s, rfl⟩
  trans h h' := ⟨Footprint.quiet.trans h.1 h'.1, h'.2.trans h.2⟩

/-- The attempt only finds something out. -/
abbrev IsQuiet {α : Type} (a : Action α) : Prop :=
  a.Within Footprint.quiet

open Attempt

variable {α : Type}

theorem holdings_of_exec {a : Action α} {s t : State} {r : Except Error α} (h : IsQuiet a)
    (hexec : a.exec s = (r, t)) : t.holdings = s.holdings :=
  (h.of_exec hexec).1

theorem quiet_of_unasked {a : Action α} (h : a.Within Footprint.unasked) : IsQuiet a :=
  h.mono fun _ _ hrel => hrel.1

theorem now_quiet : IsQuiet now := fun _ => ⟨rfl, Nat.le_refl _⟩

theorem drawName_quiet (length : Nat) : IsQuiet (drawName length) := fun _ => ⟨rfl, Nat.le_succ _⟩

theorem query_quiet (f : Database → α) : IsQuiet (query f) := Within.look _

/-- A transaction asks no store, and it is quiet if it writes settings only. -/
theorem transact_unasked {t : Transaction α}
    (h : ∀ d a d', t.run d = .ok (a, d') → d' = { d with settings := d'.settings }) :
    (transact t).Within Footprint.unasked := by
  intro s
  rw [transact, exec_atomic]
  cases hrun : t.run s.database with
  | error e => exact Footprint.refl Footprint.unasked s
  | ok p =>
    obtain ⟨a, d⟩ := p
    refine ⟨⟨?_, Nat.le_refl _⟩, rfl⟩
    show State.holdings { s with database := d } = _
    rw [h _ _ _ hrun]
    rfl

theorem onDisk_quiet {f : Tree → Except Error α × Tree} (h : ∀ t, (f t).2 = t) :
    IsQuiet (onDisk f) := by
  intro s
  refine ⟨?_, Nat.le_refl _⟩
  show State.holdings { s with disk := (f s.disk).2 } = _
  rw [h]

theorem onStore_quiet {f : ObjectStore → Except Error α × ObjectStore}
    (h : ∀ s, (f s).2.objects = s.objects) : IsQuiet (onStore f) := by
  intro s
  refine ⟨?_, Nat.le_refl _⟩
  show { s.holdings with objects := (f s.store).2.objects } = s.holdings
  rw [h]
  rfl

theorem signedIn_quiet (reason : String) (viewer : Viewer) : IsQuiet (signedIn reason viewer) := by
  cases viewer with
  | none => exact Within.throw _
  | some user => exact Within.pure _

theorem storageSetting_unasked : storageSetting.Within Footprint.unasked := by
  refine Within.bind (Within.look _) fun text => ?_
  cases text with
  | some text => exact Within.ofExcept _
  | none =>
    refine Within.bind (transact_unasked ?_) fun _ => Within.bind (Within.look _) fun text => ?_
    · exact fun d _ d' hrun => Database.run_initSetting hrun
    · cases text with
      | some text => exact Within.ofExcept _
      | none => exact Within.pure _

theorem storageSetting_quiet : IsQuiet storageSetting :=
  quiet_of_unasked storageSetting_unasked

theorem Resolver.forKind_isTied (r : Resolver) (kind : Kind) (setting : Setting) :
    (r.forKind kind setting).2.isTied = r.isTied := by
  simp only [Resolver.forKind]
  split
  · rfl
  · split
    · rfl
    · rfl
    · split
      · rfl
      · split <;> rfl

theorem backendFor_unasked (kind : Kind) (setting : Setting) :
    (backendFor kind setting).Within Footprint.unasked := by
  intro s
  refine ⟨⟨?_, Nat.le_refl _⟩, rfl⟩
  show { s.holdings with isTied := (s.resolver.forKind kind setting).2.isTied } = s.holdings
  rw [Resolver.forKind_isTied]
  rfl

theorem backendFor_quiet (kind : Kind) (setting : Setting) : IsQuiet (backendFor kind setting) :=
  quiet_of_unasked (backendFor_unasked kind setting)

/-- The store is the one that the server is tied to, or of the kind that was asked for. -/
theorem backendFor_spec {kind : Kind} {setting : Setting} {b : Backend} {s t : State}
    (h : (backendFor kind setting).exec s = (.ok b, t)) :
    (s.holdings.isTied = true ∧ b = .tied)
      ∨ (s.holdings.isTied = false ∧ b ≠ .tied ∧ b.kind = kind) := by
  have hresult : (s.resolver.forKind kind setting).1 = .ok b := congrArg Prod.fst h
  show (s.resolver.isTied = true ∧ _) ∨ (s.resolver.isTied = false ∧ _)
  simp only [Resolver.forKind] at hresult
  split at hresult
  · rename_i htied
    cases hresult
    exact .inl ⟨htied, rfl⟩
  · rename_i htied
    refine .inr ⟨Bool.eq_false_iff.mpr htied, ?_⟩
    split at hresult
    · cases hresult
      exact ⟨Backend.noConfusion, rfl⟩
    · cases hresult
    · split at hresult
      · cases hresult
        exact ⟨Backend.noConfusion, rfl⟩
      · split at hresult
        · cases hresult
        · cases hresult
          exact ⟨Backend.noConfusion, rfl⟩

/-- The store is of the kind that was asked for, unless the server is tied to one. -/
theorem backendFor_kind {kind : Kind} {setting : Setting} {b : Backend} {s t : State}
    (h : (backendFor kind setting).exec s = (.ok b, t)) :
    b.kind = if s.holdings.isTied then .bucket else kind := by
  rcases backendFor_spec h with ⟨htied, rfl⟩ | ⟨hfree, -, hkind⟩
  · rw [if_pos htied]
    rfl
  · rw [hfree]
    exact hkind

theorem backendForNew_quiet (setting : Setting) : IsQuiet (backendForNew setting) :=
  backendFor_quiet _ _

theorem checkLimit_quiet (setting : Setting) (size : Int) : IsQuiet (checkLimit setting size) := by
  rw [checkLimit]
  split
  · exact Within.throw _
  · exact Within.pure _

theorem modifiableMemo_unasked (user : UserId) (uid : String) :
    (modifiableMemo user uid).Within Footprint.unasked := by
  refine Within.bind (Within.look _) fun m => ?_
  cases m with
  | none => exact Within.throw _
  | some m =>
    dsimp only
    split
    · exact Within.pure _
    · exact Within.throw _

theorem memoLink_unasked (user : UserId) (memoName : Option String) :
    (memoLink user memoName).Within Footprint.unasked := by
  rw [memoLink]
  split
  · exact Within.pure _
  · exact Within.bind (Within.ofExcept _) fun uid =>
      Within.bind (modifiableMemo_unasked user uid) fun m => Within.pure _

theorem memoLink_quiet (user : UserId) (memoName : Option String) :
    IsQuiet (memoLink user memoName) :=
  quiet_of_unasked (memoLink_unasked user memoName)

theorem ownSession_quiet (viewer : Viewer) (id : String) : IsQuiet (ownSession viewer id) := by
  refine Within.bind (signedIn_quiet _ _) fun user => Within.bind (query_quiet _) fun session => ?_
  split
  · exact Within.pure _
  · exact Within.throw _

/-- A session that is found belongs to the viewer; any complaint is not one about an offset. -/
theorem ownSession_spec (viewer : Viewer) (id : String) (s : State) :
    (∃ session, (ownSession viewer id).exec s = (.ok session, s)
        ∧ s.database.session? id = some session ∧ viewer = some session.creator)
      ∨ ∃ e, (ownSession viewer id).exec s = (.error e, s)
        ∧ ∀ expected current, e ≠ .offsetMismatch expected current := by
  cases viewer with
  | none => exact .inr ⟨_, rfl, fun _ _ => Error.noConfusion⟩
  | some user =>
    have huser : (attachmentUser (some user)).exec s = (.ok user, s) := rfl
    have hquery : (query (·.session? id)).exec s = (.ok (s.database.session? id), s) := rfl
    rw [ownSession, exec_bind_of_ok huser, exec_bind_of_ok hquery]
    cases hfind : (s.database.session? id).filter (·.creator == user) with
    | none => exact .inr ⟨_, rfl, fun _ _ => Error.noConfusion⟩
    | some session =>
      obtain ⟨hsession, hcreator⟩ := Option.filter_eq_some_iff.mp hfind
      exact .inl ⟨session, rfl, hsession, congrArg some (beq_iff_eq.mp hcreator).symm⟩

theorem clientStore_quiet : IsQuiet clientStore :=
  Within.bind storageSetting_quiet fun _ => backendFor_quiet _ _

theorem checkReceived_quiet (session : Session) (received : Int) :
    IsQuiet (checkReceived session received) := by
  rw [checkReceived]
  split
  · exact Within.throw _
  · exact Within.pure _

theorem readScratch_quiet (path : String) : IsQuiet (readScratch path) := by
  refine Within.bind (Within.look _) fun content => ?_
  split
  · exact Within.pure _
  · exact Within.throw _

/-! ### Quiet calls on a store -/

/-- Calls on the store can be answered. No bucket can be reached. -/
def IsAtHand (b : Backend) : Prop :=
  ∀ client, b ≠ .bucket client

theorem isAtHand_disk : IsAtHand .disk := fun _ => Backend.noConfusion

theorem isAtHand_tied : IsAtHand .tied := fun _ => Backend.noConfusion

theorem exists?_quiet (b : Backend) (key : String) : IsQuiet (b.exists? key) := by
  cases b with
  | disk =>
    show IsQuiet (onDisk fun t => (Disk.exists? t key, t))
    exact onDisk_quiet fun _ => rfl
  | bucket c => exact Within.throw _
  | tied =>
    show IsQuiet (onStore fun s => s.exists? key)
    exact onStore_quiet fun _ => ObjectStore.exists?_objects

theorem open_quiet (b : Backend) (key : String) : IsQuiet (b.open key) := by
  cases b with
  | disk =>
    show IsQuiet (onDisk fun t => (Disk.open t key, t))
    exact onDisk_quiet fun _ => rfl
  | bucket c => exact Within.throw _
  | tied =>
    show IsQuiet (onStore fun s => s.open key)
    exact onStore_quiet fun _ => ObjectStore.open_objects

theorem head_quiet (b : Backend) (key : String) : IsQuiet (b.head key) := by
  cases b with
  | disk => exact Within.throw _
  | bucket c => exact Within.throw _
  | tied =>
    show IsQuiet (onStore fun s => s.head key)
    exact onStore_quiet fun _ => ObjectStore.head_objects

theorem signPut_quiet (b : Backend) (key contentType : String) (lifetime : Nat) :
    IsQuiet (b.signPut key contentType lifetime) := by
  cases b with
  | disk => exact Within.throw _
  | bucket c => exact Within.ofExcept _
  | tied =>
    show IsQuiet (onStore fun s => s.signPut key contentType lifetime)
    exact onStore_quiet fun _ => ObjectStore.signPut_objects

theorem signPart_quiet (b : Backend) (key upload : String) (number : Int) (lifetime : Nat) :
    IsQuiet (b.signPart key upload number lifetime) := by
  cases b with
  | disk => exact Within.throw _
  | bucket c => exact Within.ofExcept _
  | tied =>
    show IsQuiet (onStore fun s => s.signPart key upload number lifetime)
    exact onStore_quiet fun _ => ObjectStore.signPart_objects

theorem createUpload_quiet (b : Backend) (key : String) : IsQuiet (b.createUpload key) := by
  cases b with
  | disk => exact Within.throw _
  | bucket c => exact Within.throw _
  | tied =>
    show IsQuiet (onStore fun s => s.createUpload key)
    exact onStore_quiet fun _ => ObjectStore.createUpload_objects

theorem listParts_quiet (b : Backend) (key upload : String) : IsQuiet (b.listParts key upload) := by
  cases b with
  | disk => exact Within.throw _
  | bucket c => exact Within.throw _
  | tied =>
    show IsQuiet (onStore fun s => s.listParts key upload)
    exact onStore_quiet fun _ => ObjectStore.listParts_objects

theorem abortUpload_quiet (b : Backend) (key upload : String) :
    IsQuiet (b.abortUpload key upload) := by
  cases b with
  | disk => exact Within.throw _
  | bucket c => exact Within.throw _
  | tied =>
    show IsQuiet (onStore fun s => s.abortUpload key upload)
    exact onStore_quiet fun _ => ObjectStore.abortUpload_objects

theorem storedSize_quiet (b : Backend) (key : String) : IsQuiet (storedSize b key) := by
  refine Within.bind (head_quiet b key).outcome fun size => ?_
  split
  · exact Within.pure _
  · exact Within.pure _
  · exact Within.throw _

/-! ### Keys -/

theorem freeKey_quiet (b : Backend) (filename : String) (attempts : Nat) :
    IsQuiet (freeKey b filename attempts) := by
  induction attempts with
  | zero => exact Within.throw _
  | succ attempts ih =>
    refine Within.bind (drawName_quiet _) fun name => ?_
    refine Within.bind (query_quiet _) fun isUsed => Within.ite ih ?_
    exact Within.bind (exists?_quiet b _) fun isThere => Within.ite ih (Within.pure _)

theorem allocateKey_quiet (b : Backend) (filename : String) : IsQuiet (allocateKey b filename) :=
  freeKey_quiet b filename _

theorem reusableKey_quiet (b : Backend) (user : UserId) (hash : String) :
    IsQuiet (reusableKey b user hash) := by
  refine Within.bind (query_quiet _) fun existing => ?_
  split
  · exact Within.pure _
  · refine Within.bind (query_quiet _) fun count => ?_
    split
    · exact Within.pure _
    · exact Within.bind (exists?_quiet b _) fun isThere =>
        Within.ite (Within.pure _) (Within.pure _)

/-- A key that is used again is that of an attachment of the user with the digest, in a store that
has answered. -/
theorem reusableKey_spec {b : Backend} {user : UserId} {hash key : String} {s t : State}
    (h : (reusableKey b user hash).exec s = (.ok (some key), t)) :
    IsAtHand b ∧ ∃ a ∈ s.database.attachments, a.creator = user ∧ a.storage = b.kind
      ∧ a.storageKey = key ∧ a.contentHash = hash := by
  rw [reusableKey] at h
  rw [Attempt.exec_bind_eq_ok] at h
  obtain ⟨existing, s₁, hquery, h⟩ := h
  cases hquery
  split at h
  · cases h
  · rename_i a hfind
    obtain ⟨hhash, hkind⟩ := Option.filter_eq_some_iff.mp hfind
    have hcreator := List.find?_some hhash
    rw [Attempt.exec_bind_eq_ok] at h
    obtain ⟨count, s₂, hcount, h⟩ := h
    cases hcount
    split at h
    · cases h
    · rw [Attempt.exec_bind_eq_ok] at h
      obtain ⟨isThere, s₃, hexists, h⟩ := h
      split at h
      · cases h
        obtain ⟨huser, hdigest⟩ := Bool.and_eq_true_iff.mp hcreator
        refine ⟨?_, a, List.mem_of_find?_eq_some hhash, beq_iff_eq.mp huser, beq_iff_eq.mp hkind,
          rfl, beq_iff_eq.mp hdigest⟩
        rintro client rfl
        cases hexists
      · cases h

/-! ### Pictures -/

theorem loadPicture_quiet (a : Attachment) (b : Backend) (source : PictureSource) :
    IsQuiet (loadPicture a b source) := by
  cases source with
  | received content => exact Within.pure _
  | scratch path most => exact Within.bind (readScratch_quiet path) fun content => Within.pure _
  | stored =>
    rw [loadPicture]
    split
    · exact Within.pure _
    · exact Within.bind (open_quiet b _) fun content => Within.pure _

theorem pictureSource_quiet (session : Session) : IsQuiet (pictureSource session) := by
  unfold pictureSource
  dsimp only
  split
  · exact Within.bind (Within.look _) fun _ => Within.pure _
  · exact Within.pure _

end SharedMemos.Server
