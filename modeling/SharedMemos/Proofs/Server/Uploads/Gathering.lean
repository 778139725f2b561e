import SharedMemos.Proofs.Server.Observing
import SharedMemos.Proofs.Server.Uploads.Chunks
import SharedMemos.Proofs.Upload.Part

/-!
# Gathering an upload

When an upload is completed, what has been received of it is compared to what was declared, and only
then anything is done. How much has been received is told by the session and its scratch file, by
the object that the client has stored, or by the parts that the store has without a gap
(`State.received?`). It cannot be told where there is no scratch file to read and where the store
does not know the upload.

Where nothing goes wrong, gathering succeeds if all bytes are there, and otherwise only finds that
out (`gather_exec`). What has to go right is said of the state in which the request comes in
(`State.Serves`), and since all steps of the request up to there only observe, it is still so when
an object is placed (`place_unswayed`).

## Main definitions

* `State.received?` — how much has been received of an upload
* `place` — an object for the content of a scratch file
* `State.Serves` — what is asked of the database and the stores for an upload succeeds
* `State.Joins` — what gathering leaves behind in the store

## Main results

* `exec_gatherScratch`, `exec_storedSize`, `exec_listParts_unknown`, `exec_completeUpload` — the
  steps
* `gather_exec` — gathering
-/

namespace SharedMemos

open SharedMemos.Storage SharedMemos.Upload SharedMemos.Bytes

/-- The size of the object at a key; none is as good as an empty one. -/
def Storage.ObjectStore.sizeAt (s : ObjectStore) (key : String) : Int :=
  match s.object? key with
  | some content => content.size
  | none => 0

namespace Server

open Attempt

variable {α : Type} {s t : State} {x : Session} {b : Backend} {setting : Setting}

/-! ### Drawing names -/

/-- The attempt draws a number of names at most. -/
def DrawsAtMost (n : Nat) (a : Action α) : Prop :=
  ∀ s, (a.exec s).2.draws ≤ s.draws + n

theorem DrawsAtMost.bind {β : Type} {m n k : Nat} {a : Action α} {f : α → Action β}
    (ha : DrawsAtMost m a) (hf : ∀ y, DrawsAtMost n (f y)) (hsum : m + n = k) :
    DrawsAtMost k (a >>= f) := by
  intro s
  have hs := ha s
  rw [exec_bind]
  rcases h : a.exec s with ⟨e | y, t⟩ <;> rw [h] at hs <;> dsimp only at hs ⊢
  · omega
  · have ht := hf y t
    omega

theorem DrawsAtMost.of_observing {a : Action α} (h : IsObserving a) (n : Nat) :
    DrawsAtMost n a := by
  intro s
  obtain ⟨settings, resolver, seen, -, hafter⟩ := h s
  rw [hafter]
  exact Nat.le_add_right _ _

theorem drawName_drawsAtMost (length : Nat) : DrawsAtMost 1 (drawName length) :=
  fun s => Nat.le_refl (s.draws + 1)

theorem freeKey_drawsAtMost (b : Backend) (filename : String) (attempts : Nat) :
    DrawsAtMost attempts (freeKey b filename attempts) := by
  induction attempts with
  | zero => exact .of_observing (.throw _) 0
  | succ attempts ih =>
    refine .bind (drawName_drawsAtMost _) (fun name => ?_) (Nat.add_comm 1 attempts)
    refine .bind (.of_observing (query_observing _) 0) (fun isUsed => ?_) (Nat.zero_add attempts)
    split
    · exact ih
    · refine .bind (.of_observing (exists?_observing b _) 0) (fun isThere => ?_)
        (Nat.zero_add attempts)
      split
      · exact ih
      · exact .of_observing (.pure _) attempts

/-! ### Placing an object -/

/-- Finds an object of the user with the content of a scratch file, or stores one; tells its key,
and whether it was stored. -/
def place (b : Backend) (x : Session) (content : Blob) : Action (String × Bool) := do
  match ← reusableKey b x.creator (sha256Hex content.bytes) with
  | some key => return (key, false)
  | none =>
    let key ← allocateKey b x.filename
    let _ ← b.putStream key content x.size.toNat
    return (key, true)

theorem place_unswayed (b : Backend) (x : Session) (content : Blob) :
    IsUnswayed (place b x content) := by
  refine .bind (reusableKey_unswayed b _ _) fun reused => ?_
  split
  · exact .pure _
  · refine .bind (freeKey_unswayed b _ _) fun key => ?_
    exact .bind (putStream_unswayed b key _ _) fun _ => .pure _

theorem reusableKey_observing (b : Backend) (user : UserId) (hash : String) :
    IsObserving (reusableKey b user hash) := by
  refine .bind (query_observing _) fun existing => ?_
  split
  · exact .pure _
  · refine .bind (query_observing _) fun count => ?_
    split
    · exact .pure _
    · exact .bind (exists?_observing b _) fun isThere => .ite (.pure _) (.pure _)

theorem place_drawsAtMost (b : Backend) (x : Session) (content : Blob) :
    DrawsAtMost Limit.keyAttempts (place b x content) := by
  have hput : ∀ key, DrawsAtMost 0 (b.putStream key content x.size.toNat) := fun key s => by
    cases b with
    | disk => exact Nat.le_refl _
    | bucket c => exact Nat.le_refl _
    | tied => exact Nat.le_refl _
  refine .bind (.of_observing (reusableKey_observing b _ _) 0) (fun reused => ?_) (Nat.zero_add _)
  split
  · exact .of_observing (.pure _) _
  · refine .bind (freeKey_drawsAtMost b _ _) (fun key => ?_) (Nat.add_zero _)
    exact .bind (hput key) (fun _ => .of_observing (.pure _) 0) rfl

/-- Steps that change objects only, and end no uploads in parts. -/
def Footprint.placing : Footprint State where
  rel s t := t.holdings = { s.holdings with disk := t.disk, objects := t.store.objects }
    ∧ s.draws ≤ t.draws ∧ t.store.outcomes = s.store.outcomes
  refl _ := ⟨rfl, Nat.le_refl _, rfl⟩
  trans := by
    rintro s t u ⟨hst, hdraws, hends⟩ ⟨htu, hdraws', hends'⟩
    exact ⟨by rw [htu, hst], Nat.le_trans hdraws hdraws', hends'.trans hends⟩

theorem placing_of_rel (h : Footprint.observing.rel s t) : Footprint.placing.rel s t := by
  obtain ⟨settings, resolver, seen, htied, rfl⟩ := h
  refine ⟨?_, Nat.le_refl _, rfl⟩
  show { s.holdings with isTied := resolver.isTied } = s.holdings
  rw [htied]
  rfl

theorem placing_of_observing {a : Action α} (h : IsObserving a) : a.Within Footprint.placing :=
  h.mono fun _ _ => placing_of_rel

theorem place_placing (b : Backend) (x : Session) (content : Blob) :
    (place b x content).Within Footprint.placing := by
  have hfree : ∀ attempts, (freeKey b x.filename attempts).Within Footprint.placing := by
    intro attempts
    induction attempts with
    | zero => exact .throw _
    | succ attempts ih =>
      refine .bind (fun _ => ⟨rfl, Nat.le_succ _, rfl⟩) fun name => ?_
      refine .bind (placing_of_observing (query_observing _)) fun isUsed => .ite ih ?_
      refine .bind (placing_of_observing (exists?_observing b _)) fun isThere => ?_
      exact .ite ih (.pure _)
  refine .bind (placing_of_observing (reusableKey_observing b _ _)) fun reused => ?_
  split
  · exact .pure _
  · refine .bind (hfree _) fun key => .bind (fun s => ?_) fun _ => .pure _
    refine ⟨(putStream_storing b key content x.size.toNat s).1, ?_, ?_⟩
    · exact (putStream_storing b key content x.size.toNat s).2.1
    · cases b with
      | disk => rfl
      | bucket c => rfl
      | tied =>
        show (s.store.put key content).2.outcomes = s.store.outcomes
        exact ObjectStore.call_outcomes fun _ => rfl

/-! ### What has been received -/

/-- How much has been received of an upload, if that can be told. A scratch file is only looked at
if the session counts as many bytes as declared, and an object that is not there is as good as an
empty one. -/
def State.received? (s : State) (x : Session) : Option Int :=
  match x.target with
  | .scratch path =>
    if x.received ≠ x.size then some x.received
    else
      match s.scratch? path with
      | some (.file content) => some content.size
      | _ => none
  | .direct key => some (s.store.sizeAt key)
  | .multipart _ upload _ => (s.store.upload? upload).map fun u => totalSize (contiguous u.parts)

/-- The complaint when an upload has not been received as a whole. -/
inductive State.FallsShort (s : State) (x : Session) : Error → Prop where
  /-- Fewer bytes are there than declared, or more. -/
  | incomplete {n : Int} (h : s.received? x = some n) (hne : n ≠ x.size) :
    FallsShort s x (.uploadIncomplete n x.size)
  /-- There is no scratch file to read. -/
  | unreadable {path : String} (htarget : x.target = .scratch path) (h : s.received? x = none) :
    FallsShort s x scratchFailure
  /-- The store does not know the upload. -/
  | unknown {key upload : String} {partSize : Int}
    (htarget : x.target = .multipart key upload partSize) (h : s.received? x = none) :
    FallsShort s x (.notFound upload)

theorem State.FallsShort.received?_ne {e : Error} (h : s.FallsShort x e) :
    s.received? x ≠ some x.size := by
  cases h with
  | incomplete h hne =>
    rw [h]
    exact fun hsame => hne (Option.some.inj hsame)
  | unreadable _ h =>
    rw [h]
    exact (Option.some_ne_none _).symm
  | unknown _ h =>
    rw [h]
    exact (Option.some_ne_none _).symm

/-- How uploads in parts have ended after an upload has been gathered: that to the target is
completed with the parts numbered from one without a gap, and no other ends. -/
def State.Joins (s t : State) : Target → Prop
  | .multipart _ upload _ => ∃ u, s.store.upload? upload = some u
    ∧ t.store.outcomes = .completed upload
      ((List.range (contiguous u.parts).length).map fun (i : Nat) => 1 + (i : Int))
        :: s.store.outcomes
  | _ => t.store.outcomes = s.store.outcomes

/-- An upload has been gathered: objects may have changed and names may have been drawn. -/
structure State.Gathers (s t : State) (x : Session) : Prop where
  holdings : t.holdings = { s.holdings with disk := t.disk, objects := t.store.objects }
  draws_le : s.draws ≤ t.draws
  draws_most : t.draws ≤ s.draws + Limit.keyAttempts
  joins : s.Joins t x.target

/-- What comes of gathering an upload: it is gathered if all of it is there, and otherwise nothing
is done. -/
inductive State.HasGathered (s : State) (x : Session) : Except Error Gathered × State → Prop where
  | all {g : Gathered} {t : State} (h : s.received? x = some x.size) (hgathers : s.Gathers t x) :
    HasGathered s x (.ok g, t)
  | short {e : Error} {t : State} (h : s.FallsShort x e) (hrel : Footprint.observing.rel s t) :
    HasGathered s x (.error e, t)

theorem sizeAt_of_observing (h : Footprint.observing.rel s t) (key : String) :
    t.store.sizeAt key = s.store.sizeAt key := by
  obtain ⟨settings, resolver, seen, -, rfl⟩ := h
  rfl

/-! ### What has to go right -/

/-- The store for new objects, in a server that has no bucket. -/
def State.storeForNew (s : State) : Backend :=
  if s.resolver.isTied then .tied else .disk

/-- The server gets to the store that an upload goes to. It cannot reach a bucket unless it is tied
to one. -/
def State.Reaches (s : State) (x : Session) (setting : Setting) : Prop :=
  s.resolver.isTied = true ∨ (∃ path, x.target = .scratch path) ∧ setting.kind = .disk

theorem storeForNew_of_observing (h : Footprint.observing.rel s t) :
    t.storeForNew = s.storeForNew := by
  rw [State.storeForNew, State.storeForNew, isTied_of_observing h]

/-- An upload that is not to a scratch file goes to the store that the server is tied to. -/
theorem State.Reaches.isTied_of_ne (h : s.Reaches x setting)
    (hne : ∀ path, x.target ≠ .scratch path) : s.resolver.isTied = true :=
  h.resolve_right fun hdisk => hdisk.1.elim hne

/-- What is asked of the database and the stores to complete an upload succeeds. -/
structure State.Serves (s : State) (x : Session) : Prop where
  /-- The storage setting can be read, and the server gets to its store. -/
  setting : ∃ setting, (storageSetting.exec s).1 = .ok setting ∧ s.Reaches x setting
  /-- No call on the store fails. -/
  calls : ∀ what, s.store.failure? what = none
  /-- A scratch file of the declared size finds its place. -/
  places : ∀ path content, x.target = .scratch path → s.scratch? path = some (.file content) →
    (content.size : Int) = x.size →
      ∃ placed, ((place s.storeForNew x content).exec s).1 = .ok placed
  /-- Rows of attachments are added. -/
  inserts : s.database.mishap? .attachment .insert = none
  /-- A name that may be drawn for the attachment is not that of another. -/
  names : ∀ i, s.draws ≤ i → i ≤ s.draws + Limit.keyAttempts →
    ∀ a ∈ s.database.attachments, a.uid ≠ s.source.name i Limit.uidLength
  /-- Rows of sessions are removed. -/
  deletes : s.database.mishap? .session .delete = none

/-! ### The steps -/

theorem exec_checkReceived (x : Session) (n : Int) (s : State) :
    (checkReceived x n).exec s
      = if n ≠ x.size then (.error (.uploadIncomplete n x.size), s) else (.ok (), s) := by
  rw [checkReceived]
  split
  · rfl
  · rfl

theorem exec_readScratch {path : String} {content : Blob}
    (h : s.scratch? path = some (.file content)) :
    (readScratch path).exec s = (.ok content, s) := by
  have hlook : (Attempt.look fun s : State => s.scratch? path).exec s
      = (.ok (s.scratch? path), s) := rfl
  rw [readScratch, exec_bind_of_ok hlook, h]
  rfl

theorem exec_readScratch_error {path : String}
    (h : ∀ content, s.scratch? path ≠ some (.file content)) :
    (readScratch path).exec s = (.error scratchFailure, s) := by
  have hlook : (Attempt.look fun s : State => s.scratch? path).exec s
      = (.ok (s.scratch? path), s) := rfl
  rw [readScratch, exec_bind_of_ok hlook]
  split
  · rename_i content hfile
    exact absurd hfile (h content)
  · rfl

theorem exec_backendForNew (h : s.resolver.isTied = true ∨ setting.kind = .disk) :
    (backendForNew setting).exec s = (.ok s.storeForNew, s) := by
  rw [State.storeForNew]
  cases htied : s.resolver.isTied with
  | true => exact exec_backendFor_tied htied _ _
  | false =>
    have hkind : setting.kind = .disk := h.resolve_left (by rw [htied]; exact Bool.false_ne_true)
    rw [backendForNew, hkind]
    simp only [backendFor, exec_atomic, Resolver.forKind, htied, Bool.false_eq_true, if_false]

/-- A scratch file of the declared size is gathered by placing its content. -/
theorem exec_gatherScratch {path : String} {content : Blob} {placed : String × Bool}
    (hfile : s.scratch? path = some (.file content)) (hreceived : x.received = x.size)
    (hsize : (content.size : Int) = x.size)
    (hbackend : (backendForNew setting).exec s = (.ok b, s))
    (hplace : (place b x content).exec s = (.ok placed, t)) :
    (gatherScratch x setting path).exec s
      = (.ok ⟨b, sha256Hex content.bytes, placed.1, placed.2⟩, t) := by
  have hcheck : ∀ n, n = x.size → (checkReceived x n).exec s = (.ok (), s) := fun n hn => by
    rw [exec_checkReceived, if_neg (not_not.mpr hn)]
  rw [gatherScratch, exec_bind_of_ok (hcheck _ hreceived), exec_bind_of_ok (exec_readScratch hfile),
    exec_bind_of_ok (hcheck _ hsize)]
  dsimp only
  rw [exec_bind_of_ok hbackend]
  obtain ⟨reused, s₁, hreused, hplace⟩ := exec_bind_eq_ok.mp hplace
  rw [exec_bind_of_ok hreused]
  cases reused with
  | some key =>
    cases hplace
    rfl
  | none =>
    obtain ⟨key, s₂, hkey, hplace⟩ := exec_bind_eq_ok.mp hplace
    obtain ⟨n, s₃, hput, hplace⟩ := exec_bind_eq_ok.mp hplace
    cases hplace
    -- the file is read again, and nothing has changed it
    have hagain : s₂.scratch? path = some (.file content) := by
      rw [scratch?_of_holdings (holdings_of_exec (allocateKey_quiet b _) hkey),
        scratch?_of_holdings (holdings_of_exec (reusableKey_quiet b _ _) hreused)]
      exact hfile
    dsimp only
    rw [exec_bind_of_ok hkey, exec_bind_of_ok (exec_readScratch hagain), exec_bind_of_ok hput]
    rfl

/-- A store that works tells the size of an object. -/
theorem exec_storedSize (key : String) (hworks : s.store.failure? .head = none) :
    ∃ t, (storedSize .tied key).exec s = (.ok (s.store.sizeAt key), t)
      ∧ Footprint.observing.rel s t := by
  have hobject : (s.store.see key).object? key = s.store.object? key :=
    ObjectStore.object?_of_objects (ObjectStore.see_objects _ _) key
  have hhead : ((Backend.tied.head key).exec s).1 = (s.store.head key).1 := rfl
  rw [ObjectStore.head, ObjectStore.call_of_works hworks, hobject] at hhead
  refine ⟨_, ?_, head_observing .tied key s⟩
  rw [storedSize, exec_outcome_bind, hhead, ObjectStore.sizeAt]
  cases s.store.object? key with
  | some content => rfl
  | none => rfl

/-- The store does not tell the parts of an upload that it does not know. -/
theorem exec_listParts_unknown (key : String) {upload : String}
    (hworks : s.store.failure? .listParts = none) (hupload : s.store.upload? upload = none) :
    ∃ t, (Backend.tied.listParts key upload).exec s = (.error (.notFound upload), t)
      ∧ Footprint.observing.rel s t := by
  refine ⟨_, Prod.ext ?_ rfl, listParts_observing .tied key upload s⟩
  show (s.store.listParts key upload).1 = .error (.notFound upload)
  have hsee : (s.store.see key).upload? upload = none := by
    rw [ObjectStore.upload?, ObjectStore.see_uploads]
    exact hupload
  rw [ObjectStore.listParts, ObjectStore.call_of_works hworks, hsee]

/-- A store that works joins parts. -/
theorem exec_completeUpload (key upload : String) (parts : List Part)
    (hworks : s.store.failure? .completeUpload = none) :
    ∃ t, (Backend.tied.completeUpload key upload parts).exec s = (.ok (), t)
      ∧ t.store.outcomes = .completed upload (parts.map (·.number)) :: s.store.outcomes
      ∧ t.draws = s.draws := by
  have hsee : (s.store.see key).outcomes = s.store.outcomes :=
    (congrArg ObjectStore.outcomes (ObjectStore.see_eq s.store key) :)
  refine ⟨_, Prod.ext ?_ rfl, ?_, rfl⟩
  · show (s.store.completeUpload key upload parts).1 = .ok ()
    rw [ObjectStore.completeUpload, ObjectStore.call_of_works hworks]
  · show (s.store.completeUpload key upload parts).2.outcomes = _
    rw [ObjectStore.completeUpload, ObjectStore.call_of_works hworks, ← hsee]
    rfl

/-! ### Gathering -/

/-- What is received is told by a scratch file once the session counts as much as declared. -/
theorem received?_of_scratch {path : String} (htarget : x.target = .scratch path)
    (hreceived : x.received = x.size) :
    s.received? x = match s.scratch? path with
      | some (.file content) => some (content.size : Int)
      | _ => none := by
  rw [State.received?, htarget]
  dsimp only
  rw [if_neg (not_not.mpr hreceived)]

section

variable (h : s.Serves x) (hreach : s.Reaches x setting) (hrel : Footprint.observing.rel s t)
include h hreach hrel

/-- **A scratch file is gathered if the session and the file are as long as declared.** -/
theorem gatherScratch_exec {path : String} (htarget : x.target = .scratch path) :
    s.HasGathered x ((gatherScratch x setting path).exec t) := by
  have hscratch : t.scratch? path = s.scratch? path := scratch?_of_observing hrel path
  by_cases hreceived : x.received = x.size
  · have htold := received?_of_scratch (s := s) htarget hreceived
    have hcheck : (checkReceived x x.received).exec t = (.ok (), t) :=
      (exec_checkReceived x _ t).trans (if_neg (not_not.mpr hreceived))
    rw [← hscratch] at htold
    by_cases hfile : ∃ content, t.scratch? path = some (.file content)
    · obtain ⟨content, hfile⟩ := hfile
      rw [hfile] at htold
      by_cases hsize : (content.size : Int) = x.size
      · have hplaces := h.places path content htarget (hscratch.symm.trans hfile) hsize
        obtain ⟨placed, hplaced⟩ := hplaces
        rw [← storeForNew_of_observing hrel, (place_unswayed _ x content s t hrel).1] at hplaced
        obtain ⟨u, hplace⟩ : ∃ u, (place t.storeForNew x content).exec t = (.ok placed, u) :=
          ⟨_, Prod.ext hplaced rfl⟩
        have hreach' : t.resolver.isTied = true ∨ setting.kind = .disk :=
          hreach.imp (isTied_of_observing hrel).trans And.right
        rw [exec_gatherScratch hfile hreceived hsize (exec_backendForNew hreach') hplace]
        have hdraws := place_drawsAtMost t.storeForNew x content t
        rw [hplace, draws_of_observing hrel] at hdraws
        obtain ⟨hholdings, hle, hends⟩ := Footprint.trans Footprint.placing (placing_of_rel hrel)
          ((place_placing _ x content).of_exec hplace)
        refine .all (htold.trans (congrArg some hsize)) ⟨hholdings, hle, hdraws, ?_⟩
        rw [htarget]
        exact hends
      · rw [gatherScratch, exec_bind_of_ok hcheck, exec_bind_of_ok (exec_readScratch hfile),
          exec_bind_of_error ((exec_checkReceived x _ t).trans (if_pos hsize))]
        exact .short (.incomplete htold hsize) hrel
    · have hnone : ∀ content, t.scratch? path ≠ some (.file content) :=
        fun content hcontent => hfile ⟨content, hcontent⟩
      rw [gatherScratch, exec_bind_of_ok hcheck,
        exec_bind_of_error (exec_readScratch_error hnone)]
      refine .short (.unreadable htarget (htold.trans ?_)) hrel
      split
      · rename_i content hcontent
        exact absurd hcontent (hnone content)
      · rfl
  · rw [gatherScratch, exec_bind_of_error ((exec_checkReceived x _ t).trans (if_pos hreceived))]
    refine .short (.incomplete ?_ hreceived) hrel
    rw [State.received?, htarget]
    exact if_pos hreceived

/-- **An object that the client has stored is gathered if it is as large as declared.** -/
theorem gatherObject_exec {key : String} (htarget : x.target = .direct key) :
    s.HasGathered x ((gatherObject x setting key).exec t) := by
  have hother : ∀ path, x.target ≠ .scratch path := by
    rw [htarget]
    exact fun path => Target.noConfusion
  have htied : t.resolver.isTied = true :=
    (isTied_of_observing hrel).trans (hreach.isTied_of_ne hother)
  have htold : s.received? x = some (t.store.sizeAt key) := by
    rw [State.received?, htarget, sizeAt_of_observing hrel]
  have hworks : t.store.failure? .head = none :=
    (failure?_of_observing hrel .head).trans (h.calls .head)
  obtain ⟨u, hsize, hrel'⟩ := exec_storedSize key hworks
  have hrel' := Footprint.trans Footprint.observing hrel hrel'
  rw [gatherObject, exec_bind_of_ok (exec_backendFor_tied htied _ _), exec_bind_of_ok hsize]
  by_cases hall : t.store.sizeAt key = x.size
  · rw [exec_bind_of_ok ((exec_checkReceived x _ u).trans (if_neg (not_not.mpr hall)))]
    obtain ⟨hholdings, hle, hends⟩ := placing_of_rel hrel'
    refine .all (htold.trans (congrArg some hall))
      ⟨hholdings, hle, draws_of_observing hrel' ▸ Nat.le_add_right _ _, ?_⟩
    rw [htarget]
    exact hends
  · rw [exec_bind_of_error ((exec_checkReceived x _ u).trans (if_pos hall))]
    exact .short (.incomplete htold hall) hrel'

/-- **Parts are gathered if those without a gap are as large as declared.** Just these are
joined. -/
theorem gatherParts_exec {key upload : String} {partSize : Int}
    (htarget : x.target = .multipart key upload partSize) :
    s.HasGathered x ((gatherParts x setting key upload).exec t) := by
  have hother : ∀ path, x.target ≠ .scratch path := by
    rw [htarget]
    exact fun path => Target.noConfusion
  have htied : t.resolver.isTied = true :=
    (isTied_of_observing hrel).trans (hreach.isTied_of_ne hother)
  have htold : s.received? x
      = (t.store.upload? upload).map fun u => totalSize (contiguous u.parts) := by
    rw [State.received?, htarget, upload?_of_observing hrel]
  have hlist : t.store.failure? .listParts = none :=
    (failure?_of_observing hrel _).trans (h.calls _)
  rw [gatherParts, exec_bind_of_ok (exec_backendFor_tied htied _ _)]
  cases hupload : t.store.upload? upload with
  | none =>
    rw [hupload] at htold
    obtain ⟨u, hparts, hrel'⟩ := exec_listParts_unknown key hlist hupload
    rw [exec_bind_of_error hparts]
    exact .short (.unknown htarget htold) (Footprint.trans Footprint.observing hrel hrel')
  | some pending =>
    rw [hupload] at htold
    obtain ⟨u, hparts, hrel'⟩ := exec_listParts key hlist hupload
    have hrel' := Footprint.trans Footprint.observing hrel hrel'
    rw [exec_bind_of_ok hparts]
    dsimp only
    by_cases hall : totalSize (contiguous pending.parts) = x.size
    · rw [exec_bind_of_ok ((exec_checkReceived x _ u).trans (if_neg (not_not.mpr hall)))]
      obtain ⟨v, hjoin, hends, hdraws⟩ := exec_completeUpload key upload (contiguous pending.parts)
        ((failure?_of_observing hrel' _).trans (h.calls _))
      rw [exec_bind_of_ok hjoin]
      obtain ⟨hholdings, hle, -⟩ := (completeUpload_storing _ _ _ _).of_exec hjoin
      obtain ⟨hholdings', hle', hends'⟩ := placing_of_rel hrel'
      refine .all (htold.trans (congrArg some hall)) ⟨?_, Nat.le_trans hle' hle, ?_, ?_⟩
      · rw [hholdings, hholdings']
      · rw [hdraws, draws_of_observing hrel']
        exact Nat.le_add_right _ _
      · rw [htarget]
        refine ⟨pending, (upload?_of_observing hrel upload).symm.trans hupload, ?_⟩
        rw [hends, hends', (contiguous_isRun _).numbers]
    · rw [exec_bind_of_error ((exec_checkReceived x _ u).trans (if_pos hall))]
      exact .short (.incomplete htold hall) hrel'

/-- **An upload is gathered if all of it is there**, and otherwise nothing is done. -/
theorem gather_exec : s.HasGathered x ((gather x setting).exec t) := by
  rw [gather]
  split
  · rename_i path htarget
    exact gatherScratch_exec h hreach hrel htarget
  · rename_i key htarget
    exact gatherObject_exec h hreach hrel htarget
  · rename_i key upload partSize htarget
    exact gatherParts_exec h hreach hrel htarget

end

end Server

end SharedMemos
