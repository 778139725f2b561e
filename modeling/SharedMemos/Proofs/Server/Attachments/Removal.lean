import SharedMemos.Proofs.Server.Attachments.Following

/-!
# Objects go with their last attachment

In a run with stores that work, the object at a key is removed with the last attachment that has the
key, and nothing comes back there: the key is not drawn again, and requests leave keys alone that
no attachment has.

The thumbnail is another matter. A row names the thumbnail if the file of that row is a picture by
its name or type; rows with the same object need not agree. What is removed is what the last row
names. So the thumbnail goes with the object if the last row names it, or if there was none, and
otherwise it is left behind for good (`removed_after`).

## Main definitions

* `State.IsAble`, `State.StaysAble` — stores that work
* `State.ownAttachment?`, `State.withoutAttachment` — what a viewer deletes, and what that leaves
* `IsRetired` — a key that nobody has any more

## Main results

* `deleteAttachment_last` — deleting the last attachment that has a key
* `IsRetired.after` — nothing comes back, and nothing goes
* `removed_after` — the object and the thumbnail after a run
-/

namespace SharedMemos.Server

open SharedMemos.Storage SharedMemos.Upload Attempt

variable {source : Source} {first last : Nat} {s t : State} {kind : Kind} {key : String}
  {b : Backend} {a : Attachment} {viewer : Viewer} {uid : String}

/-! ### Stores that work -/

/-- Objects can be removed: the storage setting can be read, the objects are in the store that the
server uses, and if it is tied to one that store removes what it is asked to. -/
structure State.IsAble (s : State) : Prop where
  setting : ∃ setting, (storageSetting.exec s).1 = .ok setting
  placed : ∀ a ∈ s.database.attachments, a.storage = if s.resolver.isTied then .bucket else .disk
  deletes : s.store.failure? .delete = none

/-- Objects can be removed before and after each of the turns. -/
def State.StaysAble : State → List Turn → Prop
  | s, [] => s.IsAble
  | s, turn :: turns => s.IsAble ∧ (turn.act.exec s).2.StaysAble turns

theorem State.StaysAble.isAble {turns : List Turn} (h : s.StaysAble turns) : s.IsAble := by
  cases turns with
  | nil => exact h
  | cons turn turns => exact h.1

theorem State.StaysAble.of_append {before turns : List Turn} (h : s.StaysAble (before ++ turns)) :
    (s.after before).StaysAble turns := by
  induction before generalizing s with
  | nil => exact h
  | cons turn before ih => exact ih h.2

instance (s : State) : Decidable s.IsAble :=
  decidable_of_iff ((storageSetting.exec s).1.isOk
      ∧ (∀ a ∈ s.database.attachments, a.storage = if s.resolver.isTied then .bucket else .disk)
      ∧ (s.store.failure? .delete).isNone) <| by
    rw [Option.isNone_iff_eq_none]
    constructor
    · rintro ⟨hsetting, hplaced, hdeletes⟩
      refine ⟨?_, hplaced, hdeletes⟩
      cases hexec : (storageSetting.exec s).1 with
      | ok setting => exact ⟨setting, rfl⟩
      | error e =>
        rw [hexec] at hsetting
        cases hsetting
    · rintro ⟨⟨setting, hsetting⟩, hplaced, hdeletes⟩
      exact ⟨by rw [hsetting]; rfl, hplaced, hdeletes⟩

instance State.decidableStaysAble :
    (s : State) → (turns : List Turn) → Decidable (s.StaysAble turns)
  | s, [] => inferInstanceAs (Decidable s.IsAble)
  | s, turn :: turns =>
    have := State.decidableStaysAble (turn.act.exec s).2 turns
    inferInstanceAs (Decidable (s.IsAble ∧ (turn.act.exec s).2.StaysAble turns))

/-- Writing a setting down has nothing to do with attachments. -/
theorem Database.run_initSetting_attachments (d : Database) (rows : List Attachment)
    (name text : String) :
    (initSetting name text).run { d with attachments := rows }
      = ((initSetting name text).run d).map fun p => (p.1, { p.2 with attachments := rows }) := by
  have hmishap : ({ d with attachments := rows } : Database).mishap? .setting .insert
      = d.mishap? .setting .insert := rfl
  have hsetting : ({ d with attachments := rows } : Database).setting? name = d.setting? name := rfl
  simp only [initSetting, allows, StateT.run_bind, StateT.run_get, pure_bind, hmishap]
  rcases d.mishap? .setting .insert with _ | _ | _
  · simp only [StateT.run_pure, pure_bind, if_true, StateT.run_bind, StateT.run_get, hsetting]
    split
    · rfl
    · rfl
  · rfl
  · rfl

/-- Neither has reading the storage setting. -/
theorem storageSetting_attachments (s : State) (rows : List Attachment) :
    (storageSetting.exec { s with database := { s.database with attachments := rows } }).1
      = (storageSetting.exec s).1 := by
  have hquery : ∀ d d' : Database, d'.settings = d.settings →
      (query (·.setting? storageSettingName)).exec { s with database := d' }
        = (.ok (d.setting? storageSettingName), { s with database := d' }) := by
    intro d d' hsame
    rw [Database.setting?, ← hsame]
    rfl
  rw [storageSetting,
    exec_bind_of_ok (hquery s.database { s.database with attachments := rows } rfl),
    exec_bind_of_ok (hquery s.database s.database rfl)]
  cases s.database.setting? storageSettingName with
  | some text => rfl
  | none =>
    dsimp only
    rw [exec_bind, exec_bind, transact, exec_atomic, exec_atomic,
      Database.run_initSetting_attachments]
    rcases (Database.initSetting storageSettingName ({} : Setting).toText).run s.database
      with e | ⟨-, d⟩
    · rfl
    · dsimp only [Except.map]
      rw [exec_bind_of_ok (hquery d { d with attachments := rows } rfl),
        exec_bind_of_ok (hquery d d rfl)]
      cases d.setting? storageSettingName with
      | some text => rfl
      | none => rfl

/-- The store for an object that the server can reach is found, and it answers. -/
theorem IsPlaced.exec_backendFor (h : IsPlaced kind s) (setting : Setting) :
    ∃ b t, (backendFor kind setting).exec s = (.ok b, t) ∧ IsAtHand b ∧ b.kind = kind := by
  have hplaced : kind = if s.resolver.isTied then .bucket else .disk := h
  cases htied : s.resolver.isTied with
  | true =>
    rw [htied, if_pos rfl] at hplaced
    subst hplaced
    refine ⟨.tied, s, ?_, isAtHand_tied, rfl⟩
    simp only [backendFor, exec_atomic, Resolver.forKind, htied, if_true]
  | false =>
    rw [htied, if_neg Bool.false_ne_true] at hplaced
    subst hplaced
    refine ⟨.disk, s, ?_, isAtHand_disk, rfl⟩
    simp only [backendFor, exec_atomic, Resolver.forKind, htied, Bool.false_eq_true, if_false]

/-! ### Removing objects -/

/-- **An object that is removed is not there any more.** -/
theorem delete_lacks (hhand : IsAtHand b) (hworks : s.store.failure? .delete = none)
    (hobject : (s.object? b.kind key).isSome) : ((b.delete key).exec s).2.Lacks b.kind key := by
  obtain ⟨content, hcontent⟩ := Option.isSome_iff_exists.mp hobject
  cases b with
  | disk => exact Disk.lacks_delete_self (State.object?_disk.mp hcontent)
  | bucket client => exact absurd rfl (hhand client)
  | tied => exact ObjectStore.object?_delete_self hworks

theorem delete_failure? (b : Backend) (key : String) (s : State) :
    ((b.delete key).exec s).2.store.failure? .delete = s.store.failure? .delete := by
  cases b with
  | disk => rfl
  | bucket client => rfl
  | tied => exact ObjectStore.failure?_delete .delete

/-- What is done after the row of an attachment has been removed. -/
def releaseKeys (a : Attachment) : Action Unit := do
  let remaining ← query (·.countAt a.storage a.storageKey)
  if remaining = 0 then
    let setting ← storageSetting
    let backend ← backendFor a.storage setting
    (objectKeys a).forM fun key => (backend.delete key).tolerate

/-- The attachment with a uid, if it is the viewer's. -/
def State.ownAttachment? (s : State) (viewer : Viewer) (uid : String) : Option Attachment :=
  (s.database.attachmentByUid? uid).filter fun a => viewer == some a.creator

theorem State.mem_of_ownAttachment? (h : s.ownAttachment? viewer uid = some a) :
    a ∈ s.database.attachments :=
  List.mem_of_find?_eq_some (Option.filter_eq_some_iff.mp h).1

/-- The state without the row of an attachment. -/
def State.withoutAttachment (s : State) (a : Attachment) : State :=
  { s with database := { s.database with
    attachments := s.database.attachments.filter (·.id != a.id) } }

namespace Database

variable {d d' : Database} {id : Int}

/-- The row of an attachment is removed where nothing is wrong with such statements. -/
theorem run_deleteAttachment_of_works (hworks : d.mishap? .attachment .delete = none)
    (ha : a ∈ d.attachments) :
    (deleteAttachment a.id).run d
      = .ok (true, { d with attachments := d.attachments.filter (·.id != a.id) }) := by
  have hthere : d.attachments.any (·.id == a.id) = true :=
    List.any_eq_true.mpr ⟨a, ha, beq_self_eq_true _⟩
  rw [deleteAttachment]
  rw [run_bind_eq_ok]
  refine ⟨d, d, rfl, ?_⟩
  rw [hthere, if_neg (by decide)]
  rw [run_bind_eq_ok]
  exact ⟨true, d, run_allows_eq_ok.mpr ⟨rfl, hworks⟩, rfl⟩

/-- And only there. -/
theorem mishap?_of_deleteAttachment (h : (deleteAttachment id).run d = .ok (true, d')) :
    d.mishap? .attachment .delete = none := by
  rw [deleteAttachment] at h
  rw [run_bind_eq_ok] at h
  obtain ⟨_, _, hget, h⟩ := h
  obtain ⟨rfl, rfl⟩ := run_get_eq_ok.mp hget
  split at h
  · cases h
  · rw [run_bind_eq_ok] at h
    obtain ⟨isAllowed, _, hallows, h⟩ := h
    obtain ⟨rfl, hmishap⟩ := run_allows_eq_ok.mp hallows
    cases isAllowed with
    | true => exact hmishap
    | false => cases h

end Database

/-- A deletion finds no attachment of the viewer, or cannot remove the row, and changes nothing; or
it removes the row, and then what the row names. -/
theorem exec_deleteAttachment (viewer : Viewer) (uid : String) (s : State) :
    ((∀ a, s.ownAttachment? viewer uid = some a → ¬ s.database.mishap? .attachment .delete = none)
        ∧ ∃ e, (deleteAttachment viewer uid).exec s = (.error e, s))
      ∨ ∃ a, s.ownAttachment? viewer uid = some a ∧ s.database.mishap? .attachment .delete = none
        ∧ (deleteAttachment viewer uid).exec s = (releaseKeys a).exec (s.withoutAttachment a) := by
  cases viewer with
  | none =>
    refine .inl ⟨fun a ha => ?_, _, rfl⟩
    cases (Option.filter_eq_some_iff.mp ha).2
  | some user =>
    have huser : (attachmentUser (some user)).exec s = (.ok user, s) := rfl
    have hquery : (query (·.attachmentByUid? uid)).exec s
        = (.ok (s.database.attachmentByUid? uid), s) := rfl
    have hown : s.ownAttachment? (some user) uid
        = (s.database.attachmentByUid? uid).filter (·.creator == user) := by
      rw [State.ownAttachment?]
      refine congrArg (Option.filter · _) (funext fun a => ?_)
      rw [Option.some_beq_some, Bool.beq_comm]
    rw [hown, deleteAttachment, exec_bind_of_ok huser, exec_bind_of_ok hquery]
    split
    · rename_i hnone
      rw [hnone]
      exact .inl ⟨nofun, _, rfl⟩
    · rename_i a ha
      have hmem : a ∈ s.database.attachments :=
        List.mem_of_find?_eq_some (Option.filter_eq_some_iff.mp ha).1
      rw [ha]
      by_cases hworks : s.database.mishap? .attachment .delete = none
      · have hdelete : (transact (Database.deleteAttachment a.id)).exec s
            = (.ok true, s.withoutAttachment a) := by
          rw [transact, exec_atomic, Database.run_deleteAttachment_of_works hworks hmem]
          rfl
        rw [exec_bind_of_ok hdelete]
        exact .inr ⟨a, rfl, hworks, rfl⟩
      · refine .inl ⟨fun _ _ => hworks, ?_⟩
        rcases hdelete : (transact (Database.deleteAttachment a.id)).exec s with ⟨e | isDone, t⟩
        · obtain ⟨-, rfl⟩ := exec_transact_error hdelete
          exact ⟨e, exec_bind_of_error hdelete⟩
        · obtain ⟨d, hdone, rfl⟩ := exec_transact_ok hdelete
          cases isDone with
          | true => exact absurd (Database.mishap?_of_deleteAttachment hdone) hworks
          | false =>
            have hd := Database.run_deleteAttachment hdone
            rw [if_neg Bool.false_ne_true] at hd
            rw [exec_bind_of_ok hdelete, hd]
            exact ⟨_, rfl⟩

/-- Steps that leave the attachments as they are. -/
def Footprint.keepingRows : Footprint State where
  rel s t := t.holdings.attachments = s.holdings.attachments
  refl _ := rfl
  trans h h' := h'.trans h

theorem quiet_keepingRows {α : Type} {x : Action α} (h : IsQuiet x) :
    x.Within Footprint.keepingRows :=
  h.mono fun _ _ hquiet => congrArg Holdings.attachments hquiet.1

theorem releaseKeys_keepingRows (a : Attachment) :
    (releaseKeys a).Within Footprint.keepingRows := by
  have hdelete : ∀ (b : Backend) (key : String),
      (b.delete key).tolerate.Within Footprint.keepingRows := fun b key =>
    (delete_storing b key).tolerate.mono fun s t hrel => by
      show t.holdings.attachments = _
      rw [hrel.1]
  refine .bind (quiet_keepingRows (query_quiet _)) fun remaining => ?_
  split
  · refine .bind (quiet_keepingRows storageSetting_quiet) fun setting => ?_
    refine .bind (quiet_keepingRows (backendFor_quiet _ _)) fun b => ?_
    refine .bind (hdelete b _) fun _ => ?_
    cases a.thumbnail with
    | none => exact .pure _
    | some thumbnail => exact .bind (hdelete b _) fun _ => .pure _
  · exact .pure _

/-- **The keys of a row are released**, if no other row has the object and the store works. What a
row does not name is left as it was. -/
theorem releaseKeys_spec (hcount : s.database.countAt a.storage a.storageKey = 0)
    (hsetting : ∃ setting, (storageSetting.exec s).1 = .ok setting) (hplaced : IsPlaced a.storage s)
    (hworks : s.store.failure? .delete = none) (hkey : Filename.IsKey a.storageKey)
    (hobject : (s.object? a.storage a.storageKey).isSome)
    (hthumbnail : ∀ t, a.thumbnail = some t → t.storageKey = Filename.thumbnailKey a.storageKey
      ∧ (s.object? a.storage (Filename.thumbnailKey a.storageKey)).isSome) :
    ((releaseKeys a).exec s).2.Lacks a.storage a.storageKey
      ∧ if a.thumbnail.isSome
        then ((releaseKeys a).exec s).2.Lacks a.storage (Filename.thumbnailKey a.storageKey)
        else Undisturbed (Filename.thumbnailKey a.storageKey) s ((releaseKeys a).exec s).2 := by
  obtain ⟨setting, hsetting⟩ := hsetting
  have hquery : (query (·.countAt a.storage a.storageKey)).exec s
      = (.ok (s.database.countAt a.storage a.storageKey), s) := rfl
  rcases hread : storageSetting.exec s with ⟨result, s₁⟩
  obtain rfl : result = .ok setting := (congrArg Prod.fst hread).symm.trans hsetting
  obtain ⟨hquiet₁, hstore₁⟩ := storageSetting_unasked.of_exec hread
  obtain ⟨b, s₂, hfound, hhand, hkind⟩ :=
    (IsPlaced.stable _ s s₁ hquiet₁ hplaced).exec_backendFor setting
  obtain ⟨hquiet₂, hstore₂⟩ := (backendFor_unasked a.storage setting).of_exec hfound
  have hsame : s₂.holdings = s.holdings := hquiet₂.1.trans hquiet₁.1
  have hworks₂ : s₂.store.failure? .delete = none := by
    rw [hstore₂, hstore₁]
    exact hworks
  -- the object goes first, and the thumbnail is apart from it
  obtain ⟨s₃, hs₃⟩ : ∃ s₃, s₃ = ((b.delete a.storageKey).exec s₂).2 := ⟨_, rfl⟩
  have hgone : s₃.Lacks a.storage a.storageKey := by
    rw [hs₃, ← hkind]
    refine delete_lacks hhand hworks₂ ?_
    rw [hkind, State.object?_of_holdings hsame]
    exact hobject
  have hleft : Undisturbed (Filename.thumbnailKey a.storageKey) s s₃ := by
    refine (Undisturbed.of_same (congrArg Holdings.disk hsame)
      (congrArg Holdings.objects hsame) _).trans ?_
    rw [hs₃]
    exact (delete_touching b a.storageKey s₂).2 _ (hkey.apart_thumbnail hkey)
  have hworks₃ : s₃.store.failure? .delete = none := by
    rw [hs₃, delete_failure?]
    exact hworks₂
  have hexec : (releaseKeys a).exec s
      = ((a.thumbnail.map (·.storageKey)).toList.forM fun key => (b.delete key).tolerate).exec
        s₃ := by
    rw [releaseKeys, exec_bind_of_ok hquery, hcount, if_pos rfl, exec_bind_of_ok hread,
      exec_bind_of_ok hfound, hs₃]
    exact exec_bind_of_ok (exec_tolerate _ _)
  rw [hexec]
  cases hnamed : a.thumbnail with
  | none => exact ⟨hgone, hleft⟩
  | some thumbnail =>
    obtain ⟨hname, hthere⟩ := hthumbnail thumbnail hnamed
    have hexec' : ((((some thumbnail).map (·.storageKey)).toList.forM fun key =>
        (b.delete key).tolerate).exec s₃).2
          = ((b.delete (Filename.thumbnailKey a.storageKey)).exec s₃).2 := by
      rw [← hname]
      have hlast := congrArg Prod.snd (exec_bind_of_ok (f := fun _ => (pure () : Action Unit))
        (exec_tolerate (b.delete thumbnail.storageKey) s₃))
      exact hlast
    rw [hexec']
    constructor
    · exact ((delete_touching b _ s₃).2 _ (hkey.thumbnail_apart hkey)).lacks _ hgone
    · rw [Option.isSome_some, if_pos rfl, ← hkind]
      refine delete_lacks hhand hworks₃ ?_
      obtain ⟨content, hcontent⟩ := Option.isSome_iff_exists.mp hthere
      exact Option.isSome_iff_exists.mpr ⟨content, hkind ▸ hleft.object _ _ hcontent⟩

/-! ### The last attachment -/

/-- **Deleting the last attachment that has a key removes the object**, and the thumbnail if the row
names it. -/
theorem deleteAttachment_last (hs : IsSound source first s) (hable : s.IsAble)
    (hrow : HasRow key s) (hgone : ¬ HasRow key ((deleteAttachment viewer uid).exec s).2) :
    ∃ a ∈ s.holdings.attachments, (∀ c ∈ s.holdings.attachments, c.storageKey = key ↔ c = a)
      ∧ ((deleteAttachment viewer uid).exec s).2.Lacks a.storage key
      ∧ if a.thumbnail.isSome
        then ((deleteAttachment viewer uid).exec s).2.Lacks a.storage (Filename.thumbnailKey key)
        else Undisturbed (Filename.thumbnailKey key) s
          ((deleteAttachment viewer uid).exec s).2 := by
  rcases exec_deleteAttachment viewer uid s with ⟨-, e, hexec⟩ | ⟨a, hown, -, hexec⟩
  · rw [hexec] at hgone
    exact absurd hrow hgone
  · have ha : a ∈ s.holdings.attachments := State.mem_of_ownAttachment? hown
    rw [hexec] at hgone ⊢
    obtain ⟨s₁, hs₁⟩ : ∃ s₁, s₁ = s.withoutAttachment a := ⟨_, rfl⟩
    rw [← hs₁] at hgone ⊢
    have hrows : s₁.holdings.attachments = s.holdings.attachments.filter (·.id != a.id) := by
      rw [hs₁]
      rfl
    have honly : ∀ c ∈ s.holdings.attachments, c.storageKey = key → c = a := by
      intro c hc hkey
      refine hs.owned.eq_of_id hc ha (Decidable.byContradiction fun hid => hgone ⟨c, ?_, hkey⟩)
      rw [releaseKeys_keepingRows a s₁, hrows]
      exact List.mem_filter.mpr ⟨hc, bne_iff_ne.mpr hid⟩
    obtain ⟨c, hc, rfl⟩ := hrow
    obtain rfl := honly c hc rfl
    have hcount : s₁.database.countAt c.storage c.storageKey = 0 := by
      refine List.countP_eq_zero.mpr fun d hd hstored => ?_
      have hmem : d ∈ s.holdings.attachments.filter (·.id != c.id) := hrows ▸ hd
      obtain ⟨hd', hid⟩ := List.mem_filter.mp hmem
      have hsame := honly d hd' (beq_iff_eq.mp (Bool.and_eq_true_iff.mp hstored).2)
      exact bne_iff_ne.mp hid (congrArg Attachment.id hsame)
    have hsetting : ∃ setting, (storageSetting.exec s₁).1 = .ok setting := by
      rw [hs₁, State.withoutAttachment, storageSetting_attachments]
      exact hable.setting
    have hplaced : IsPlaced c.storage s₁ := by
      rw [IsPlaced, hs₁]
      exact hable.placed c hc
    have hsame : ∀ name, Undisturbed name s s₁ := by
      rw [hs₁]
      exact .of_same rfl rfl
    have hthere : ∀ name,
        (s.object? c.storage name).isSome → (s₁.object? c.storage name).isSome := by
      intro name hname
      obtain ⟨content, hcontent⟩ := Option.isSome_iff_exists.mp hname
      exact Option.isSome_iff_exists.mpr ⟨content, (hsame name).object _ _ hcontent⟩
    have hspec := releaseKeys_spec hcount hsetting hplaced (by rw [hs₁]; exact hable.deletes)
      (hs.isKey hc) (hthere _ (Option.isSome_iff_exists.mpr (hs.stocked.object c hc)))
      fun t ht => by
        obtain ⟨hname, content, hcontent, -⟩ := hs.stocked.thumbnail c hc t ht
        exact ⟨hname, hthere _ (Option.isSome_iff_exists.mpr ⟨content, hname ▸ hcontent⟩)⟩
    refine ⟨c, hc, fun d hd => ⟨honly d hd, fun h => h ▸ rfl⟩, hspec.1, ?_⟩
    cases hnamed : c.thumbnail.isSome with
    | true =>
      rw [hnamed, if_pos rfl] at hspec
      exact hspec.2
    | false =>
      rw [hnamed, if_neg Bool.false_ne_true] at hspec
      exact (hsame _).trans hspec.2

/-! ### What comes after -/

/-- The key was given out, and nobody has it any more. -/
structure IsRetired (source : Source) (first : Nat) (key : String) (s : State) : Prop where
  issued : source.Issued first s.draws key
  row : ¬ HasRow key s
  closed : ¬ IsOpenTo key s

theorem IsRetired.not_mayTouch (h : IsRetired source first key s) :
    ¬ MayTouch source first s key := by
  rintro ⟨-, hrow | hopen | hnot⟩
  · exact h.row hrow
  · exact h.closed hopen
  · exact hnot h.issued

/-- What a turn leaves follows on what was there before. -/
theorem IsSound.act_follows (hs : IsSound source first s) (growing : Prop)
    (hnames : source.NeverRepeats first last) (turn : Turn)
    (hturn : growing → ∀ viewer uid, turn ≠ .deleteAttachment viewer uid)
    (hlast : (turn.act.exec s).2.draws ≤ last) :
    Follows growing source first s (turn.act.exec s).2 :=
  ((Server.act_follows hnames hs.owned.first_le turn hturn s).2 hlast hs.follows).always

/-- A key that has been given out does not come to be that of an open upload. -/
theorem Follows.closed {growing : Prop} (h : Follows growing source first s t)
    (hissued : source.Issued first s.draws key) (hclosed : ¬ IsOpenTo key s) :
    ¬ IsOpenTo key t := by
  rintro ⟨x, hx, hkey⟩
  rcases (h.session x hx key hkey).2 with hopen | hnot
  · exact hclosed hopen
  · exact hnot hissued

theorem IsRetired.act (h : IsRetired source first key s) (hs : IsSound source first s)
    (hnames : source.NeverRepeats first last) (turn : Turn)
    (hlast : (turn.act.exec s).2.draws ≤ last) :
    IsRetired source first key (turn.act.exec s).2
      ∧ Undisturbed key s (turn.act.exec s).2
      ∧ Undisturbed (Filename.thumbnailKey key) s (turn.act.exec s).2 := by
  have hfollows := hs.act_follows False hnames turn False.elim hlast
  refine ⟨⟨h.issued.mono hfollows.draws_le, ?_, hfollows.closed h.issued h.closed⟩,
    hfollows.undisturbed key h.issued.isKey h.not_mayTouch⟩
  rintro ⟨a, ha, rfl⟩
  exact h.not_mayTouch (hfollows.row a ha)

/-- **At a key that nobody has any more everything stays as it is.** -/
theorem IsRetired.after (hnames : source.NeverRepeats first last) (turns : List Turn) :
    ∀ {s}, IsRetired source first key s → IsSound source first s → (s.after turns).draws ≤ last →
      Undisturbed key s (s.after turns)
        ∧ Undisturbed (Filename.thumbnailKey key) s (s.after turns) := by
  induction turns with
  | nil => exact fun _ _ _ => ⟨.refl _ _, .refl _ _⟩
  | cons turn turns ih =>
    intro s h hs hlast
    have hdraws := (isSound_after hnames turns (turn.act.exec s).2).1
    have hsound := (isSound_after hnames [turn] s).2 (Nat.le_trans hdraws hlast) hs
    obtain ⟨hretired, hobject, hthumbnail⟩ := h.act hs hnames turn (Nat.le_trans hdraws hlast)
    obtain ⟨hobject', hthumbnail'⟩ := ih hretired hsound hlast
    exact ⟨hobject.trans hobject', hthumbnail.trans hthumbnail'⟩

/-- **A key that is not in use any more has lost its last attachment by a deletion.** -/
theorem exists_deletion (hnames : source.NeverRepeats first last) (turns : List Turn) :
    ∀ {s}, IsSound source first s → (s.after turns).draws ≤ last →
      source.Issued first s.draws key → ¬ IsOpenTo key s → HasRow key s →
      ¬ HasRow key (s.after turns) →
      ∃ mid viewer uid rest, turns = mid ++ .deleteAttachment viewer uid :: rest
        ∧ HasRow key (s.after mid) ∧ IsSound source first (s.after mid)
        ∧ IsRetired source first key ((deleteAttachment viewer uid).exec (s.after mid)).2 := by
  induction turns with
  | nil => exact fun _ _ _ _ hrow hgone => absurd hrow hgone
  | cons turn turns ih =>
    intro s hs hlast hissued hclosed hrow hgone
    have hlast' := Nat.le_trans (isSound_after hnames turns (turn.act.exec s).2).1 hlast
    have hfollows := hs.act_follows False hnames turn False.elim hlast'
    have hissued' := hissued.mono hfollows.draws_le
    have hclosed' := hfollows.closed hissued hclosed
    by_cases hkept : HasRow key (turn.act.exec s).2
    · have hsound := (isSound_after hnames [turn] s).2 hlast' hs
      obtain ⟨mid, viewer, uid, rest, rfl, hmid⟩ := ih hsound hlast hissued' hclosed' hkept hgone
      exact ⟨turn :: mid, viewer, uid, rest, rfl, hmid⟩
    · by_cases hturn : ∃ viewer uid, turn = .deleteAttachment viewer uid
      · obtain ⟨viewer, uid, rfl⟩ := hturn
        exact ⟨[], viewer, uid, turns, rfl, hrow, hs, hissued', hkept, hclosed'⟩
      · have hgrowing := hs.act_follows True hnames turn
          (fun _ viewer uid heq => hturn ⟨viewer, uid, heq⟩) hlast'
        exact absurd (hgrowing.kept trivial key hrow) hkept

/-- No turn ties the server to a store. -/
theorem isTied_after (hnames : source.NeverRepeats first last) (turns : List Turn)
    (hs : IsSound source first s) (hlast : (s.after turns).draws ≤ last) :
    (s.after turns).holdings.isTied = s.holdings.isTied := by
  have hinv : IsLasting Digested.all source first everyone fun t =>
      IsSound source first t ∧ t.holdings.isTied = s.holdings.isTied :=
    isLasting_isSound.and fun _ h hdeed => hdeed.isTied_eq.trans h
  exact ((lasting_after hinv hnames turns s (Digested.all_coversRun turns s)).2 hlast
    ⟨hs, rfl⟩).2

/-- A thumbnail that is not there beside an object that is will not be there before it is stored. -/
theorem IsSound.lacks_thumbnail (hs : IsSound source first s) (ha : a ∈ s.holdings.attachments)
    (hnone : s.object? a.storage (Filename.thumbnailKey a.storageKey) = none) :
    s.Lacks a.storage (Filename.thumbnailKey a.storageKey) := by
  obtain ⟨content, hcontent⟩ := hs.stocked.object a ha
  obtain ⟨name, hname, hfile, -⟩ := (hs.isKey ha).exists_name
  obtain ⟨name', hname', hfile', -⟩ := (hs.isKey ha).exists_thumbnail_name
  cases hkind : a.storage with
  | disk =>
    rw [hkind] at hnone hcontent
    refine Disk.lacks_of_open (fun p q hp hq => ?_) (State.object?_disk.mp hcontent)
      fun found hfound => ?_
    · rw [hname'] at hp
      rw [hname] at hq
      rw [Path.parents_of_isFile (by decide) hfile' hp, Path.parents_of_isFile (by decide) hfile hq]
    · rw [State.object?_disk.mpr hfound] at hnone
      cases hnone
  | bucket =>
    rw [hkind] at hnone
    exact hnone

/-- What becomes of the object and of the thumbnail of an attachment, if no attachment has the key
any more after a number of turns. -/
theorem IsSound.removed (hs : IsSound source first s) (turns : List Turn)
    (hnames : source.NeverRepeats first (s.after turns).draws) (hable : s.StaysAble turns)
    (ha : a ∈ s.database.attachments) (hclosed : ¬ IsOpenTo a.storageKey s)
    (hgone : ¬ HasRow a.storageKey (s.after turns)) :
    (s.after turns).object? a.storage a.storageKey = none
      ∧ ∃ mid viewer uid rest, turns = mid ++ .deleteAttachment viewer uid :: rest
        ∧ ∃ last ∈ (s.after mid).database.attachments,
          (∀ c ∈ (s.after mid).database.attachments, c.storageKey = a.storageKey ↔ c = last)
          ∧ (∀ c ∈ (s.after (mid ++ [.deleteAttachment viewer uid])).database.attachments,
            c.storageKey ≠ a.storageKey)
          ∧ ((s.after turns).object? a.storage (Filename.thumbnailKey a.storageKey) = none
              ↔ last.thumbnail.isSome
                ∨ (s.after mid).object? a.storage (Filename.thumbnailKey a.storageKey) = none) := by
  obtain ⟨mid, viewer, uid, rest, rfl, hrow, hmid, hretired⟩ :=
    exists_deletion hnames turns hs (Nat.le_refl _)
      (hs.owned.issued _ _ _ (Holdings.owns_of_mem ha)) hclosed ⟨a, ha, rfl⟩ hgone
  have hable' := hable.of_append.isAble
  obtain ⟨last, hlast, honly, hlacks, hthumbnail⟩ :=
    deleteAttachment_last hmid hable' hrow hretired.row
  obtain ⟨t, ht⟩ : ∃ t, t = ((deleteAttachment viewer uid).exec (s.after mid)).2 := ⟨_, rfl⟩
  have hturns : s.after (mid ++ .deleteAttachment viewer uid :: rest) = t.after rest := by
    rw [State.after_append, ht]
    rfl
  rw [hturns] at hnames ⊢
  rw [← ht] at hretired hlacks hthumbnail
  have hdraws : t.draws ≤ (t.after rest).draws := (isSound_after hnames rest t).1
  have hthen : t = (s.after mid).after [.deleteAttachment viewer uid] := ht
  have hstep := isSound_after hnames [.deleteAttachment viewer uid] (s.after mid)
  rw [← hthen] at hstep
  -- both attachments are in the store that the server uses
  have hkind : last.storage = a.storage := by
    have htied : (s.after mid).resolver.isTied = s.resolver.isTied :=
      isTied_after hnames mid hs (Nat.le_trans hstep.1 hdraws)
    rw [hable'.placed last hlast, hable.isAble.placed a ha, htied]
  have hkey : last.storageKey = a.storageKey := (honly last hlast).mpr rfl
  obtain ⟨hobject, hpicture⟩ := hretired.after hnames rest (hstep.2 hdraws hmid) (Nat.le_refl _)
  rw [hkind] at hlacks hthumbnail
  refine ⟨(hobject.lacks _ hlacks).object?_eq_none, mid, viewer, uid, rest, rfl, last, hlast, honly,
    ?_, ?_⟩
  · rw [State.after_append, ← hthen]
    exact fun c hc hsame => hretired.row ⟨c, hc, hsame⟩
  cases hnamed : last.thumbnail.isSome with
  | true =>
    rw [hnamed, if_pos rfl] at hthumbnail
    exact iff_of_true (hpicture.lacks _ hthumbnail).object?_eq_none (.inl rfl)
  | false =>
    rw [hnamed, if_neg Bool.false_ne_true] at hthumbnail
    have hleft := hthumbnail.trans hpicture
    rw [or_iff_right Bool.false_ne_true]
    constructor
    · intro hnone
      refine Option.eq_none_iff_forall_ne_some.mpr fun content hcontent => ?_
      rw [hleft.object _ _ hcontent] at hnone
      cases hnone
    · intro hnone
      rw [← hkind, ← hkey] at hnone ⊢
      rw [← hkey] at hleft
      exact (hleft.lacks _ (hmid.lacks_thumbnail hlast hnone)).object?_eq_none

/-- A user stores a file. -/
def storedNotes : List Turn :=
  [.createAttachment (some 1) { filename := "notes", content := "aGVsbG8=" }]

end SharedMemos.Server
