import SharedMemos.Proofs.Server.Attachments.Deeds
import SharedMemos.Proofs.Server.Thumbnails

/-!
# Making and deleting attachments

What requests about attachments do where a lasting invariant holds. Most steps are quiet, and what
has been found out stays true through them. Each of the others is a deed, and its contract says what
must be known before:

* an object is stored at a key that nobody has;
* a row is added at a key that is ready for it, with a digest that is accounted for;
* a thumbnail is stored where no row has one;
* an object is removed when no row has its key any more.

## Main results

* `allocateKey_upholds`, `reusableKey_upholds` — where keys come from
* `insertAttachment_upholds`, `withThumbnail_upholds` — adding a row and its thumbnail
* `createAttachment_upholds`, `deleteAttachment_upholds` — the requests
-/

namespace SharedMemos.Server

open SharedMemos.Storage SharedMemos.Upload SharedMemos.Bytes Attempt

variable {digested : Digested} {source : Source} {first last : Nat} {party : UserId → Prop}
  {inv : State → Prop} {s t : State} {key : String} {b : Backend}

/-- Quiet steps keep what lasts. -/
theorem quiet_upholds {α : Type} {a : Action α} (hinv : IsLasting digested source first party inv)
    (h : IsQuiet a) : a.Upholds last inv inv fun _ => inv :=
  .quiet h hinv.stable fun _ hs => hs

/-- A request goes on in the name of the user who is signed in. -/
theorem signedIn_bind_upholds {α : Type} {reason : String} {viewer : Viewer} {f : UserId → Action α}
    {pre : State → Prop} {post : α → State → Prop} (himp : ∀ s, pre s → inv s)
    (hf : ∀ user, viewer = some user → (f user).Upholds last inv pre post) :
    (signedIn reason viewer >>= f).Upholds last inv pre post := by
  cases viewer with
  | none => exact .throw_bind himp
  | some user => exact hf user rfl

/-! ### Finding keys -/

/-- A drawn name makes a key that nobody has. -/
theorem drawKey_upholds (hinv : IsLasting digested source first party inv)
    (hnames : source.NeverRepeats first last) (filename : String) :
    (drawName Limit.keyLength).Upholds last inv inv
      fun name s => inv s ∧ IsFresh source first (Filename.storageKey name filename) s := by
  intro s
  refine ⟨Nat.le_succ _, fun hlast hs => ?_⟩
  have howned := (hinv.sound hs).owned
  have hdraw : s.draws < last := hlast
  have hfirst := howned.first_le
  have hname : s.source.name s.draws Limit.keyLength = source.keyName s.draws :=
    congrArg (fun source : Source => source.name s.draws Limit.keyLength) howned.source_eq
  refine ⟨hinv.stable s _ (drawName_quiet _ s) hs, ?_⟩
  show IsFresh source first (Filename.storageKey (s.source.name s.draws Limit.keyLength) filename) _
  rw [hname]
  refine ⟨hnames.issued hfirst hdraw filename, fun user kind hown => ?_⟩
  exact hnames.isNew hfirst hdraw filename (howned.issued user kind _ hown)

theorem freeKey_upholds (hinv : IsLasting digested source first party inv)
    (hnames : source.NeverRepeats first last) (b : Backend) (filename : String)
    (attempts : Nat) :
    (freeKey b filename attempts).Upholds last inv inv
      fun key s => inv s ∧ IsFresh source first key s := by
  induction attempts with
  | zero => exact .throw fun _ hs => hs
  | succ attempts ih =>
    refine .bind (drawKey_upholds hinv hnames filename) fun name => ?_
    have hstable : IsStable fun s => inv s
        ∧ IsFresh source first (Filename.storageKey name filename) s :=
      hinv.stable.and IsFresh.stable
    refine .bind (.quiet (query_quiet _) hstable fun _ hs => hs.1) fun isUsed => ?_
    cases isUsed with
    | true => exact ih.weaken_pre fun _ hs => hs.1
    | false =>
      refine .bind (.quiet (exists?_quiet b _) hstable fun _ hs => hs.1) fun isThere => ?_
      cases isThere with
      | true => exact ih.weaken_pre fun _ hs => hs.1
      | false => exact .pure fun _ hs => hs

/-- **A fresh key is nobody's.** -/
theorem allocateKey_upholds (hinv : IsLasting digested source first party inv)
    (hnames : source.NeverRepeats first last) (b : Backend) (filename : String) :
    (allocateKey b filename).Upholds last inv inv
      fun key s => inv s ∧ IsFresh source first key s :=
  freeKey_upholds hinv hnames b filename _

/-! ### Stores -/

/-- The store is the one that the server is tied to, if there is one. -/
def IsMeant (b : Backend) (s : State) : Prop :=
  b = .tied ↔ s.holdings.isTied = true

theorem IsMeant.stable (b : Backend) : IsStable (IsMeant b) :=
  .of_holdings fun h => b = .tied ↔ h.isTied = true

/-- A store that is meant and has answered is where the server can reach objects. -/
theorem IsMeant.isPlaced (h : IsMeant b s) (hanswers : IsAtHand b) : IsPlaced b.kind s := by
  rw [IsPlaced]
  cases b with
  | disk =>
    rw [if_neg fun htied => Backend.noConfusion (h.mpr htied)]
    rfl
  | bucket client => exact absurd rfl (hanswers client)
  | tied =>
    rw [if_pos (h.mp rfl)]
    rfl

/-- The store that is found is the one for the kind. -/
theorem backendFor_upholds {pre : State → Prop} (hpre : IsStable pre) (himp : ∀ s, pre s → inv s)
    (kind : Kind) (setting : Setting) :
    (backendFor kind setting).Upholds last inv pre
      fun b s => pre s ∧ IsMeant b s ∧ b.kind = if s.holdings.isTied then .bucket else kind := by
  refine .quiet_spec (backendFor_quiet kind setting) hpre himp fun s b t hexec _ _ => ?_
  have hholdings := ((backendFor_quiet kind setting).of_exec hexec).1
  refine ⟨?_, ?_⟩
  · rw [IsMeant, hholdings]
    rcases backendFor_spec hexec with ⟨htied, hb⟩ | ⟨hfree, hb, -⟩
    · exact iff_of_true hb htied
    · exact iff_of_false hb (Bool.eq_false_iff.mp hfree)
  · rw [hholdings]
    exact backendFor_kind hexec

/-- What is known before the bytes of a new attachment are stored: the store is the one for them,
and they are what is digested. -/
structure IsSending (digested : Digested) (b : Backend) (hash : String) (size : Int)
    (bytes : ByteArray) (s : State) : Prop where
  isMeant : IsMeant b s
  reads : digested.Reads hash size bytes

theorem IsSending.stable (hash : String) (size : Int) (bytes : ByteArray) :
    IsStable (IsSending digested b hash size bytes) :=
  fun s t hquiet h => ⟨IsMeant.stable b s t hquiet h.isMeant, h.reads⟩

/-- An attachment of a user may be added: the key is ready for it, its digest is accounted for, and
the server can reach the object. -/
structure IsDue (digested : Digested) (source : Source) (first : Nat) (user : UserId)
    (hash : String) (size : Int) (kind : Kind) (key : String) (s : State) : Prop where
  ready : IsReady source first user kind key s
  backed : IsBacked digested source first user hash size kind key s
  placed : IsPlaced kind s

theorem IsDue.stable {user : UserId} {hash : String} {size : Int} {kind : Kind} :
    IsStable (IsDue digested source first user hash size kind key) :=
  fun s t hquiet h => ⟨IsReady.stable s t hquiet h.ready, IsBacked.stable s t hquiet h.backed,
    IsPlaced.stable kind s t hquiet h.placed⟩

/-- **A key that is used again is that of an attachment of the user with the digest.** -/
theorem reusableKey_upholds (hinv : IsLasting digested source first party inv) (b : Backend)
    (user : UserId) (hash : String) (size : Int) (bytes : ByteArray) :
    (reusableKey b user hash).Upholds last inv
      (fun s => inv s ∧ IsSending digested b hash size bytes s)
      fun reused s => (inv s ∧ IsSending digested b hash size bytes s)
        ∧ ∀ key, reused = some key → IsDue digested source first user hash size b.kind key s := by
  have hquiet := reusableKey_quiet b user hash
  refine .quiet_spec hquiet (hinv.stable.and (IsSending.stable hash size bytes))
    (fun _ hs => hs.1) ?_
  rintro s reused t hexec - ⟨hs, hsending⟩ key rfl
  obtain ⟨hanswers, a, ha, rfl, hkind, rfl, hhash⟩ := reusableKey_spec hexec
  have hready := (hinv.sound hs).isReady ha
  rw [hkind] at hready
  refine IsDue.stable s t (hquiet.of_exec hexec) ⟨hready, ?_, hsending.isMeant.isPlaced hanswers⟩
  exact .shared hsending.reads ha rfl hkind rfl hhash

/-! ### Storing an object and adding its row -/

/-- **An object may be stored at a fresh key**, and then an attachment with its bytes may be added.
-/
theorem storeFresh_upholds {α : Type} {a : Action α}
    (hinv : IsLasting digested source first party inv) (b : Backend) (user : UserId)
    (hash : String) (size : Int) (bytes : ByteArray) (φ : Prop)
    (hstoring : a.Within (Footprint.storing key))
    (hthere : ∀ s x t, φ → a.exec s = (.ok x, t) → IsAtHand b ∧ ∃ object,
      t.object? b.kind key = some object ∧ object.toList = bytes.data.toList) :
    a.Upholds last inv
      (fun s => ((inv s ∧ IsFresh source first key s) ∧ IsSending digested b hash size bytes s) ∧ φ)
      fun _ s => inv s ∧ IsFresh source first key s
        ∧ IsDue digested source first user hash size b.kind key s := by
  have hkeeps : ∀ s t, (Footprint.storing key).rel s t → inv s → IsFresh source first key s →
      inv t :=
    fun s t hrel hs hfresh =>
      hinv.deed hs (.atUnused hfresh.issued.isKey hfresh.isUnused hfresh.isOwn hrel)
  refine .of_within hstoring (fun s t hrel => hrel.2.1) ?_ ?_
  · rintro s x t hexec hrel - ⟨⟨⟨hs, hfresh⟩, hsending⟩, hφ⟩
    obtain ⟨hanswers, object, hobject, hsame⟩ := hthere s x t hφ hexec
    have hfresh' : IsFresh source first key t := by
      refine ⟨hfresh.issued.mono hrel.2.1, ?_⟩
      rw [hrel.1]
      exact hfresh.free
    have hplaced : IsPlaced b.kind t := by
      rw [IsPlaced, hrel.1]
      exact hsending.isMeant.isPlaced hanswers
    refine ⟨hkeeps s t hrel hs hfresh, hfresh', ⟨⟨object, hobject⟩, hfresh'.issued, ?_, ?_⟩,
      .stored hsending.reads hobject hsame hfresh', hplaced⟩
    · exact fun user' kind' hown => absurd hown (hfresh'.free user' kind')
    · intro htied
      rw [hplaced, if_pos htied]
  · rintro s t hrel - ⟨⟨⟨hs, hfresh⟩, -⟩, -⟩
    exact hkeeps s t hrel hs hfresh

/-- The attachment has been added for one of the users, and is the only one with its number. -/
structure IsAdded (party : UserId → Prop) (a : Attachment) (s : State) : Prop where
  user : party a.creator
  only : IsOnly a s

theorem IsAdded.stable (a : Attachment) : IsStable (IsAdded party a) :=
  fun s t hquiet h => ⟨h.user, IsOnly.stable a s t hquiet h.only⟩

/-- **A row may be added where one is due.** If that fails, an object is only removed if it was
stored for the row alone. -/
theorem insertAttachment_upholds (hinv : IsLasting digested source first party inv) (b : Backend)
    {a : Attachment} (isFresh : Bool) (huser : ∀ s, inv s → party a.creator)
    (hnone : a.thumbnail = none) :
    (insertAttachment b a isFresh).Upholds last inv
      (fun s => inv s
        ∧ IsDue digested source first a.creator a.contentHash a.size a.storage a.storageKey s
        ∧ (isFresh = true → IsFresh source first a.storageKey s))
      fun a' s => inv s ∧ IsAdded party a' s ∧ IsPlaced a'.storage s
        ∧ ∃ id uid time,
          a' = { a with id := id, uid := uid, created := time, updated := time } := by
  intro s
  rcases hexec : (insertAttachment b a isFresh).exec s with ⟨e | a', t⟩
  · obtain ⟨hstoring, hquiet⟩ := insertAttachment_error hexec
    refine ⟨hstoring.2.1, fun _ ⟨hs, hdue, hfresh⟩ => ?_⟩
    cases isFresh with
    | false => exact hinv.stable s t (hquiet rfl) hs
    | true =>
      exact hinv.deed hs (.atUnused hdue.ready.issued.isKey (hfresh rfl).isUnused
        (hfresh rfl).isOwn hstoring)
  · obtain ⟨⟨uid, time, hrow⟩, hholdings, hdraws, hnew⟩ := insertAttachment_spec hexec
    refine ⟨hdraws, fun _ ⟨hs, hdue, _⟩ => ?_⟩
    have hdue' : IsDue digested source first a'.creator a'.contentHash a'.size a'.storage
        a'.storageKey s := by
      rw [hrow]
      exact hdue
    have hnone' : a'.thumbnail = none := by
      rw [hrow]
      exact hnone
    have huser' : party a'.creator := by
      rw [hrow]
      exact huser s hs
    have hid : a'.id = s.holdings.lastAttachment + 1 := by
      rw [hrow]
      rfl
    have hplaced : IsPlaced a'.storage t := by
      rw [IsPlaced, hholdings]
      exact hdue'.placed
    refine ⟨?_, ⟨huser', ?_⟩, hplaced, _, uid, time, hrow⟩
    · exact hinv.deed hs
        (.insert huser' hdue'.ready hdue'.backed hnone' hid hnew hholdings hdraws)
    · exact ((hinv.sound hs).insert hdue'.ready hnone' hid hholdings hdraws).2

/-! ### Thumbnails -/

/-- A thumbnail that is there may be recorded. -/
theorem recordThumbnail_upholds (hinv : IsLasting digested source first party inv) (a : Attachment)
    (thumbnail : Thumbnail) :
    (recordThumbnail a thumbnail).Upholds last inv
      (fun s => inv s ∧ IsAdded party a s ∧ s.holdings.HasThumbnail a thumbnail)
      fun _ => inv := by
  intro s
  rcases hexec : (recordThumbnail a thumbnail).exec s with ⟨e | _, t⟩
  · obtain ⟨time, -, rfl⟩ := exec_transactNow_error hexec
    exact ⟨Nat.le_refl _, fun _ hs => hinv.stable s _ ⟨rfl, Nat.le_refl _⟩ hs.1⟩
  · obtain ⟨time, d, hrun, rfl⟩ := exec_transactNow_ok hexec
    refine ⟨Nat.le_refl _, fun _ ⟨hs, hadded, hthumbnail⟩ => ?_⟩
    rcases Database.run_changeAttachment hrun with rfl | rfl
    · exact hinv.stable s _ ⟨rfl, Nat.le_refl _⟩ hs
    · exact hinv.deed hs (.record hadded.user hadded.only hthumbnail rfl (Nat.le_refl _))

/-- A thumbnail may be stored where no attachment has one. -/
theorem putThumbnail_upholds (hinv : IsLasting digested source first party inv) (a : Attachment)
    (b : Backend) (content : Blob) :
    (b.put (Filename.thumbnailKey a.storageKey) content).Upholds last inv
      (fun s => inv s ∧ IsAdded party a s ∧ IsUnpictured a.storageKey s ∧ b.kind = a.storage)
      fun n s => inv s ∧ IsAdded party a s ∧ s.holdings.HasThumbnail a
        ⟨Filename.thumbnail a.filename, ContentType.jpeg, n,
          Filename.thumbnailKey a.storageKey⟩ := by
  have hkeeps : ∀ s t, (Footprint.storing (Filename.thumbnailKey a.storageKey)).rel s t → inv s →
      IsAdded party a s → IsUnpictured a.storageKey s → inv t := by
    intro s t hrel hs hadded hnone
    have hsound := hinv.sound hs
    have hown := hsound.isOwn (Holdings.owns_of_mem hadded.only.1) hadded.user
    exact hinv.deed hs (.atThumbnail (hsound.isKey hadded.only.1) hnone hown hrel)
  refine .of_within (put_storing b _ _) (fun s t hrel => hrel.2.1) ?_ ?_
  · rintro s n t hexec hrel - ⟨hs, hadded, hnone, hkind⟩
    obtain ⟨-, hsize, hobject⟩ := put_spec hexec
    refine ⟨hkeeps s t hrel hs hadded hnone, ⟨hadded.user, ?_⟩, rfl, _, hkind ▸ hobject, ?_⟩
    · rw [IsOnly, hrel.1]
      exact hadded.only
    · rw [hsize]
  · rintro s t hrel - ⟨hs, hadded, hnone, -⟩
    exact hkeeps s t hrel hs hadded hnone

theorem storeThumbnail_upholds (hinv : IsLasting digested source first party inv) (a : Attachment)
    (b : Backend) (content : Blob) :
    (storeThumbnail a b content).Upholds last inv
      (fun s => inv s ∧ IsAdded party a s ∧ IsUnpictured a.storageKey s ∧ b.kind = a.storage)
      fun _ => inv := by
  have hstable : IsStable fun s => inv s ∧ IsAdded party a s ∧ IsUnpictured a.storageKey s
      ∧ b.kind = a.storage :=
    hinv.stable.and
      ((IsAdded.stable a).and ((IsUnpictured.stable _).and (.of_holdings fun _ => _)))
  refine .bind (.quiet (.ofExcept _) hstable fun _ hs => hs.1) fun picture => ?_
  refine .bind (putThumbnail_upholds hinv a b _) fun n => ?_
  exact .bind (recordThumbnail_upholds hinv a _) fun _ => .pure fun _ hs => hs

/-- The thumbnail that is shared is one of an attachment with the same object. -/
theorem sharedThumbnail?_eq_some {d : Database} {kind : Kind} {thumbnail : Thumbnail}
    (h : d.sharedThumbnail? kind key = some thumbnail) :
    ∃ a ∈ d.attachments, a.storage = kind ∧ a.storageKey = key ∧ a.thumbnail = some thumbnail := by
  obtain ⟨a, ha, hthumbnail⟩ := List.mem_filterMap.mp (List.mem_of_mem_head? h)
  obtain ⟨hmem, hstored⟩ := List.mem_filter.mp ha
  obtain ⟨hkind, hkey⟩ := Bool.and_eq_true_iff.mp hstored
  exact ⟨a, List.mem_reverse.mp hmem, beq_iff_eq.mp hkind, beq_iff_eq.mp hkey, hthumbnail⟩

theorem sharedThumbnail?_eq_none {d : Database} {kind : Kind}
    (h : d.sharedThumbnail? kind key = none) {a : Attachment} (ha : a ∈ d.attachments)
    (hkind : a.storage = kind) (hkey : a.storageKey = key) : a.thumbnail = none := by
  have hnil := List.head?_eq_none_iff.mp h
  refine List.filterMap_eq_nil_iff.mp hnil a (List.mem_filter.mpr ⟨List.mem_reverse.mpr ha, ?_⟩)
  exact Bool.and_eq_true_iff.mpr ⟨beq_iff_eq.mpr hkind, beq_iff_eq.mpr hkey⟩

/-- A thumbnail is shared or made. -/
theorem findThumbnail_upholds (hinv : IsLasting digested source first party inv) (a : Attachment)
    (setting : Setting) (picture : PictureSource) :
    (findThumbnail a setting picture).Upholds last inv (fun s => inv s ∧ IsAdded party a s)
      fun _ => inv := by
  refine .bind (.query _) fun shared => ?_
  cases shared with
  | some thumbnail =>
    refine .bind ((recordThumbnail_upholds hinv a thumbnail).weaken_pre ?_) fun _ =>
      .pure fun _ hs => hs
    rintro s ⟨⟨hs, hadded⟩, hshared⟩
    obtain ⟨row, hrow, hkind, hkey, hthumbnail⟩ := sharedThumbnail?_eq_some hshared.symm
    obtain ⟨hname, hobject⟩ := (hinv.sound hs).stocked.thumbnail row hrow thumbnail hthumbnail
    rw [hkey] at hname
    rw [hkind] at hobject
    exact ⟨hs, hadded, hname, hobject⟩
  | none =>
    have hstable : IsStable fun s => inv s ∧ IsAdded party a s ∧ IsUnpictured a.storageKey s :=
      hinv.stable.and ((IsAdded.stable a).and (IsUnpictured.stable _))
    refine .bind ((backendFor_upholds hstable (fun _ hs => hs.1) a.storage setting).weaken_pre ?_)
      fun b => ?_
    · rintro s ⟨⟨hs, hadded⟩, hshared⟩
      refine ⟨hs, hadded, fun row hrow hkey => ?_⟩
      refine sharedThumbnail?_eq_none hshared.symm hrow ?_ hkey
      exact ((hinv.sound hs).owned.owner _ _ _ _ _ (Holdings.owns_of_mem hadded.only.1)
        (hkey ▸ Holdings.owns_of_mem hrow)).2
    · have hstable' : IsStable fun s => inv s ∧ IsAdded party a s ∧ IsUnpictured a.storageKey s
          ∧ b.kind = a.storage :=
        hinv.stable.and
          ((IsAdded.stable a).and ((IsUnpictured.stable _).and (.of_holdings fun _ => _)))
      refine .bind ((Upholds.quiet (loadPicture_quiet a b picture) hstable' fun _ hs =>
        hs.1).weaken_pre ?_) fun content => ?_
      · rintro s ⟨⟨hs, hadded, hnone⟩, -, hkind⟩
        refine ⟨hs, hadded, hnone, ?_⟩
        rw [hkind]
        split
        · rename_i htied
          exact ((hinv.sound hs).owned.tied htied a hadded.only.1).symm
        · rfl
      · cases content with
        | some content =>
          exact .bind (storeThumbnail_upholds hinv a b content) fun _ => .pure fun _ hs => hs
        | none => exact .pure fun _ hs => hs.1

/-- **Making a thumbnail keeps what lasts**, whether it succeeds or not, and the attachment is the
same. -/
theorem withThumbnail_upholds (hinv : IsLasting digested source first party inv) (a : Attachment)
    (setting : Setting) (picture : PictureSource) :
    (withThumbnail a setting picture).Upholds last inv (fun s => inv s ∧ IsAdded party a s)
      fun a' s => inv s ∧ a.SameFile a' := by
  rw [withThumbnail]
  split
  · exact .pure fun _ hs => ⟨hs.1, .refl a⟩
  · refine .bind (findThumbnail_upholds hinv a setting picture).outcome fun found => ?_
    rcases found with e | - | thumbnail
    · exact .pure fun _ hs => ⟨hs, .refl a⟩
    · exact .pure fun _ hs => ⟨hs, .refl a⟩
    · exact .pure fun _ hs => ⟨hs, rfl⟩

/-! ### Requests -/

/-- The attachment has been made of bytes with a digest and a size: its row is kept, and the server
can reach its object. -/
structure IsMade (hash : String) (size : Int) (a : Attachment) (s : State) : Prop where
  kept : HasKept a s
  placed : IsPlaced a.storage s
  hash_eq : a.contentHash = hash
  size_eq : a.size = size

/-- What lasts still holds when an attachment has been made. -/
theorem IsLasting.isMade (hinv : IsLasting digested source first party inv) (hash : String)
    (size : Int) (a : Attachment) :
    IsLasting digested source first party fun s => inv s ∧ IsMade hash size a s :=
  hinv.and fun _ h hdeed => ⟨h.kept.deed hdeed, h.placed.deed hdeed, h.hash_eq, h.size_eq⟩

theorem IsMade.of_sameFile {hash : String} {size : Int} {a a' : Attachment}
    (h : IsMade hash size a s) (hsame : a.SameFile a') : IsMade hash size a' s where
  kept := h.kept.of_sameFile hsame
  placed := by rw [← hsame]; exact h.placed
  hash_eq := by rw [← hsame]; exact h.hash_eq
  size_eq := by rw [← hsame]; exact h.size_eq

/-- The row of a new attachment is added where it is due. -/
theorem insertNew_upholds (hinv : IsLasting digested source first party inv) (b : Backend)
    {user : UserId} {filename contentType hash : String} {size : Int} {memo : Option Int}
    (isFresh : Bool) (huser : ∀ s, inv s → party user) :
    (insertAttachment b (newAttachment user filename contentType size hash b.kind key memo)
        isFresh).Upholds last inv
      (fun s => inv s ∧ IsDue digested source first user hash size b.kind key s
        ∧ (isFresh = true → IsFresh source first key s))
      fun a s => (inv s ∧ IsMade hash size a s) ∧ IsAdded party a s := by
  refine (insertAttachment_upholds hinv b isFresh huser rfl).weaken (fun _ hs => hs) ?_
  rintro a s ⟨hs, hadded, hplaced, id, uid, time, rfl⟩
  exact ⟨⟨hs, hadded.only.hasKept (hinv.sound hs), hplaced, rfl, rfl⟩, hadded⟩

/-- With its thumbnail it is still what has been made. -/
theorem withThumbnail_isMade (hinv : IsLasting digested source first party inv) (hash : String)
    (size : Int) (a : Attachment) (setting : Setting) (picture : PictureSource) :
    (withThumbnail a setting picture).Upholds last inv
      (fun s => (inv s ∧ IsMade hash size a s) ∧ IsAdded party a s)
      fun a' s => inv s ∧ IsMade hash size a' s := by
  refine .weaken_inv ((withThumbnail_upholds (hinv.isMade hash size a) a setting picture).weaken
    (fun _ hs => hs) ?_) fun _ hs => hs.1
  exact fun a' s ⟨⟨hs, hmade⟩, hsame⟩ => ⟨hs, hmade.of_sameFile hsame⟩

/-- The row of a new attachment is added, and its thumbnail after it. -/
theorem addAttachment_upholds (hinv : IsLasting digested source first party inv) (b : Backend)
    {user : UserId} {filename contentType hash : String} {size : Int} {memo : Option Int}
    (isFresh : Bool) (setting : Setting) (picture : PictureSource)
    (huser : ∀ s, inv s → party user) :
    (insertAttachment b (newAttachment user filename contentType size hash b.kind key memo) isFresh
        >>= fun a => withThumbnail a setting picture).Upholds last inv
      (fun s => inv s ∧ IsDue digested source first user hash size b.kind key s
        ∧ (isFresh = true → IsFresh source first key s))
      fun a s => inv s ∧ IsMade hash size a s :=
  .bind (insertNew_upholds hinv b isFresh huser) fun a =>
    withThumbnail_isMade hinv hash size a setting picture

/-- **Making an attachment keeps what lasts**, if its bytes may be digested. -/
theorem createAttachment_upholds (hinv : IsLasting digested source first party inv)
    (hnames : source.NeverRepeats first last) {viewer : Viewer}
    (hviewer : ∀ user, viewer = some user → party user) (draft : AttachmentDraft) :
    (createAttachment viewer draft).Upholds last inv
      (fun s => inv s ∧ ∀ bytes, ofBase64? (Text.trim draft.content) = some bytes →
        digested.content bytes)
      fun a s => inv s ∧ ∃ bytes, ofBase64? (Text.trim draft.content) = some bytes
        ∧ IsMade (sha256Hex bytes) bytes.size a s := by
  have hstable : IsStable fun s => inv s
      ∧ ∀ bytes, ofBase64? (Text.trim draft.content) = some bytes → digested.content bytes :=
    hinv.stable.and (.of_holdings fun _ => _)
  refine signedIn_bind_upholds (fun _ hs => hs.1) fun user hsigned => ?_
  have huser := hviewer user hsigned
  refine .bind (.quiet (.ofExcept _) hstable fun _ hs => hs.1) fun filename => ?_
  refine .ofExcept_bind (fun _ hs => hs.1) fun bytes hbytes => ?_
  have hcontent := expect_eq_ok hbytes
  refine .bind (.quiet storageSetting_quiet hstable fun _ hs => hs.1) fun setting => ?_
  refine .bind (.quiet (checkLimit_quiet _ _) hstable fun _ hs => hs.1) fun _ => ?_
  refine .bind (.quiet (memoLink_quiet _ _) hstable fun _ hs => hs.1) fun memo => ?_
  refine .bind (backendFor_upholds hstable (fun _ hs => hs.1) _ setting) fun b => ?_
  refine .bind ((reusableKey_upholds hinv b user _ _ bytes).weaken_pre fun s hs =>
    ⟨hs.1.1, hs.2.1, hs.1.2 bytes hcontent, rfl, rfl⟩) fun reused => ?_
  have hmade : ∀ a s, inv s ∧ IsMade (sha256Hex bytes) bytes.size a s → inv s ∧ ∃ bytes,
      ofBase64? (Text.trim draft.content) = some bytes
        ∧ IsMade (sha256Hex bytes) bytes.size a s :=
    fun a s hs => ⟨hs.1, bytes, hcontent, hs.2⟩
  cases reused with
  | some key =>
    refine (addAttachment_upholds hinv b false setting _ fun _ _ => huser).weaken ?_ hmade
    rintro s ⟨⟨hs, -⟩, hdue⟩
    exact ⟨hs, hdue key rfl, fun hfalse => Bool.noConfusion hfalse⟩
  | none =>
    refine .bind (((allocateKey_upholds hinv hnames b filename).and_within (allocateKey_quiet _ _)
      (IsSending.stable _ _ bytes)).weaken_pre fun s hs => hs.1) fun key => ?_
    refine .bind ((storeFresh_upholds hinv b user _ _ bytes True (put_storing b key _)
      fun s n t _ hexec => ?_).weaken_pre fun s hs => ⟨hs, trivial⟩) fun _ => ?_
    · obtain ⟨hanswers, -, hobject⟩ := put_spec hexec
      exact ⟨hanswers, _, hobject, Blob.toList_ofBytes bytes⟩
    · refine (addAttachment_upholds hinv b true setting _ fun _ _ => huser).weaken ?_ hmade
      exact fun s ⟨hs, hfresh, hdue⟩ => ⟨hs, hdue, fun _ => hfresh⟩

/-! ### Deleting -/

/-- What is known of an attachment of one of the users whose row has been removed: its keys, that
nobody else owns them, and that attachments which share its object are in the same kind of store. -/
structure WasSound (party : UserId → Prop) (a : Attachment) (s : State) : Prop where
  isKey : Filename.IsKey a.storageKey
  isOwn : IsOwn party a.storageKey s
  thumbnail : ∀ t, a.thumbnail = some t → t.storageKey = Filename.thumbnailKey a.storageKey
  kind : ∀ b ∈ s.holdings.attachments, b.storageKey = a.storageKey → b.storage = a.storage

/-- A row may be removed at any time, by its user. -/
theorem deleteRow_upholds (hinv : IsLasting digested source first party inv) {a : Attachment}
    (huser : party a.creator) :
    (transact (Database.deleteAttachment a.id)).Upholds last inv
      (fun s => inv s ∧ a ∈ s.holdings.attachments) fun _ s => inv s ∧ WasSound party a s := by
  refine .transact (fun _ hs => hs.1) ?_
  rintro s isDone d hrun ⟨hs, ha⟩
  have hsound := hinv.sound hs
  have hwas : WasSound party a s := by
    refine ⟨hsound.isKey ha, hsound.isOwn (Holdings.owns_of_mem ha) huser,
      fun t ht => (hsound.stocked.thumbnail a ha t ht).key, fun b hb hsame => ?_⟩
    exact (hsound.owned.owner _ _ _ _ _ (Holdings.owns_of_mem ha)
      (hsame ▸ Holdings.owns_of_mem hb)).2
  have hd := Database.run_deleteAttachment hrun
  cases isDone with
  | false =>
    rw [if_neg Bool.false_ne_true] at hd
    subst hd
    exact ⟨hs, hwas⟩
  | true =>
    rw [if_pos rfl] at hd
    subst hd
    have husers : ∀ b ∈ s.holdings.attachments, (b.id != a.id) = false → party b.creator := by
      intro b hb hsame
      rw [hsound.owned.eq_of_id hb ha (bne_eq_false_iff_eq.mp hsame)]
      exact huser
    refine ⟨hinv.deed hs (.delete husers rfl (Nat.le_refl _)), hwas.isKey, ?_, hwas.thumbnail,
      fun b hb => hwas.kind b (List.mem_of_mem_filter hb)⟩
    rintro user kind (⟨b, hb, hrow⟩ | hsession)
    · exact hwas.isOwn user kind (.inl ⟨b, List.mem_of_mem_filter hb, hrow⟩)
    · exact hwas.isOwn user kind (.inr hsession)

/-- What is done to objects changes nothing about it. -/
theorem WasSound.of_rows {a : Attachment} (h : WasSound party a s)
    (hrows : t.holdings.attachments = s.holdings.attachments)
    (hsessions : t.holdings.sessions = s.holdings.sessions) : WasSound party a t := by
  refine ⟨h.isKey, fun user kind hown => ?_, h.thumbnail, ?_⟩
  · exact h.isOwn user kind ((Holdings.owns_congr hrows hsessions).mp hown)
  · rw [hrows]
    exact h.kind

theorem WasSound.stable (a : Attachment) : IsStable (WasSound party a) := by
  intro s t hquiet h
  refine h.of_rows ?_ ?_
  · rw [hquiet.1]
  · rw [hquiet.1]

/-- Where no row is counted, none is. -/
theorem WasSound.isUnused {a : Attachment} (h : WasSound party a s)
    (hcount : s.database.countAt a.storage a.storageKey = 0) : IsUnused a.storageKey s := by
  intro b hb hsame
  refine List.countP_eq_zero.mp hcount b hb ?_
  exact Bool.and_eq_true_iff.mpr ⟨beq_iff_eq.mpr (h.kind b hb hsame), beq_iff_eq.mpr hsame⟩

/-- An object that no attachment has may be removed, and so may its thumbnail. -/
theorem delete_upholds (hinv : IsLasting digested source first party inv) (b : Backend)
    {a : Attachment} {name : String} (hname : name ∈ objectKeys a) :
    (b.delete name).tolerate.Upholds last inv
      (fun s => inv s ∧ WasSound party a s ∧ IsUnused a.storageKey s)
      fun _ s => inv s ∧ WasSound party a s ∧ IsUnused a.storageKey s := by
  have hkeeps : ∀ s t, (Footprint.storing name).rel s t → inv s → WasSound party a s →
      IsUnused a.storageKey s → inv t := by
    intro s t hrel hs hwas hunused
    rcases List.mem_cons.mp hname with rfl | hthumbnail
    · exact hinv.deed hs (.atUnused hwas.isKey hunused hwas.isOwn hrel)
    · obtain ⟨t', ht', rfl⟩ := Option.map_eq_some_iff.mp (Option.mem_toList.mp hthumbnail)
      rw [hwas.thumbnail t' ht'] at hrel
      exact hinv.deed hs (.atThumbnail hwas.isKey hunused.isUnpictured hwas.isOwn hrel)
  refine .of_within (delete_storing b name).tolerate (fun s t hrel => hrel.2.1) ?_ ?_
  · rintro s _ t - hrel - ⟨hs, hwas, hunused⟩
    have hrows : t.holdings.attachments = s.holdings.attachments := by rw [hrel.1]
    refine ⟨hkeeps s t hrel hs hwas hunused, hwas.of_rows hrows (by rw [hrel.1]), ?_⟩
    exact fun b hb => hunused b (hrows ▸ hb)
  · rintro s t hrel - ⟨hs, hwas, hunused⟩
    exact hkeeps s t hrel hs hwas hunused

/-- **Deleting an attachment keeps what lasts**: an object goes with its last attachment. -/
theorem deleteAttachment_upholds (hinv : IsLasting digested source first party inv)
    {viewer : Viewer} (hviewer : ∀ user, viewer = some user → party user) (uid : String) :
    (deleteAttachment viewer uid).Upholds last inv inv fun _ => inv := by
  refine signedIn_bind_upholds (fun _ hs => hs) fun user hsigned => ?_
  refine .bind (.query _) fun found => ?_
  split
  · exact .throw fun _ hs => hs.1
  · rename_i a ha
    obtain ⟨hfound, hcreator⟩ := Option.filter_eq_some_iff.mp ha
    have huser : party a.creator := by
      rw [beq_iff_eq.mp hcreator]
      exact hviewer user hsigned
    refine .bind ((deleteRow_upholds hinv huser).weaken_pre ?_) fun isDone => ?_
    · rintro s ⟨hs, rfl⟩
      exact ⟨hs, List.mem_of_find?_eq_some hfound⟩
    · dsimp only
      split
      · exact .throw fun _ hs => hs.1
      · refine .bind (.query _) fun remaining => ?_
        split
        · rename_i hzero
          have hstable : IsStable fun s => inv s ∧ WasSound party a s ∧ IsUnused a.storageKey s :=
            hinv.stable.and ((WasSound.stable a).and (IsUnused.stable _))
          refine .bind ((Upholds.quiet storageSetting_quiet hstable fun _ hs =>
            hs.1).weaken_pre ?_) fun setting => ?_
          · rintro s ⟨⟨hs, hwas⟩, rfl⟩
            exact ⟨hs, hwas, hwas.isUnused hzero⟩
          · refine .bind (.quiet (backendFor_quiet _ _) hstable fun _ hs => hs.1) fun b => ?_
            exact (Upholds.forM fun name hname => delete_upholds hinv b hname).weaken
              (fun _ hs => hs) fun _ _ hs => hs.1
        · exact .pure fun _ hs => hs.1.1

end SharedMemos.Server
