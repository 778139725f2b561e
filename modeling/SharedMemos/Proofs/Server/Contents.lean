import SharedMemos.Proofs.Server.Runs
import SharedMemos.Proofs.Server.Uploads.Chunks

/-!
# What attachments read back

Attachments of one user with the same digest share an object, and nobody compares their bytes. An
attachment still reads back the bytes that it was made of, in every run and until it is deleted,
as far as digests tell apart what is digested.

The digest of an object that a client has stored is that of a text which names the upload. Such an
object may be anything, and the client may store it again as long as the upload is open. So an
attachment is either one whose bytes the server has read, and then its object has them and no client
may store there; or its digest is that of a text (`IsFaithful`). Which of the two it is decides what
a new attachment with the digest gets.

A text is digested like any bytes. A user knows the texts of the own uploads, and a file with the
bytes of such a text has the digest of that upload: it gets the object of the upload and reads back
what the client has stored there (`readsBack_after_fails`). All other bytes are safe.

## Main definitions

* `IsFaithful` — every attachment is what its digest says
* `Turn.Makes` — what an attachment is made of

## Main results

* `IsFaithful.deed` — what one deed keeps
* `readsBack_after` — what is read back in every run
-/

namespace SharedMemos.Server

open SharedMemos.Storage SharedMemos.Upload SharedMemos.Bytes Attempt

/-- The bytes are digested, whether they are read or a text. -/
def Digested.Has (digested : Digested) (bytes : ByteArray) : Prop :=
  digested.content bytes ∨ digested.text bytes

/-- Different bytes that are digested have different digests. -/
def Digested.IsDistinct (digested : Digested) : Prop :=
  ∀ bytes bytes', digested.Has bytes → digested.Has bytes' → sha256Hex bytes = sha256Hex bytes' →
    bytes = bytes'

variable {digested : Digested} {source : Source} {first last : Nat} {party : UserId → Prop}
  {inv : State → Prop}
  {s t : State} {a : Attachment} {bytes : ByteArray}

/-! ### Contents -/

/-- The attachment is one of bytes that the server has read: its digest and its size are theirs, its
object has them, and no client may store there. -/
structure IsContent (digested : Digested) (a : Attachment) (bytes : ByteArray) (s : State) :
    Prop where
  reads : digested.Reads a.contentHash a.size bytes
  object : ∃ object, s.object? a.storage a.storageKey = some object
    ∧ object.toList = bytes.data.toList
  isClosed : IsClosed a.storageKey s

/-- Every attachment is one of bytes that the server has read, or its digest is that of a text. -/
def IsFaithful (digested : Digested) (s : State) : Prop :=
  ∀ a ∈ s.holdings.attachments, (∃ bytes, IsContent digested a bytes s)
    ∨ ∃ text, digested.text text ∧ a.contentHash = sha256Hex text

theorem IsContent.of_sameFile {b : Attachment} (h : IsContent digested a bytes s)
    (hsame : a.SameFile b) : IsContent digested b bytes s := by
  rw [← hsame]
  exact ⟨h.reads, h.object, h.isClosed⟩

/-- Deeds keep the content of an attachment. -/
theorem IsContent.deed (h : IsContent digested a bytes s) (hs : IsSound source first s)
    (ha : a ∈ s.holdings.attachments) (hdeed : Deed digested source first party s t) :
    IsContent digested a bytes t := by
  obtain ⟨hobject, hclosed⟩ := hdeed.keeps_object hs ha h.isClosed
  obtain ⟨object, hthere, hsame⟩ := h.object
  exact ⟨h.reads, ⟨object, hobject object hthere, hsame⟩, hclosed⟩

/-- **An attachment that is added is what its digest says.** It gets the object of another one only
if the two were made of the same bytes, or if the digest is that of a text. -/
theorem IsBacked.isContent (hdistinct : digested.IsDistinct) (h : IsFaithful digested s)
    (hbacked : IsBacked digested source first a.creator a.contentHash a.size a.storage
      a.storageKey s) :
    (∃ bytes, IsContent digested a bytes s)
      ∨ ∃ text, digested.text text ∧ a.contentHash = sha256Hex text := by
  cases hbacked with
  | stored hreads hobject hsame hfresh =>
    refine .inl ⟨_, hreads, ⟨_, hobject, hsame⟩, fun x hx hat => ?_⟩
    exact hfresh.free _ _ (Holdings.owns_of_session hx hat)
  | shared hreads hb huser hkind hkey hhash =>
    rename_i bytes b
    rcases h b hb with ⟨found, hcontent⟩ | ⟨text, htext, hdigest⟩
    · have hsame : found = bytes := by
        refine hdistinct _ _ (.inl hcontent.reads.content) (.inl hreads.content) ?_
        rw [← hcontent.reads.hash_eq, hhash, hreads.hash_eq]
      subst hsame
      obtain ⟨-, hobject, hclosed⟩ := hcontent
      rw [hkind, hkey] at hobject
      rw [hkey] at hclosed
      exact .inl ⟨found, hreads, hobject, hclosed⟩
    · exact .inr ⟨text, htext, hhash ▸ hdigest⟩
  | unread htext hhash => exact .inr ⟨_, htext, hhash⟩

/-- **Deeds keep all attachments what their digests say.** -/
theorem IsFaithful.deed (hdistinct : digested.IsDistinct) (h : IsFaithful digested s)
    (hs : IsSound source first s) (hdeed : Deed digested source first party s t) :
    IsFaithful digested t := by
  have hkept : ∀ b ∈ t.holdings.attachments, (∃ a ∈ s.holdings.attachments, a.SameFile b) →
      (∃ bytes, IsContent digested b bytes t)
        ∨ ∃ text, digested.text text ∧ b.contentHash = sha256Hex text := by
    rintro b - ⟨a, ha, hsame⟩
    rcases h a ha with ⟨bytes, hcontent⟩ | ⟨text, htext, hdigest⟩
    · exact .inl ⟨bytes, (hcontent.deed hs ha hdeed).of_sameFile hsame⟩
    · rw [← hsame]
      exact .inr ⟨text, htext, hdigest⟩
  intro b hb
  rcases hdeed.rows with ⟨new, -, hbacked, -, -, hholdings⟩ | ⟨-, hrows⟩
  · rw [hholdings] at hb
    rcases List.mem_cons.mp hb with rfl | hold
    · rcases hbacked.isContent hdistinct h with ⟨bytes, hreads, ⟨object, hobject, hsame⟩, hclosed⟩
        | htext
      · refine .inl ⟨bytes, hreads, ⟨object, ?_, hsame⟩, ?_⟩
        · rw [State.object?, hholdings]
          exact hobject
        · rw [IsClosed, hholdings]
          exact hclosed
      · exact .inr htext
    · refine hkept b ?_ ⟨b, hold, .refl b⟩
      rw [hholdings]
      exact hb
  · exact hkept b hb (hrows b hb)

/-- What is true of a state that is reached: it is sound, every attachment is what its digest says,
and no two have one name. -/
def IsTold (digested : Digested) (source : Source) (first : Nat) (s : State) : Prop :=
  IsSound source first s ∧ IsFaithful digested s ∧ HasUids s

theorem isLasting_isTold (hdistinct : digested.IsDistinct) :
    IsLasting digested source first party (IsTold digested source first) :=
  isLasting_isSound.and fun hs h hdeed => ⟨h.1.deed hdistinct hs hdeed, h.2.deed hdeed⟩

theorem isTold_of_empty (hattachments : s.database.attachments = [])
    (hsessions : s.database.sessions = []) : IsTold digested s.source s.draws s := by
  have hrows : ∀ a, a ∉ s.holdings.attachments := by
    intro a ha
    rw [show s.holdings.attachments = [] from hattachments] at ha
    exact List.not_mem_nil ha
  exact ⟨isSound_of_empty hattachments hsessions, fun a ha => absurd ha (hrows a),
    fun a ha => absurd ha (hrows a)⟩

/-! ### Making an attachment -/

/-- In the turn, an attachment is made of the bytes: they are sent with the request, or they are the
chunks that an upload has accepted. -/
inductive Turn.Makes (s : State) (a : Attachment) (bytes : ByteArray) : Turn → Prop where
  | request {viewer : Viewer} {draft : AttachmentDraft}
      (hbytes : ofBase64? (Text.trim draft.content) = some bytes)
      (hdone : ((Server.createAttachment viewer draft).exec s).1 = .ok a) :
      Makes s a bytes (.createAttachment viewer draft)
  | upload {viewer : Viewer} {id path : String} {size : Int} {chunks : List ByteArray}
      (hreceived : HasReceived id path size chunks s) (hbytes : bytes.data.toList = joined chunks)
      (hdone : ((Server.completeSession viewer id).exec s).1 = .ok a) :
      Makes s a bytes (.completeSession viewer id)

/-- The content of a scratch file that has received all that was declared is what it has received.
-/
theorem HasReceived.content {id path : String} {size : Int} {chunks : List ByteArray}
    (h : HasReceived id path size chunks s) (hall : ((joined chunks).length : Int) = size) :
    ∃ x content, s.database.session? id = some x ∧ x.target = .scratch path
      ∧ s.scratch? path = some (.file content) ∧ content.toList = joined chunks := by
  obtain ⟨⟨x, hx, htarget, -, -⟩, -, content, hfile, hsize, hstart⟩ := h
  refine ⟨x, content, hx, htarget, hfile, ?_⟩
  have hlength : (joined chunks).length = content.toList.length := by
    rw [Blob.length_toList]
    omega
  rw [← hstart, hlength, List.take_length]

theorem byteArray_eq {b b' : ByteArray} (h : b.data.toList = b'.data.toList) : b = b' :=
  ByteArray.ext (Array.toList_inj.mp h)

/-- **An attachment that is made has the digest and the size of its bytes**, and they are among what
is digested. -/
theorem Turn.Makes.isMade {turn : Turn} (hmakes : turn.Makes s a bytes)
    (hinv : IsLasting digested source first everyone inv) (hnames : source.NeverRepeats first last)
    (hcovers : digested.CoversTurn s turn) (hlast : (turn.act.exec s).2.draws ≤ last)
    (hs : inv s) :
    inv (turn.act.exec s).2 ∧ IsMade (sha256Hex bytes) bytes.size a (turn.act.exec s).2
      ∧ digested.content bytes := by
  cases hmakes with
  | request hbytes hdone =>
    rename_i viewer draft
    have hexec : (Server.createAttachment viewer draft).exec s
        = (.ok a, ((Server.createAttachment viewer draft).exec s).2) := Prod.ext hdone rfl
    have hact : (Turn.createAttachment viewer draft).act.exec s
        = (.ok (), ((Server.createAttachment viewer draft).exec s).2) :=
      exec_bind_of_ok hexec
    rw [hact] at hlast ⊢
    have hends := (createAttachment_upholds hinv hnames (fun _ _ => trivial) draft s).2 hlast
      ⟨hs, hcovers⟩
    rw [hexec] at hends
    obtain ⟨ht, found, hfound, hmade⟩ := hends
    rw [hbytes] at hfound
    cases hfound
    exact ⟨ht, hmade, hcovers bytes hbytes⟩
  | upload hreceived hbytes hdone =>
    rename_i viewer id path size chunks
    have hexec : (Server.completeSession viewer id).exec s
        = (.ok a, ((Server.completeSession viewer id).exec s).2) := Prod.ext hdone rfl
    have hact : (Turn.completeSession viewer id).act.exec s
        = (.ok (), ((Server.completeSession viewer id).exec s).2) :=
      exec_bind_of_ok hexec
    rw [hact] at hlast ⊢
    have hends := (completeSession_upholds hinv hnames (fun _ _ => trivial) id s).2 hlast
      ⟨hs, hcovers⟩
    rw [hexec] at hends
    obtain ⟨ht, hmade⟩ := hends
    obtain ⟨hall, hsize, hhash, -⟩ := completeSession_spec hreceived hexec
    obtain ⟨x, content, hx, htarget, hfile, hcontent⟩ := hreceived.content hall
    have hsame : bytes = ⟨(joined chunks).toArray⟩ := byteArray_eq hbytes
    have hlength : (bytes.size : Int) = size := by
      rw [← Blob.length_head, hbytes, hall]
    refine ⟨ht, ⟨hmade.kept, hmade.placed, ?_, ?_⟩, ?_⟩
    · rw [hhash, hsame]
    · rw [hsize, hlength]
    · have hcovered := hcovers x hx
      rw [Digested.Covers, htarget] at hcovered
      have hcontent' := hcovered content hfile
      rwa [byteArray_eq ((Blob.data_bytes content).trans (hcontent.trans hbytes.symm))]
        at hcontent'

/-! ### Reading -/

/-- Where the server can reach objects of the kind, it finds the store for them. -/
theorem exec_backendFor {kind : Kind} (hplaced : IsPlaced kind s) (setting : Setting) :
    ∃ b, (backendFor kind setting).exec s = (.ok b, s) ∧ b.kind = kind ∧ IsAtHand b := by
  rw [IsPlaced] at hplaced
  rw [backendFor, exec_atomic]
  simp only [Resolver.forKind]
  by_cases htied : s.resolver.isTied = true
  · rw [if_pos htied]
    rw [if_pos (show s.holdings.isTied = true from htied)] at hplaced
    exact ⟨.tied, rfl, hplaced.symm, isAtHand_tied⟩
  · rw [if_neg htied]
    rw [if_neg (show ¬ s.holdings.isTied = true from htied)] at hplaced
    subst hplaced
    exact ⟨.disk, rfl, rfl, isAtHand_disk⟩

/-- An object that is there is read, unless such calls fail. -/
theorem exec_open {b : Backend} {key : String} {object : Blob} (hanswers : IsAtHand b)
    (hworks : s.store.failure? .open = none) (hobject : s.object? b.kind key = some object) :
    ((b.open key).exec s).1 = .ok object := by
  cases b with
  | disk => exact State.object?_disk.mp hobject
  | bucket client => exact absurd rfl (hanswers client)
  | tied => exact ObjectStore.open_object hworks hobject

/-- **The creator of an attachment reads its object.** -/
theorem openAttachment_creator {setting : Setting} {object : Blob}
    (hfind : s.database.attachmentByUid? a.uid = some a) (hplaced : IsPlaced a.storage s)
    (hobject : s.object? a.storage a.storageKey = some object)
    (hsetting : (storageSetting.exec s).1 = .ok setting)
    (hworks : s.store.failure? .open = none) :
    ((openAttachment (some a.creator) a.uid none false false).exec s).1
      = .ok (.file a.filename a.contentType a.size.toNat none object) := by
  have hget : (getAttachment (some a.creator) a.uid).exec s = (.ok a, s) := by
    rw [getAttachment]
    have hquery : (query (·.attachmentByUid? a.uid)).exec s = (.ok (some a), s) := by
      rw [← hfind]
      rfl
    rw [exec_bind_of_ok hquery]
    dsimp only
    rw [if_pos (beq_self_eq_true _)]
    rfl
  rcases hexec : storageSetting.exec s with ⟨r, v⟩
  rw [hexec] at hsetting
  subst hsetting
  obtain ⟨⟨hholdings, -⟩, hstore⟩ := storageSetting_unasked.of_exec hexec
  have hplaced' : IsPlaced a.storage v := by
    rw [IsPlaced, hholdings]
    exact hplaced
  obtain ⟨b, hb, hkind, hanswers⟩ := exec_backendFor hplaced' setting
  have hopen : ((b.open a.storageKey).exec v).1 = .ok object := by
    refine exec_open hanswers (hstore ▸ hworks) ?_
    rw [hkind, State.object?_of_holdings hholdings]
    exact hobject
  have hopen' : (b.open a.storageKey).exec v = (.ok object, ((b.open a.storageKey).exec v).2) :=
    Prod.ext hopen rfl
  have hsource : downloadSource a false = (a.filename, a.contentType, a.size, a.storageKey) := by
    rw [downloadSource]
    cases a.thumbnail <;> rfl
  rw [openAttachment, exec_bind_of_ok hget, exec_bind_of_ok hexec, exec_bind_of_ok hb, hsource]
  dsimp only
  rw [Bool.false_and, if_neg Bool.false_ne_true, exec_bind_of_ok hopen']
  rfl

/-! ### Runs -/

/-- An attachment that has been made is kept as it was: a row with its number has its object, with
the bytes that it was made of, unless these are a text that is digested. -/
theorem IsMade.isContent (hdistinct : digested.IsDistinct) (hread : digested.content bytes)
    (hapart : ¬ digested.text bytes) (h : IsMade (sha256Hex bytes) bytes.size a s)
    (hfaithful : IsFaithful digested s) {b : Attachment} (hb : b ∈ s.holdings.attachments)
    (hid : b.id = a.id) : IsContent digested b bytes s := by
  have hhash : b.contentHash = sha256Hex bytes := by
    rw [← h.kept.row b hb hid]
    exact h.hash_eq
  rcases hfaithful b hb with ⟨found, hcontent⟩ | ⟨text, htext, hdigest⟩
  · have hsame : found = bytes := hdistinct _ _ (.inl hcontent.reads.content) (.inl hread)
      (hcontent.reads.hash_eq.symm.trans hhash)
    exact hsame ▸ hcontent
  · have hsame : text = bytes :=
      hdistinct _ _ (.inr htext) (.inl hread) (hdigest.symm.trans hhash)
    exact absurd (hsame ▸ htext) hapart

/-- The creator of an attachment that has been made reads what it was made of. -/
theorem IsMade.readsBack {u : State} {setting : Setting} (hdistinct : digested.IsDistinct)
    (hread : digested.content bytes) (hapart : ¬ digested.text bytes)
    (h : IsMade (sha256Hex bytes) bytes.size a u) (hu : IsTold digested source first u)
    (hthere : ∃ b ∈ u.database.attachments, b.id = a.id)
    (hsetting : (storageSetting.exec u).1 = .ok setting) (hworks : u.store.failure? .open = none) :
    ∃ content, content.toList = bytes.data.toList
      ∧ ((openAttachment (some a.creator) a.uid none false false).exec u).1
        = .ok (.file a.filename a.contentType bytes.size none content) := by
  obtain ⟨hsound, hfaithful, huids⟩ := hu
  obtain ⟨b, hb, hid⟩ := hthere
  have hsame := h.kept.row b hb hid
  obtain ⟨-, ⟨content, hobject, hcontent⟩, -⟩ :=
    h.isContent hdistinct hread hapart hfaithful hb hid
  have hopen := openAttachment_creator (huids.attachmentByUid?_eq hsound hb)
    (h.of_sameFile hsame).placed hobject hsetting hworks
  refine ⟨content, hcontent, ?_⟩
  rw [← hsame] at hopen
  rw [hopen]
  simp only [h.size_eq, Int.toNat_natCast]

/-- What an attachment was made of stays what it is until the end of a run. -/
theorem Turn.Makes.isMade_after {turn : Turn} {turns : List Turn} (hmakes : turn.Makes s a bytes)
    (hinv : IsLasting digested source first everyone inv) (hnames : source.NeverRepeats first last)
    (hcovers : digested.CoversRun s (turn :: turns))
    (hlast : (s.after (turn :: turns)).draws ≤ last) (hs : inv s) :
    inv (s.after (turn :: turns))
      ∧ IsMade (sha256Hex bytes) bytes.size a (s.after (turn :: turns))
      ∧ digested.content bytes := by
  obtain ⟨hdraws, hafter⟩ := lasting_after (hinv.isMade (sha256Hex bytes) bytes.size a) hnames turns
    (turn.act.exec s).2 hcovers.2
  obtain ⟨ht, hmade, hread⟩ :=
    hmakes.isMade hinv hnames hcovers.1 (Nat.le_trans hdraws hlast) hs
  obtain ⟨hu, hmade⟩ := hafter hlast ⟨ht, hmade⟩
  exact ⟨hu, hmade, hread⟩

/-- **An attachment reads back what it was made of.** Whatever came before it and whatever comes
after, until it is deleted, if different bytes that are digested have different digests, and if what
it was made of is not a text that stands for bytes which the server has not read. -/
theorem readsBack_after {s₀ : State} (hattachments : s₀.database.attachments = [])
    (hsessions : s₀.database.sessions = []) {before after : List Turn} {turn : Turn}
    (hmakes : turn.Makes (s₀.after before) a bytes)
    (hcovers : digested.CoversRun s₀ (before ++ turn :: after))
    (hnames : s₀.source.NeverRepeats s₀.draws (s₀.after (before ++ turn :: after)).draws)
    (hdistinct : digested.IsDistinct) (hapart : ¬ digested.text bytes)
    (hthere : ∃ b ∈ (s₀.after (before ++ turn :: after)).database.attachments, b.id = a.id)
    {setting : Setting}
    (hsetting : (storageSetting.exec (s₀.after (before ++ turn :: after))).1 = .ok setting)
    (hworks : (s₀.after (before ++ turn :: after)).store.failure? .open = none) :
    a.size = bytes.size
      ∧ ∃ content, content.toList = bytes.data.toList
        ∧ ((openAttachment (some a.creator) a.uid none false false).exec
            (s₀.after (before ++ turn :: after))).1
          = .ok (.file a.filename a.contentType bytes.size none content) := by
  obtain ⟨hcovered, hcovers⟩ := Digested.coversRun_append.mp hcovers
  rw [State.after_append] at hnames hthere hsetting hworks ⊢
  have hlasting : IsLasting digested s₀.source s₀.draws everyone
      (IsTold digested s₀.source s₀.draws) := isLasting_isTold hdistinct
  obtain ⟨-, hbefore⟩ := lasting_after hlasting hnames before s₀ hcovered
  obtain ⟨hdraws, -⟩ := lasting_after hlasting hnames (turn :: after) (s₀.after before) hcovers
  obtain ⟨hu, hmade, hread⟩ := hmakes.isMade_after hlasting hnames hcovers (Nat.le_refl _)
    (hbefore hdraws (isTold_of_empty hattachments hsessions))
  exact ⟨hmade.size_eq, hmade.readsBack hdistinct hread hapart hu hthere hsetting hworks⟩

/-- What is digested when an upload of a client is completed is one text. -/
theorem Digested.coversTurn_direct (viewer : Viewer) (user : UserId) (id key : String) (size : Int)
    (hsession : (s.database.session? id).map (fun x => (x.creator, x.id, x.target, x.size))
      = some (user, id, .direct key, size))
    (htext : digested.text (description user id key size []).toUTF8) :
    digested.CoversTurn s (.completeSession viewer id) := by
  obtain ⟨x, hx, hfields⟩ := Option.map_eq_some_iff.mp hsession
  obtain ⟨huser, hid, htarget, hsize⟩ := by simpa only [Prod.mk.injEq] using hfields
  intro y hy
  rw [hx] at hy
  cases hy
  rw [Covers, htarget, huser, hid, hsize]
  exact htext

theorem exists_of_toOption {α β : Type} {r : Except Error α} {f : α → β} {y : β}
    (h : r.toOption.map f = some y) : ∃ x, r = .ok x ∧ f x = y := by
  cases r with
  | error e => cases h
  | ok x => exact ⟨x, rfl, Option.some.inj h⟩

/-- A user stores three bytes under a name. -/
def storeNotes (filename : String) : Turn :=
  .createAttachment (some 7) { filename := filename, content := "AQID" }

/-- The text that stands for what is uploaded to the store. -/
def notesText : String :=
  description 7 (Text.showPadded Limit.sessionIdLength 3)
    "attachments/000000000000000000000004.bin" 3 []

/-- What is digested in the run. -/
def notesDigested : Digested where
  content := fun bytes => bytes = ⟨#[1, 2, 3]⟩
  text := fun bytes => bytes = notesText.toUTF8

theorem notesDigested_apart : sha256Hex ⟨#[1, 2, 3]⟩ ≠ sha256Hex notesText.toUTF8 := by
  decide +kernel

theorem notesDigested_isDistinct : notesDigested.IsDistinct := by
  rintro _ _ (rfl | rfl) (rfl | rfl) hsame
  · rfl
  · exact absurd hsame notesDigested_apart
  · exact absurd hsame.symm notesDigested_apart
  · rfl

theorem notesDigested_coversRun : notesDigested.CoversRun bucketServer
    ([storeNotes "notes.txt"] ++ storeNotes "copy.txt" :: sharedNotes.drop 2) := by
  have hbytes : ofBase64? (Text.trim "AQID") = some ⟨#[1, 2, 3]⟩ := by decide +kernel
  have hstore : ∀ s name, notesDigested.CoversTurn s (storeNotes name) :=
    fun _ _ bytes h => Option.some.inj (h.symm.trans hbytes)
  refine ⟨hstore _ _, hstore _ _, trivial, trivial, ?_, trivial, trivial⟩
  exact Digested.coversTurn_direct _ 7 _ "attachments/000000000000000000000004.bin" 3
    (by decide +kernel) rfl

/-- Two files share an object, and the second one reads back its bytes after the first is gone. -/
theorem readsBack_after_sharedNotes :
    ∃ a, (storeNotes "copy.txt").Makes (bucketServer.after [storeNotes "notes.txt"]) a ⟨#[1, 2, 3]⟩
      ∧ ∃ content, content.toList = [1, 2, 3]
        ∧ ((openAttachment (some 7) (Text.showPadded Limit.uidLength 2) none false false).exec
            (bucketServer.after
              ([storeNotes "notes.txt"] ++ storeNotes "copy.txt" :: sharedNotes.drop 2))).1
          = .ok (.file "copy.txt" "application/octet-stream" 3 none content) := by
  have hrun : (((createAttachment (some 7) { filename := "copy.txt", content := "AQID" }).exec
        (bucketServer.after [storeNotes "notes.txt"])).1.toOption.map fun a =>
          (a.id, a.creator, a.uid, a.filename, a.contentType))
        = some (2, 7, Text.showPadded Limit.uidLength 2, "copy.txt", "application/octet-stream")
      ∧ let u := bucketServer.after
          ([storeNotes "notes.txt"] ++ storeNotes "copy.txt" :: sharedNotes.drop 2)
        (∃ b ∈ u.database.attachments, b.id = 2)
          ∧ (storageSetting.exec u).1.toOption.map id = some {}
          ∧ (u.store.failure? .open).isNone := by
    decide +kernel
  obtain ⟨hmade, hthere, hsetting, hworks⟩ := hrun
  obtain ⟨a, hdone, hfields⟩ := exists_of_toOption hmade
  obtain ⟨hid, hcreator, huid, hname, htype⟩ := by simpa only [Prod.mk.injEq] using hfields
  obtain ⟨setting, hsetting, -⟩ := exists_of_toOption hsetting
  have hmakes : (storeNotes "copy.txt").Makes (bucketServer.after [storeNotes "notes.txt"]) a
      ⟨#[1, 2, 3]⟩ := .request (by decide +kernel) hdone
  obtain ⟨-, content, hcontent, hopen⟩ := readsBack_after rfl rfl hmakes notesDigested_coversRun
    (numberedServer_neverRepeats _ _) notesDigested_isDistinct
    (fun hsame => notesDigested_apart (congrArg sha256Hex hsame)) (hid ▸ hthere) hsetting
    (Option.isNone_iff_eq_none.mp hworks)
  rw [hcreator, huid, hname, htype] at hopen
  exact ⟨a, hmakes, content, hcontent, hopen⟩

/-! ### Texts that are sent -/

/-- A user uploads three bytes to the store. -/
def namedUpload : List Turn :=
  [.createSession (some 7) { filename := "notes.bin", size := 3 },
    .clientObject (Text.showPadded Limit.sessionIdLength 0) (.ofBytes ⟨#[4, 5, 6]⟩),
    .completeSession (some 7) (Text.showPadded Limit.sessionIdLength 0)]

/-- The text that stands for the upload. -/
def namedText : ByteArray :=
  (description 7 (Text.showPadded Limit.sessionIdLength 0)
    "attachments/000000000000000000000001.bin" 3 []).toUTF8

/-- It is sent as the content of a file. -/
def namedDraft : AttachmentDraft where
  filename := "named.txt"
  content := toBase64 namedText

/-- Nothing but the text is digested. -/
def namedDigested : Digested where
  content := fun bytes => bytes = namedText
  text := fun bytes => bytes = namedText

/-- The announced length and the bytes of a file that is sent as a whole. -/
def Download.whole? : Download → Option (Nat × List UInt8)
  | .file _ _ total none content => some (total, content.toList)
  | _ => none

/-- **A file with the text of an upload reads back what was uploaded.** Nothing but the text is
digested, so it is not that two contents have one digest. -/
theorem readsBack_after_fails :
    ∃ a, (Turn.createAttachment (some 7) namedDraft).Makes (bucketServer.after namedUpload) a
        namedText
      ∧ namedDigested.CoversRun bucketServer
          (namedUpload ++ [.createAttachment (some 7) namedDraft])
      ∧ namedDigested.IsDistinct
      ∧ ((openAttachment (some 7) a.uid none false false).exec (bucketServer.after
          (namedUpload ++ [.createAttachment (some 7) namedDraft]))).1.toOption.bind Download.whole?
        = some (namedText.size, [4, 5, 6]) := by
  have hrun : ((createAttachment (some 7) namedDraft).exec
        (bucketServer.after namedUpload)).1.toOption.map (·.uid)
        = some (Text.showPadded Limit.uidLength 3)
      ∧ ((openAttachment (some 7) (Text.showPadded Limit.uidLength 3) none false false).exec
          (bucketServer.after (namedUpload ++ [.createAttachment (some 7) namedDraft]))
          ).1.toOption.bind Download.whole? = some (namedText.size, [4, 5, 6]) := by
    decide +kernel
  obtain ⟨hmade, hopen⟩ := hrun
  obtain ⟨a, hdone, huid⟩ := exists_of_toOption hmade
  have hbytes : ofBase64? (Text.trim namedDraft.content) = some namedText := by decide +kernel
  refine ⟨a, .request hbytes hdone, ⟨trivial, trivial, ?_, ?_, trivial⟩, ?_, huid ▸ hopen⟩
  · exact Digested.coversTurn_direct _ 7 _ "attachments/000000000000000000000001.bin" 3
      (by decide +kernel) rfl
  · exact fun bytes h => Option.some.inj (h.symm.trans hbytes)
  · rintro _ _ (rfl | rfl) (rfl | rfl) -
    all_goals rfl

end SharedMemos.Server
