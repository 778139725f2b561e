import SharedMemos.Proofs.Server.Contract
import SharedMemos.Proofs.Server.Uploads.Scratch
import Mathlib.Data.List.Nodup

/-!
# Attachments and what they stand for

An attachment is a row, and its bytes are an object somewhere else. Rows share objects, and so the
object of a row must not be removed with another row; it must not be replaced either. What is true
all the time has three parts.

* The objects are there (`Holdings.IsStocked`): that of each row and that of each thumbnail, with
  the size that the row says.
* The keys are in good hands (`Holdings.IsOwned`). A key belongs to the user who has a row with it
  or an open upload to it, in one kind of store; every key was given out by the server and is not
  given out again.
* The scratch files are in order (`Holdings.IsFiled`): the files of a session are where its name
  leads, and no two sessions have one name.

The second part is what makes removals harmless: a key that no row has is apart from the keys of
all rows and of their thumbnails. The first part speaks of rows and objects, the second of rows and
sessions, the third of sessions and scratch files; most changes concern one part and leave the
others as they are.

Uploads go on in the name of some users. `Uploading` says what that means for all the others, so
that it need not be found out again where only they matter.

## Main definitions

* `Holdings.IsStocked`, `Holdings.IsOwned`, `Holdings.IsFiled` — the three parts
* `IsSound` — all of them, in a state
* `Uploading` — what only concerns the uploads of some users

## Main results

* `IsSound.of_uploading`, `IsSound.of_storing`, `IsSound.of_storing_thumbnail`, `IsSound.insert`,
  `IsSound.delete`, `IsSound.change`, `IsSound.openSession` — one lemma for each kind of change
-/

namespace SharedMemos

open SharedMemos.Storage SharedMemos.Upload

/-- The key of the object that the client stores. -/
def Upload.Target.key? : Target → Option String
  | .scratch _ => none
  | .direct key => some key
  | .multipart key _ _ => some key

/-- What a session is opened with, and what stays the same for as long as it is open. -/
def Upload.Session.terms (x : Session) : String × UserId × Target × Int :=
  (x.id, x.creator, x.target, x.size)

theorem Upload.Session.terms_inj {x y : Session} : x.terms = y.terms
    ↔ x.id = y.id ∧ x.creator = y.creator ∧ x.target = y.target ∧ x.size = y.size := by
  simp only [terms, Prod.mk.injEq]

namespace Server

namespace Holdings

/-- A key in a kind of store belongs to a user, who has an attachment there or is about to upload
one. -/
def Owns (h : Holdings) (user : UserId) (kind : Kind) (key : String) : Prop :=
  (∃ a ∈ h.attachments, a.storageKey = key ∧ a.storage = kind ∧ a.creator = user)
    ∨ ∃ x ∈ h.sessions, x.target.key? = some key ∧ kind = .bucket ∧ x.creator = user

/-- The object of a thumbnail is there and has the size that is said. -/
structure HasThumbnail (h : Holdings) (a : Attachment) (t : Thumbnail) : Prop where
  key : t.storageKey = Filename.thumbnailKey a.storageKey
  object : ∃ content,
    h.object? a.storage t.storageKey = some content ∧ (content.size : Int) = t.size

/-- The objects of all attachments and thumbnails are there. -/
structure IsStocked (h : Holdings) : Prop where
  object : ∀ a ∈ h.attachments, ∃ content, h.object? a.storage a.storageKey = some content
  thumbnail : ∀ a ∈ h.attachments, ∀ t, a.thumbnail = some t → h.HasThumbnail a t

/-- Every key has one owner, and all were made of names from the first draw up to the next. -/
structure IsOwned (source : Source) (first next : Nat) (h : Holdings) : Prop where
  source_eq : h.source = source
  first_le : first ≤ next
  issued : ∀ user kind key, h.Owns user kind key → source.Issued first next key
  owner : ∀ user kind user' kind' key, h.Owns user kind key → h.Owns user' kind' key →
    user' = user ∧ kind' = kind
  tied : h.isTied = true → ∀ a ∈ h.attachments, a.storage = .bucket
  numbered : ∀ a ∈ h.attachments, a.id ≤ h.lastAttachment
  distinct : (h.attachments.map (·.id)).Nodup
  declared : ∀ x ∈ h.sessions, 0 < x.size

/-- Sessions are told apart by their names, which were drawn for them from the first draw up to the
next, and have their scratch files where the names lead. -/
structure IsFiled (source : Source) (first next : Nat) (h : Holdings) : Prop where
  distinct : (h.sessions.map (·.id)).Nodup
  named : ∀ x ∈ h.sessions, source.HasNamed first next x.id
  files : ∀ x ∈ h.sessions, ∀ path, x.Keeps path → IsFileOf h.scratchDirectory x.id path

variable {source : Source} {first next next' : Nat} {h h' : Holdings}

theorem owns_of_mem {a : Attachment} (ha : a ∈ h.attachments) :
    h.Owns a.creator a.storage a.storageKey :=
  .inl ⟨a, ha, rfl, rfl, rfl⟩

theorem owns_of_session {x : Session} {key : String} (hx : x ∈ h.sessions)
    (hkey : x.target.key? = some key) : h.Owns x.creator .bucket key :=
  .inr ⟨x, hx, hkey, rfl, rfl⟩

theorem owns_congr {user : UserId} {kind : Kind} {key : String}
    (hrows : h'.attachments = h.attachments) (hsessions : h'.sessions = h.sessions) :
    h'.Owns user kind key ↔ h.Owns user kind key := by
  rw [Owns, Owns, hrows, hsessions]

/-- Numbers tell attachments apart. -/
theorem IsOwned.eq_of_id (howned : h.IsOwned source first next) {a b : Attachment}
    (ha : a ∈ h.attachments) (hb : b ∈ h.attachments) (hid : a.id = b.id) : a = b :=
  List.inj_on_of_nodup_map howned.distinct ha hb hid

/-- Fewer keys may have owners, and more names may have been drawn. -/
theorem IsOwned.of_owns (hsound : h.IsOwned source first next) (hsource : h'.source = h.source)
    (htied : h'.isTied = h.isTied) (hlast : h'.lastAttachment = h.lastAttachment)
    (hnext : next ≤ next')
    (hids : (h'.attachments.map (·.id)).Sublist (h.attachments.map (·.id)))
    (hrows : ∀ a ∈ h'.attachments, ∃ b ∈ h.attachments, a.storageKey = b.storageKey
      ∧ a.storage = b.storage ∧ a.creator = b.creator ∧ a.id = b.id)
    (hsessions : ∀ x ∈ h'.sessions, ∃ y ∈ h.sessions, x.terms = y.terms) :
    h'.IsOwned source first next' := by
  have howns : ∀ user kind key, h'.Owns user kind key → h.Owns user kind key := by
    rintro user kind key (⟨a, ha, hkey, hkind, huser⟩ | ⟨x, hx, hkey, hkind, huser⟩)
    · obtain ⟨b, hb, hkey', hkind', huser', -⟩ := hrows a ha
      exact .inl ⟨b, hb, hkey'.symm.trans hkey, hkind'.symm.trans hkind, huser'.symm.trans huser⟩
    · obtain ⟨y, hy, hterms⟩ := hsessions x hx
      obtain ⟨-, huser', htarget, -⟩ := Session.terms_inj.mp hterms
      exact .inr ⟨y, hy, htarget ▸ hkey, hkind, huser'.symm.trans huser⟩
  refine ⟨hsource.trans hsound.source_eq, Nat.le_trans hsound.first_le hnext, ?_, ?_, ?_, ?_,
    hsound.distinct.sublist hids, ?_⟩
  · exact fun user kind key hown => (hsound.issued user kind key (howns _ _ _ hown)).mono hnext
  · intro user kind user' kind' key hown hown'
    exact hsound.owner user kind user' kind' key (howns _ _ _ hown) (howns _ _ _ hown')
  · intro htrue a ha
    obtain ⟨b, hb, -, hkind, -⟩ := hrows a ha
    rw [hkind]
    exact hsound.tied (htied.symm.trans htrue) b hb
  · intro a ha
    obtain ⟨b, hb, -, -, -, hid⟩ := hrows a ha
    rw [hid, hlast]
    exact hsound.numbered b hb
  · intro x hx
    obtain ⟨y, hy, hterms⟩ := hsessions x hx
    rw [(Session.terms_inj.mp hterms).2.2.2]
    exact hsound.declared y hy

/-- Nothing about sessions has changed, and more names may have been drawn. -/
theorem IsFiled.of_same (hfiled : h.IsFiled source first next)
    (hsessions : h'.sessions = h.sessions) (hdirectory : h'.scratchDirectory = h.scratchDirectory)
    (hnext : next ≤ next') : h'.IsFiled source first next' := by
  refine ⟨?_, ?_, ?_⟩
  · rw [hsessions]
    exact hfiled.distinct
  · rw [hsessions]
    exact fun x hx => (hfiled.named x hx).mono hnext
  · rw [hsessions, hdirectory]
    exact hfiled.files

/-- Objects of rows that stay may not be lost. -/
theorem IsStocked.of_kept (hsound : h.IsStocked)
    (hrows : ∀ a ∈ h'.attachments, a ∈ h.attachments)
    (hobject : ∀ a ∈ h'.attachments, ∀ content, h.object? a.storage a.storageKey = some content →
      ∃ content', h'.object? a.storage a.storageKey = some content')
    (hthumbnail : ∀ a ∈ h'.attachments, a.thumbnail ≠ none → ∀ content,
      h.object? a.storage (Filename.thumbnailKey a.storageKey) = some content →
      h'.object? a.storage (Filename.thumbnailKey a.storageKey) = some content) :
    h'.IsStocked := by
  refine ⟨?_, ?_⟩
  · intro a ha
    obtain ⟨content, hcontent⟩ := hsound.object a (hrows a ha)
    exact hobject a ha content hcontent
  · intro a ha t ht
    obtain ⟨hkey, content, hcontent, hsize⟩ := hsound.thumbnail a (hrows a ha) t ht
    refine ⟨hkey, content, ?_, hsize⟩
    rw [hkey] at hcontent ⊢
    exact hthumbnail a ha (by rw [ht]; exact Option.some_ne_none t) content hcontent

/-- A user may come to own keys that nobody else has. -/
theorem IsOwned.adjoin {user₀ : UserId} {kind₀ : Kind} {isNew : String → Prop}
    (hsound : h.IsOwned source first next) (hnext : next ≤ next')
    (hissued : ∀ key, isNew key → source.Issued first next' key)
    (howner : ∀ user kind key, isNew key → h.Owns user kind key → user = user₀ ∧ kind = kind₀)
    (howns : ∀ user kind key, h'.Owns user kind key →
      h.Owns user kind key ∨ (user = user₀ ∧ kind = kind₀ ∧ isNew key)) :
    (∀ user kind key, h'.Owns user kind key → source.Issued first next' key)
      ∧ ∀ user kind user' kind' key, h'.Owns user kind key → h'.Owns user' kind' key →
        user' = user ∧ kind' = kind := by
  refine ⟨fun user kind key hown => ?_, fun user kind user' kind' key hown hown' => ?_⟩
  · rcases howns user kind key hown with hbefore | ⟨-, -, hnew⟩
    · exact (hsound.issued user kind key hbefore).mono hnext
    · exact hissued key hnew
  · rcases howns user kind key hown with hbefore | ⟨rfl, rfl, hnew⟩
    · rcases howns user' kind' key hown' with hbefore' | ⟨rfl, rfl, hnew⟩
      · exact hsound.owner user kind user' kind' key hbefore hbefore'
      · obtain ⟨huser, hkind⟩ := howner user kind key hnew hbefore
        exact ⟨huser.symm, hkind.symm⟩
    · rcases howns user' kind' key hown' with hbefore' | ⟨rfl, rfl, -⟩
      · exact howner user' kind' key hnew hbefore'
      · exact ⟨rfl, rfl⟩

/-! ### One more row -/

variable {a : Attachment} {x : Session}

/-- A new attachment has its object and no thumbnail. -/
theorem IsStocked.insert (hsound : h.IsStocked)
    (hobject : ∃ content, h.object? a.storage a.storageKey = some content)
    (hnone : a.thumbnail = none) :
    IsStocked { h with attachments := a :: h.attachments, lastAttachment := a.id } := by
  refine ⟨fun b hb => ?_, fun b hb thumbnail hthumbnail => ?_⟩
  · rcases List.mem_cons.mp hb with rfl | hb
    · exact hobject
    · exact hsound.object b hb
  · rcases List.mem_cons.mp hb with rfl | hb
    · rw [hnone] at hthumbnail
      cases hthumbnail
    · obtain ⟨hkey, hthere⟩ := hsound.thumbnail b hb thumbnail hthumbnail
      exact ⟨hkey, hthere⟩

/-- The user of a new attachment comes to own its key. -/
theorem IsOwned.insert (hsound : h.IsOwned source first next) (hnext : next ≤ next')
    (hissued : source.Issued first next' a.storageKey)
    (howner : ∀ user kind, h.Owns user kind a.storageKey → user = a.creator ∧ kind = a.storage)
    (htied : h.isTied = true → a.storage = .bucket) (hid : a.id = h.lastAttachment + 1) :
    IsOwned source first next'
      { h with attachments := a :: h.attachments, lastAttachment := a.id } := by
  have howns : ∀ user kind key,
      Owns { h with attachments := a :: h.attachments, lastAttachment := a.id } user kind key →
      h.Owns user kind key ∨ (user = a.creator ∧ kind = a.storage ∧ key = a.storageKey) := by
    rintro user kind key (⟨b, hb, hkey, hkind, huser⟩ | hsession)
    · rcases List.mem_cons.mp hb with rfl | hb
      · exact .inr ⟨huser.symm, hkind.symm, hkey.symm⟩
      · exact .inl (.inl ⟨b, hb, hkey, hkind, huser⟩)
    · exact .inl (.inr hsession)
  have hnew : ∀ key, key = a.storageKey → source.Issued first next' key := by
    rintro key rfl
    exact hissued
  have hown : ∀ user kind key, key = a.storageKey → h.Owns user kind key →
      user = a.creator ∧ kind = a.storage := by
    rintro user kind key rfl
    exact howner user kind
  obtain ⟨hissued, howner⟩ := hsound.adjoin hnext hnew hown howns
  have hnumber : ∀ b ∈ h.attachments, b.id < a.id := by
    intro b hb
    have hle := hsound.numbered b hb
    omega
  refine ⟨hsound.source_eq, Nat.le_trans hsound.first_le hnext, hissued, howner, fun htrue => ?_,
    ?_, ?_, hsound.declared⟩
  · exact List.forall_mem_cons.mpr ⟨htied htrue, hsound.tied htrue⟩
  · exact List.forall_mem_cons.mpr ⟨Int.le_refl _, fun b hb => Int.le_of_lt (hnumber b hb)⟩
  · refine List.nodup_cons.mpr ⟨fun hmem => ?_, hsound.distinct⟩
    obtain ⟨b, hb, hsame⟩ := List.mem_map.mp hmem
    exact absurd hsame (Int.ne_of_lt (hnumber b hb))

/-- The user of a new session comes to own its key, which nobody has. -/
theorem IsOwned.openSession (hsound : h.IsOwned source first next) (hnext : next ≤ next')
    (hissued : ∀ key, x.target.key? = some key → source.Issued first next' key)
    (hfree : ∀ key, x.target.key? = some key → ∀ user kind, ¬ h.Owns user kind key)
    (hsize : 0 < x.size) : IsOwned source first next' { h with sessions := x :: h.sessions } := by
  have howns : ∀ user kind key, Owns { h with sessions := x :: h.sessions } user kind key →
      h.Owns user kind key ∨ (user = x.creator ∧ kind = .bucket ∧ x.target.key? = some key) := by
    rintro user kind key (hrow | ⟨y, hy, hkey, hkind, huser⟩)
    · exact .inl (.inl hrow)
    · rcases List.mem_cons.mp hy with rfl | hy
      · exact .inr ⟨huser.symm, hkind, hkey⟩
      · exact .inl (.inr ⟨y, hy, hkey, hkind, huser⟩)
  obtain ⟨hissued, howner⟩ := hsound.adjoin hnext hissued
    (fun user kind key hkey hown => absurd hown (hfree key hkey user kind)) howns
  exact ⟨hsound.source_eq, Nat.le_trans hsound.first_le hnext, hissued, howner, hsound.tied,
    hsound.numbered, hsound.distinct, List.forall_mem_cons.mpr ⟨hsize, hsound.declared⟩⟩

/-- A new session has a name of its own, and its files are where that leads. -/
theorem IsFiled.openSession (hfiled : h.IsFiled source first next) (hnext : next ≤ next')
    (hnew : ∀ y ∈ h.sessions, y.id ≠ x.id) (hnamed : source.HasNamed first next' x.id)
    (hfiles : ∀ path, x.Keeps path → IsFileOf h.scratchDirectory x.id path) :
    IsFiled source first next' { h with sessions := x :: h.sessions } := by
  refine ⟨List.nodup_cons.mpr ⟨fun hmem => ?_, hfiled.distinct⟩, ?_, ?_⟩
  · obtain ⟨y, hy, hsame⟩ := List.mem_map.mp hmem
    exact hnew y hy hsame
  · exact List.forall_mem_cons.mpr ⟨hnamed, fun y hy => (hfiled.named y hy).mono hnext⟩
  · exact List.forall_mem_cons.mpr ⟨hfiles, hfiled.files⟩

end Holdings

/-! ### Sound states -/

/-- Every attachment has its object, every key its owner, and every session its own files. -/
structure IsSound (source : Source) (first : Nat) (s : State) : Prop where
  stocked : s.holdings.IsStocked
  owned : s.holdings.IsOwned source first s.draws
  filed : s.holdings.IsFiled source first s.draws

/-- Uploads of some users go on: sessions move on or end, and scratch files change. Sessions of
other users and their files stay as they are, and nothing else changes. -/
structure Uploading (party : UserId → Prop) (s t : State) : Prop where
  holdings :
    t.holdings = { s.holdings with sessions := t.holdings.sessions, scratch := t.holdings.scratch }
  draws : s.draws ≤ t.draws
  terms : ∀ x ∈ t.holdings.sessions, ∃ y ∈ s.holdings.sessions, x.terms = y.terms
  ids : (t.holdings.sessions.map (·.id)).Sublist (s.holdings.sessions.map (·.id))
  files : ∀ x ∈ t.holdings.sessions, ∀ path, x.Keeps path →
    IsFileOf s.holdings.scratchDirectory x.id path
  others : ∀ x ∈ s.holdings.sessions, ¬ party x.creator → x ∈ t.holdings.sessions
    ∧ ∀ path, x.Keeps path → t.scratch? path = s.scratch? path

/-- Nothing but rows of memos and attachments changes, and which statements work. -/
def KeepsFiles (s t : State) : Prop :=
  t.holdings = { s.holdings with
    memos := t.holdings.memos, lastMemo := t.holdings.lastMemo
    attachments := t.holdings.attachments, mishaps := t.holdings.mishaps }

variable {source : Source} {first : Nat} {party : UserId → Prop} {s t : State} {key : String}

namespace IsSound

theorem isKey (h : IsSound source first s) {a : Attachment} (ha : a ∈ s.holdings.attachments) :
    Filename.IsKey a.storageKey :=
  (h.owned.issued _ _ _ (Holdings.owns_of_mem ha)).isKey

/-- What only concerns uploads keeps a state sound. -/
theorem of_uploading (h : IsSound source first s) (hup : Uploading party s t) :
    IsSound source first t := by
  obtain ⟨hholdings, hdraws, hterms, hids, hfiles, -⟩ := hup
  have hrows : t.holdings.attachments = s.holdings.attachments := by rw [hholdings]
  have hobject : ∀ kind key, t.holdings.object? kind key = s.holdings.object? kind key :=
    Holdings.object?_of_same (by rw [hholdings]) (by rw [hholdings])
  refine ⟨h.stocked.of_kept ?_ ?_ ?_, h.owned.of_owns ?_ ?_ ?_ hdraws ?_ ?_ hterms,
    h.filed.distinct.sublist hids, fun x hx => ?_, ?_⟩
  · exact fun a ha => hrows ▸ ha
  · exact fun a ha content hcontent => ⟨content, (hobject _ _).trans hcontent⟩
  · exact fun a ha _ content hcontent => (hobject _ _).trans hcontent
  · rw [hholdings]
  · rw [hholdings]
  · rw [hholdings]
  · rw [hrows]
  · exact fun a ha => ⟨a, hrows ▸ ha, rfl, rfl, rfl, rfl⟩
  · obtain ⟨y, hy, hsame⟩ := hterms x hx
    rw [(Session.terms_inj.mp hsame).1]
    exact (h.filed.named y hy).mono hdraws
  · rw [hholdings]
    exact hfiles

/-- Finding something out is part of uploading. -/
theorem uploading_of_quiet (h : IsSound source first s) (hquiet : Footprint.quiet.rel s t) :
    Uploading party s t := by
  have hscratch := scratch?_of_holdings hquiet.1
  refine ⟨?_, hquiet.2, ?_, ?_, ?_, ?_⟩
  · rw [hquiet.1]
  · rw [hquiet.1]
    exact fun x hx => ⟨x, hx, rfl⟩
  · rw [hquiet.1]
  · rw [hquiet.1]
    exact h.filed.files
  · rw [hquiet.1]
    exact fun x hx _ => ⟨hx, fun path _ => hscratch path⟩

/-- Objects may be stored and removed as long as the rows keep theirs. -/
theorem of_objects (h : IsSound source first s)
    (hholdings : t.holdings = { s.holdings with disk := t.disk, objects := t.store.objects })
    (hdraws : s.draws ≤ t.draws)
    (hobject : ∀ a ∈ s.holdings.attachments, ∀ content,
      s.object? a.storage a.storageKey = some content →
      ∃ content', t.object? a.storage a.storageKey = some content')
    (hthumbnail : ∀ a ∈ s.holdings.attachments, a.thumbnail ≠ none → ∀ content,
      s.object? a.storage (Filename.thumbnailKey a.storageKey) = some content →
      t.object? a.storage (Filename.thumbnailKey a.storageKey) = some content) :
    IsSound source first t := by
  have hrows : t.holdings.attachments = s.holdings.attachments := by rw [hholdings]
  have hsessions : t.holdings.sessions = s.holdings.sessions := by rw [hholdings]
  refine ⟨h.stocked.of_kept ?_ ?_ ?_, h.owned.of_owns ?_ ?_ ?_ hdraws ?_ ?_ ?_,
    h.filed.of_same hsessions ?_ hdraws⟩
  · exact fun a ha => hrows ▸ ha
  · exact fun a ha => hobject a (hrows ▸ ha)
  · exact fun a ha => hthumbnail a (hrows ▸ ha)
  · rw [hholdings]
  · rw [hholdings]
  · rw [hholdings]
  · rw [hrows]
  · exact fun a ha => ⟨a, hrows ▸ ha, rfl, rfl, rfl, rfl⟩
  · exact fun x hx => ⟨x, hsessions ▸ hx, rfl⟩
  · rw [hholdings]

/-- **What is done to the object at a key harms no attachment with another key.** -/
theorem of_storing (h : IsSound source first s) (hrel : (Footprint.storing key).rel s t)
    (hkey : Filename.IsKey key)
    (hrow : ∀ a ∈ s.holdings.attachments, a.storageKey = key →
      ∃ content, t.object? a.storage key = some content) : IsSound source first t := by
  obtain ⟨hholdings, hdraws, hkept⟩ := hrel
  refine h.of_objects hholdings hdraws ?_ ?_
  · intro a ha content hcontent
    by_cases hsame : a.storageKey = key
    · rw [hsame]
      exact hrow a ha hsame
    · exact ⟨content, hkept _ _ _ (hkey.apart (h.isKey ha) (Ne.symm hsame) _) hcontent⟩
  · intro a ha _ content hcontent
    exact hkept _ _ _ (hkey.apart_thumbnail (h.isKey ha) _) hcontent

/-- **What is done to the thumbnail for a key harms no attachment with another key**, nor one
without a thumbnail. -/
theorem of_storing_thumbnail (h : IsSound source first s)
    (hrel : (Footprint.storing (Filename.thumbnailKey key)).rel s t) (hkey : Filename.IsKey key)
    (hrow : ∀ a ∈ s.holdings.attachments, a.storageKey = key → a.thumbnail = none) :
    IsSound source first t := by
  obtain ⟨hholdings, hdraws, hkept⟩ := hrel
  refine h.of_objects hholdings hdraws ?_ ?_
  · intro a ha content hcontent
    exact ⟨content, hkept _ _ _ (hkey.thumbnail_apart (h.isKey ha) _) hcontent⟩
  · intro a ha hthumbnail content hcontent
    have hne : key ≠ a.storageKey := fun hsame => hthumbnail (hrow a ha hsame.symm)
    exact hkept _ _ _ (hkey.thumbnails_apart (h.isKey ha) hne _) hcontent

end IsSound

/-! ### New attachments and sessions -/

/-- The key was given out, and nobody has it yet. -/
structure IsFresh (source : Source) (first : Nat) (key : String) (s : State) : Prop where
  issued : source.Issued first s.draws key
  free : ∀ user kind, ¬ s.holdings.Owns user kind key

/-- An attachment of the user may be added at the key: its object is there, and the key is nobody
else's. -/
structure IsReady (source : Source) (first : Nat) (user : UserId) (kind : Kind) (key : String)
    (s : State) : Prop where
  object : ∃ content, s.object? kind key = some content
  issued : source.Issued first s.draws key
  owner : ∀ user' kind', s.holdings.Owns user' kind' key → user' = user ∧ kind' = kind
  tied : s.holdings.isTied = true → kind = .bucket

/-- A session may be added: its name was drawn for it, and its files are where the name leads. -/
structure IsFiledAs (source : Source) (first : Nat) (x : Session) (s : State) : Prop where
  named : source.HasNamed first s.draws x.id
  files : ∀ path, x.Keeps path → IsFileOf s.holdings.scratchDirectory x.id path

/-- The attachment is there, and the only one with its number. -/
def IsOnly (a : Attachment) (s : State) : Prop :=
  a ∈ s.holdings.attachments ∧ ∀ b ∈ s.holdings.attachments, b.id = a.id → b = a

theorem IsFresh.stable : IsStable (IsFresh source first key) := by
  intro s t hquiet h
  refine ⟨h.issued.mono hquiet.2, ?_⟩
  rw [hquiet.1]
  exact h.free

theorem IsReady.stable {user : UserId} {kind : Kind} :
    IsStable (IsReady source first user kind key) := by
  intro s t hquiet h
  obtain ⟨content, hcontent⟩ := h.object
  refine ⟨⟨content, ?_⟩, h.issued.mono hquiet.2, ?_, ?_⟩
  · rw [State.object?_of_holdings hquiet.1]
    exact hcontent
  · rw [hquiet.1]
    exact h.owner
  · rw [hquiet.1]
    exact h.tied

theorem IsOnly.stable (a : Attachment) : IsStable (IsOnly a) :=
  .of_holdings fun h => a ∈ h.attachments ∧ ∀ b ∈ h.attachments, b.id = a.id → b = a

/-- An attachment that is there shows that its key is ready for another one of its user. -/
theorem IsSound.isReady (h : IsSound source first s) {a : Attachment}
    (ha : a ∈ s.holdings.attachments) :
    IsReady source first a.creator a.storage a.storageKey s where
  object := h.stocked.object a ha
  issued := h.owned.issued _ _ _ (Holdings.owns_of_mem ha)
  owner _ _ hown := h.owned.owner _ _ _ _ _ (Holdings.owns_of_mem ha) hown
  tied htrue := h.owned.tied htrue a ha

namespace IsSound

/-- **A new attachment may share the key of those of its user.** -/
theorem insert (h : IsSound source first s) {a : Attachment}
    (hready : IsReady source first a.creator a.storage a.storageKey s) (hnone : a.thumbnail = none)
    (hid : a.id = s.holdings.lastAttachment + 1)
    (hholdings : t.holdings = { s.holdings with
      attachments := a :: s.holdings.attachments, lastAttachment := a.id })
    (hdraws : s.draws ≤ t.draws) : IsSound source first t ∧ IsOnly a t := by
  refine ⟨⟨?_, ?_, h.filed.of_same ?_ ?_ hdraws⟩, ?_⟩
  · rw [hholdings]
    exact h.stocked.insert hready.object hnone
  · rw [hholdings]
    exact h.owned.insert hdraws (hready.issued.mono hdraws) hready.owner hready.tied hid
  · rw [hholdings]
  · rw [hholdings]
  · rw [IsOnly, hholdings]
    refine ⟨List.mem_cons_self, fun b hb hsame => ?_⟩
    rcases List.mem_cons.mp hb with rfl | hb
    · rfl
    · have hle := h.owned.numbered b hb
      omega

/-- A new session may have a key that nobody has, and a name of its own. -/
theorem openSession (h : IsSound source first s) {x : Session} (hsize : 0 < x.size)
    (hfresh : ∀ key, x.target.key? = some key → IsFresh source first key s)
    (hnew : ∀ y ∈ s.holdings.sessions, y.id ≠ x.id) (hfiled : IsFiledAs source first x s)
    (hholdings : t.holdings = { s.holdings with sessions := x :: s.holdings.sessions })
    (hdraws : s.draws ≤ t.draws) : IsSound source first t := by
  constructor
  all_goals rw [hholdings]
  · exact ⟨h.stocked.object, fun a ha t ht =>
      ⟨(h.stocked.thumbnail a ha t ht).key, (h.stocked.thumbnail a ha t ht).object⟩⟩
  · exact h.owned.openSession hdraws (fun key hkey => (hfresh key hkey).issued.mono hdraws)
      (fun key hkey => (hfresh key hkey).free) hsize
  · exact h.filed.openSession hdraws hnew (hfiled.named.mono hdraws) hfiled.files

/-- Removing rows leaves the others with what they have. -/
theorem delete (h : IsSound source first s) {p : Attachment → Bool}
    (hholdings : t.holdings = { s.holdings with attachments := s.holdings.attachments.filter p })
    (hdraws : s.draws ≤ t.draws) : IsSound source first t := by
  have hrows : ∀ a ∈ t.holdings.attachments, a ∈ s.holdings.attachments := by
    rw [hholdings]
    exact fun a ha => List.mem_of_mem_filter ha
  have hsessions : t.holdings.sessions = s.holdings.sessions := by rw [hholdings]
  refine ⟨h.stocked.of_kept hrows ?_ ?_, h.owned.of_owns ?_ ?_ ?_ hdraws ?_ ?_ ?_,
    h.filed.of_same hsessions ?_ hdraws⟩
  · rw [hholdings]
    exact fun a _ content hcontent => ⟨content, hcontent⟩
  · rw [hholdings]
    exact fun a _ _ content hcontent => hcontent
  · rw [hholdings]
  · rw [hholdings]
  · rw [hholdings]
  · rw [hholdings]
    exact List.filter_sublist.map _
  · exact fun a ha => ⟨a, hrows a ha, rfl, rfl, rfl, rfl⟩
  · exact fun x hx => ⟨x, hsessions ▸ hx, rfl⟩
  · rw [hholdings]

/-- Rows may be changed as long as their keys stay, and each thumbnail is there. -/
theorem change (h : IsSound source first s) {f : Attachment → Attachment}
    (hsame : ∀ a, (f a).storageKey = a.storageKey ∧ (f a).storage = a.storage
      ∧ (f a).creator = a.creator ∧ (f a).id = a.id)
    (hthumbnail : ∀ a ∈ s.holdings.attachments, ∀ thumbnail, (f a).thumbnail = some thumbnail →
      s.holdings.HasThumbnail a thumbnail)
    (hrows : t.holdings.attachments = s.holdings.attachments.map f) (hholdings : KeepsFiles s t)
    (hdraws : s.draws ≤ t.draws) : IsSound source first t := by
  rw [KeepsFiles] at hholdings
  have hsessions : t.holdings.sessions = s.holdings.sessions := by rw [hholdings]
  have hobject : ∀ kind key, t.holdings.object? kind key = s.holdings.object? kind key :=
    Holdings.object?_of_same (by rw [hholdings]) (by rw [hholdings])
  refine ⟨⟨?_, ?_⟩, h.owned.of_owns ?_ ?_ ?_ hdraws ?_ ?_ ?_, h.filed.of_same hsessions ?_ hdraws⟩
  · intro b hb
    obtain ⟨a, ha, rfl⟩ := List.mem_map.mp (hrows ▸ hb)
    rw [hobject, (hsame a).1, (hsame a).2.1]
    exact h.stocked.object a ha
  · intro b hb thumbnail hfound
    obtain ⟨a, ha, rfl⟩ := List.mem_map.mp (hrows ▸ hb)
    obtain ⟨hkey, content, hcontent, hsize⟩ := hthumbnail a ha thumbnail hfound
    refine ⟨hkey.trans (by rw [(hsame a).1]), content, ?_, hsize⟩
    rw [hobject, (hsame a).2.1]
    exact hcontent
  · rw [hholdings]
  · rw [hholdings]
  · rw [hholdings]
  · rw [hrows, List.map_map]
    exact (List.map_congr_left fun a _ => (hsame a).2.2.2) ▸ List.Sublist.refl _
  · intro b hb
    obtain ⟨a, ha, rfl⟩ := List.mem_map.mp (hrows ▸ hb)
    exact ⟨a, ha, hsame a⟩
  · exact fun x hx => ⟨x, hsessions ▸ hx, rfl⟩
  · rw [hholdings]

/-- A thumbnail that is there may be recorded in a row. -/
theorem record (h : IsSound source first s) {a : Attachment} {thumbnail : Thumbnail}
    {time : Instant} (honly : IsOnly a s) (hthumbnail : s.holdings.HasThumbnail a thumbnail)
    (hholdings : t.holdings = { s.holdings with
      attachments := s.holdings.attachments.map fun b =>
        if b.id == a.id then { b with thumbnail := some thumbnail, updated := time } else b })
    (hdraws : s.draws ≤ t.draws) : IsSound source first t := by
  refine h.change (fun b => ?_) (fun b hb found hfound => ?_) (by rw [hholdings]) ?_ hdraws
  · split
    · exact ⟨rfl, rfl, rfl, rfl⟩
    · exact ⟨rfl, rfl, rfl, rfl⟩
  · split at hfound
    · rename_i hid
      cases hfound
      rw [honly.2 b hb (beq_iff_eq.mp hid)]
      exact hthumbnail
    · exact h.stocked.thumbnail b hb found hfound
  · rw [KeepsFiles, hholdings]

/-- Attachments may be linked to other memos, and nothing about memos matters. -/
theorem relink (h : IsSound source first s) {f : Attachment → Attachment}
    (hf : ∀ a, f a = { a with memo := (f a).memo, updated := (f a).updated })
    (hrows : t.holdings.attachments = s.holdings.attachments.map f) (hholdings : KeepsFiles s t)
    (hdraws : s.draws ≤ t.draws) : IsSound source first t := by
  refine h.change (fun a => ?_) (fun a ha thumbnail hfound => ?_) hrows hholdings hdraws
  · rw [hf]
    exact ⟨rfl, rfl, rfl, rfl⟩
  · rw [hf] at hfound
    exact h.stocked.thumbnail a ha thumbnail hfound

end IsSound

end Server

end SharedMemos
