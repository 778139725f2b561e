import SharedMemos.Proofs.Server.Memos.Writes
import SharedMemos.Proofs.Server.Runs

/-!
# What other users keep

Nothing that is done in the name of some users takes anything away from the others: their
attachments, the objects and thumbnails at their keys, their uploads and the scratch files of these
are as they were (`Spares`). Only deeds need to be looked at. What makes the proof short is what is
known of a sound state, that a key has one owner and a scratch file one session.

This is more than to say that the others keep their rows. The object at a key may go while rows of
its owner stay, and one row may go while another needs the object; so what is spared are the keys
that a user owns, whatever rows there are.

## Main definitions

* `Spares` — others keep what they have
* `IsTidy` — rows of all tables are told apart, and all is sound

## Main results

* `Deed.spares` — deeds spare others
* `Turn.spares` — and so does every turn, however it ends
-/

namespace SharedMemos.Server

open SharedMemos.Storage SharedMemos.Upload Attempt

variable {digested : Digested} {source : Source} {first last : Nat} {party : UserId → Prop}
  {s t u : State} {key : String}

/-- All users but those of the party keep what they have, and memos are as they were. -/
structure Spares (party : UserId → Prop) (s t : State) : Prop where
  attachment : ∀ a ∈ s.holdings.attachments, ¬ party a.creator → a ∈ t.holdings.attachments
  session : ∀ x ∈ s.holdings.sessions, ¬ party x.creator → x ∈ t.holdings.sessions
  scratch : ∀ x ∈ s.holdings.sessions, ¬ party x.creator →
    ∀ path, x.Keeps path → t.scratch? path = s.scratch? path
  object : ∀ user kind key, s.holdings.Owns user kind key → ¬ party user →
    ∀ content, s.object? kind key = some content → t.object? kind key = some content
  thumbnail : ∀ user kind key, s.holdings.Owns user kind key → ¬ party user →
    ∀ content, s.object? kind (Filename.thumbnailKey key) = some content →
      t.object? kind (Filename.thumbnailKey key) = some content
  memos : t.holdings.memos = s.holdings.memos

namespace Spares

theorem refl (s : State) : Spares party s s :=
  ⟨fun _ ha _ => ha, fun _ hx _ => hx, fun _ _ _ _ _ => rfl, fun _ _ _ _ _ _ h => h,
    fun _ _ _ _ _ _ h => h, rfl⟩

/-- Other users go on to own their keys. -/
theorem owns (h : Spares party s t) {user : UserId} {kind : Kind} {key : String}
    (hown : s.holdings.Owns user kind key) (huser : ¬ party user) :
    t.holdings.Owns user kind key := by
  rcases hown with ⟨a, ha, hkey, hkind, rfl⟩ | ⟨x, hx, hkey, hkind, rfl⟩
  · exact .inl ⟨a, h.attachment a ha huser, hkey, hkind, rfl⟩
  · exact .inr ⟨x, h.session x hx huser, hkey, hkind, rfl⟩

theorem trans (h : Spares party s t) (h' : Spares party t u) : Spares party s u where
  attachment a ha huser := h'.attachment a (h.attachment a ha huser) huser
  session x hx huser := h'.session x (h.session x hx huser) huser
  scratch x hx huser path hkept :=
    (h'.scratch x (h.session x hx huser) huser path hkept).trans (h.scratch x hx huser path hkept)
  object user kind key hown huser content hfound :=
    h'.object user kind key (h.owns hown huser) huser content
      (h.object user kind key hown huser content hfound)
  thumbnail user kind key hown huser content hfound :=
    h'.thumbnail user kind key (h.owns hown huser) huser content
      (h.thumbnail user kind key hown huser content hfound)
  memos := h'.memos.trans h.memos

/-- Where no object changes, only rows and scratch files need to be looked at. -/
theorem of_rows (hdisk : t.holdings.disk = s.holdings.disk)
    (hobjects : t.holdings.objects = s.holdings.objects)
    (hmemos : t.holdings.memos = s.holdings.memos)
    (hattachment : ∀ a ∈ s.holdings.attachments, ¬ party a.creator → a ∈ t.holdings.attachments)
    (hsession : ∀ x ∈ s.holdings.sessions, ¬ party x.creator → x ∈ t.holdings.sessions
      ∧ ∀ path, x.Keeps path → t.scratch? path = s.scratch? path) : Spares party s t where
  attachment := hattachment
  session x hx huser := (hsession x hx huser).1
  scratch x hx huser := (hsession x hx huser).2
  object _ kind _ _ _ _ hfound := (Holdings.object?_of_same hdisk hobjects kind _).trans hfound
  thumbnail _ kind _ _ _ _ hfound := (Holdings.object?_of_same hdisk hobjects kind _).trans hfound
  memos := hmemos

/-- Where only rows of attachments and uploads change, nothing else needs to be looked at. -/
theorem of_database
    (hholdings : t.holdings = { s.holdings with
      attachments := t.holdings.attachments, lastAttachment := t.holdings.lastAttachment
      sessions := t.holdings.sessions })
    (hattachment : ∀ a ∈ s.holdings.attachments, ¬ party a.creator → a ∈ t.holdings.attachments)
    (hsession : ∀ x ∈ s.holdings.sessions, ¬ party x.creator → x ∈ t.holdings.sessions) :
    Spares party s t := by
  refine .of_rows ?_ ?_ ?_ hattachment fun x hx huser => ⟨hsession x hx huser, fun path _ => ?_⟩
  · rw [hholdings]
  · rw [hholdings]
  · rw [hholdings]
  · exact scratch?_of_scratch (by rw [hholdings]) path

/-- Where only objects change, nothing else needs to be looked at. -/
theorem of_objects
    (hholdings : t.holdings = { s.holdings with disk := t.disk, objects := t.store.objects })
    (hobject : ∀ user kind key, s.holdings.Owns user kind key → ¬ party user →
      ∀ content, s.object? kind key = some content → t.object? kind key = some content)
    (hthumbnail : ∀ user kind key, s.holdings.Owns user kind key → ¬ party user →
      ∀ content, s.object? kind (Filename.thumbnailKey key) = some content →
        t.object? kind (Filename.thumbnailKey key) = some content) : Spares party s t where
  attachment a ha _ := by
    rw [hholdings]
    exact ha
  session x hx _ := by
    rw [hholdings]
    exact hx
  scratch _ _ _ path _ := scratch?_of_scratch (by rw [hholdings]) path
  object := hobject
  thumbnail := hthumbnail
  memos := by rw [hholdings]

end Spares

namespace IsSound

/-- **What is done to the object at a key spares all who do not own the key.** -/
theorem spares_of_storing (h : IsSound source first s) (hkey : Filename.IsKey key)
    (hown : IsOwn party key s) (hrel : (Footprint.storing key).rel s t) : Spares party s t := by
  obtain ⟨hholdings, -, hkept⟩ := hrel
  refine .of_objects hholdings (fun user kind other hother huser content hfound => ?_)
    fun user kind other hother huser content hfound => ?_
  all_goals have hother' := (h.owned.issued _ _ _ hother).isKey
  · have hne : key ≠ other := by
      rintro rfl
      exact huser (hown user kind hother)
    exact hkept _ _ _ (hkey.apart hother' hne kind) hfound
  · exact hkept _ _ _ (hkey.apart_thumbnail hother' kind) hfound

/-- What is done to the thumbnail for a key spares all who do not own the key. -/
theorem spares_of_storing_thumbnail (h : IsSound source first s) (hkey : Filename.IsKey key)
    (hown : IsOwn party key s)
    (hrel : (Footprint.storing (Filename.thumbnailKey key)).rel s t) : Spares party s t := by
  obtain ⟨hholdings, -, hkept⟩ := hrel
  refine .of_objects hholdings (fun user kind other hother huser content hfound => ?_)
    fun user kind other hother huser content hfound => ?_
  all_goals have hother' := (h.owned.issued _ _ _ hother).isKey
  · exact hkept _ _ _ (hkey.thumbnail_apart hother' kind) hfound
  · have hne : key ≠ other := by
      rintro rfl
      exact huser (hown user kind hother)
    exact hkept _ _ _ (hkey.thumbnails_apart hother' hne kind) hfound

end IsSound

/-- **Deeds spare all users in whose name they are not done.** -/
theorem Deed.spares (h : Deed digested source first party s t) (hs : IsSound source first s) :
    Spares party s t := by
  cases h with
  | uploading hup =>
    refine .of_rows ?_ ?_ ?_ (fun a ha _ => ?_) hup.others
    all_goals rw [hup.holdings]
    exact ha
  | atUnused hkey _ hown hrel => exact hs.spares_of_storing hkey hown hrel
  | atUpload hx hat huser hrel _ =>
    have hmine := Holdings.owns_of_session hx hat
    exact hs.spares_of_storing (hs.owned.issued _ _ _ hmine).isKey (hs.isOwn hmine huser) hrel
  | atThumbnail hkey _ hown hrel => exact hs.spares_of_storing_thumbnail hkey hown hrel
  | insert _ _ _ _ _ _ hholdings _ =>
    refine .of_database (by rw [hholdings]) (fun a ha _ => ?_) fun x hx _ => ?_
    all_goals rw [hholdings]
    · exact List.mem_cons_of_mem _ ha
    · exact hx
  | record huser honly _ hholdings _ =>
    refine .of_database (by rw [hholdings]) (fun b hb hother => ?_) fun x hx _ => ?_
    all_goals rw [hholdings]
    · refine List.mem_map.mpr ⟨b, hb, if_neg fun hid => hother ?_⟩
      rw [honly.2 b hb (beq_iff_eq.mp hid)]
      exact huser
    · exact hx
  | delete husers hholdings _ =>
    refine .of_database (by rw [hholdings]) (fun a ha hother => ?_) fun x hx _ => ?_
    all_goals rw [hholdings]
    · exact List.mem_filter.mpr ⟨ha, Bool.of_not_eq_false fun hgone => hother (husers a ha hgone)⟩
    · exact hx
  | openSession _ _ _ _ _ hholdings _ =>
    refine .of_database (by rw [hholdings]) (fun a ha _ => ?_) fun x hx _ => ?_
    all_goals rw [hholdings]
    · exact ha
    · exact List.mem_cons_of_mem _ hx

/-! ### Tidy states -/

/-- All is sound, and the rows of memos and of attachments are told apart. -/
structure IsTidy (source : Source) (first : Nat) (s : State) : Prop where
  sound : IsSound source first s
  uids : HasUids s
  keyed : s.database.IsKeyed

theorem Database.IsKeyed.of_same {d d' : Database} (h : d.IsKeyed) (hmemos : d'.memos = d.memos)
    (hlast : d'.lastMemo = d.lastMemo) : d'.IsKeyed := by
  obtain ⟨hid, huid, hle⟩ := h
  constructor
  all_goals rw [hmemos]
  · exact hid
  · exact huid
  · rw [hlast]
    exact hle

theorem isLasting_isTidy : IsLasting digested source first party (IsTidy source first) where
  sound h := h.sound
  deed h hdeed := ⟨h.sound.deed hdeed, h.uids.deed hdeed,
    h.keyed.of_same hdeed.memos_eq (congrArg (·.2.1) hdeed.fixed_eq)⟩

/-- Attachments may be linked to other memos. -/
theorem IsTidy.relink (h : IsTidy source first s) {change : Attachment → Attachment}
    (hchange : ∀ a, change a = { a with memo := (change a).memo, updated := (change a).updated })
    (hrows : t.holdings.attachments = s.holdings.attachments.map change) (hkept : KeepsFiles s t)
    (hdraws : s.draws ≤ t.draws) (hkeyed : t.database.IsKeyed) : IsTidy source first t := by
  refine ⟨h.sound.relink hchange hrows hkept hdraws, fun a ha b hb huid => ?_, hkeyed⟩
  obtain ⟨a', ha', rfl⟩ := List.mem_map.mp (hrows ▸ ha)
  obtain ⟨b', hb', rfl⟩ := List.mem_map.mp (hrows ▸ hb)
  rw [hchange a', hchange b'] at huid ⊢
  exact h.uids a' ha' b' hb' huid

/-- **A turn spares all users in whose name it is not done**, however it ends. -/
theorem Turn.spares (turn : Turn) (hnames : source.NeverRepeats first last)
    (hids : source.NeverRepeatsSessions first last) (s : State) :
    s.draws ≤ (turn.act.exec s).2.draws
      ∧ ((turn.act.exec s).2.draws ≤ last → IsTidy source first s →
        IsTidy source first (turn.act.exec s).2 ∧ Spares turn.ActsFor s (turn.act.exec s).2) := by
  have hinv : IsLasting Digested.all source first turn.ActsFor
      fun t => IsTidy source first t ∧ Spares turn.ActsFor s t :=
    isLasting_isTidy.and fun ht hspares hdeed => hspares.trans (hdeed.spares ht.sound)
  obtain ⟨hdraws, hends⟩ := act_upholds hinv hnames (.inr hids) turn (fun _ huser => huser) s
  refine ⟨hdraws, fun hlast hs => ?_⟩
  exact (hends hlast ⟨⟨hs, .refl s⟩, Digested.all_coversTurn s turn⟩).always

end SharedMemos.Server
