import SharedMemos.Proofs.Server.Observing
import SharedMemos.Proofs.Server.Runs
import SharedMemos.Proofs.Upload.Part

/-!
# Addresses for parts

Parts of an upload are signed for one after the other. A request that takes the upload to be
elsewhere is told where it is; any other that is refused is told what is wrong with it. A part that
is *due* gets its address: it is the next one, it stays within the declared size, and it is only
small if it is the last.

That is not all that gets an address. The end of the part is counted in a 64-bit word, and past the
end of the word it comes out negative, which is within any declared size. A part that *runs over*
the word in this way is signed for as well (`PartRequest.RunsOver`), unless it is smaller than a
part may be.

## Main definitions

* `PartRequest.IsDue` — the part may be sent
* `PartRequest.RunsOver` — the end of the part does not fit in a word

## Main results

* `checkPart_passes_iff` — what the check lets through
* `partAddress_answers` — what becomes of a request
-/

namespace SharedMemos

open SharedMemos.Text SharedMemos.Storage SharedMemos.Upload

namespace Upload.PartRequest

/-- The part has bytes, and a number that parts may have. -/
structure IsSendable (part : PartRequest) : Prop where
  number : 1 ≤ part.number ∧ part.number ≤ Limit.maxPartNumber
  size : 0 < part.size

/-- The part comes next after those that have been received, and goes where they end. -/
structure IsNext (part : PartRequest) (parts : List Part) : Prop where
  number : part.number = parts.length + 1
  offset : part.offset = totalSize parts

/-- The part may be sent in an upload of a declared size. -/
structure IsDue (part : PartRequest) (parts : List Part) (declared : Int) : Prop where
  sendable : part.IsSendable
  next : part.IsNext parts
  fits : part.offset + part.size ≤ declared
  large : Limit.minPartSize ≤ part.size ∨ part.offset + part.size = declared

/-- The part could be sent, but its end does not fit in a word. -/
structure RunsOver (part : PartRequest) (parts : List Part) : Prop where
  sendable : part.IsSendable
  next : part.IsNext parts
  exceeds : maxInt64 < part.offset + part.size
  large : Limit.minPartSize ≤ part.size

end Upload.PartRequest

namespace Server

open Attempt

variable {s : State} {x : Session} {parts : List Part} {part : PartRequest}

/-! ### The check -/

/-- A request that takes the upload to be elsewhere is told where it is. -/
theorem checkPart_of_not_isNext (h : ¬ part.IsNext parts) :
    checkPart x parts part = .error (.offsetMismatch part.offset (totalSize parts)) := by
  have hwrong : part.number ≠ parts.length + 1 ∨ part.offset ≠ totalSize parts := by
    by_contra hboth
    obtain ⟨hnumber, hoffset⟩ := not_or.mp hboth
    exact h ⟨not_not.mp hnumber, not_not.mp hoffset⟩
  rw [checkPart]
  dsimp only
  rw [if_pos hwrong]
  rfl

/-- What the check lets through, if the part is the next one; anything else is a fault of the
request. -/
theorem checkPart_of_isNext (h : part.IsNext parts) :
    (wrapInt64 (part.offset + part.size) ≤ x.size
        ∧ (Limit.minPartSize ≤ part.size ∨ wrapInt64 (part.offset + part.size) = x.size)
        ∧ checkPart x parts part = .ok part.offset)
      ∨ (¬ (wrapInt64 (part.offset + part.size) ≤ x.size
          ∧ (Limit.minPartSize ≤ part.size ∨ wrapInt64 (part.offset + part.size) = x.size))
        ∧ ∃ fault, checkPart x parts part = .error (.invalidInput fault)) := by
  have hright : ¬ (part.number ≠ parts.length + 1 ∨ part.offset ≠ totalSize parts) := by
    rintro (hnumber | hoffset)
    · exact hnumber h.number
    · exact hoffset h.offset
  rw [checkPart]
  dsimp only
  rw [if_neg hright, ← h.offset]
  by_cases hbeyond : x.size < wrapInt64 (part.offset + part.size)
  · rw [if_pos hbeyond]
    exact .inr ⟨fun hpass => absurd hpass.1 (by omega), _, rfl⟩
  · rw [if_neg hbeyond]
    by_cases hsmall : wrapInt64 (part.offset + part.size) ≠ x.size ∧ part.size < Limit.minPartSize
    · rw [if_pos hsmall]
      refine .inr ⟨fun hpass => ?_, _, rfl⟩
      rcases hpass.2 with hlarge | hlast
      · exact absurd hsmall.2 (by omega)
      · exact hsmall.1 hlast
    · rw [if_neg hsmall]
      exact .inl ⟨by omega, by omega, rfl⟩

/-- **The check lets through what is due, and what runs over.** -/
theorem checkPart_passes_iff (hsize : 0 ≤ x.size ∧ isInt64 x.size) (hpart : isInt64 part.size)
    (hsendable : part.IsSendable) (hnext : part.IsNext parts) :
    (wrapInt64 (part.offset + part.size) ≤ x.size
        ∧ (Limit.minPartSize ≤ part.size ∨ wrapInt64 (part.offset + part.size) = x.size))
      ↔ part.IsDue parts x.size ∨ part.RunsOver parts := by
  have hoffset : isInt64 part.offset := hnext.offset ▸ isInt64_totalSize parts
  have hmost := (isInt64_iff.mp hsize.2).2
  by_cases hover : maxInt64 < part.offset + part.size
  · -- the end comes out negative, and so it is none
    have hnegative := wrapInt64_of_gt hoffset hpart hover
    constructor
    · rintro ⟨-, hlarge⟩
      exact .inr ⟨hsendable, hnext, hover, hlarge.resolve_right (by omega)⟩
    · rintro (⟨-, -, hfits, -⟩ | ⟨-, -, -, hlarge⟩)
      · omega
      · exact ⟨by omega, .inl hlarge⟩
  · have hend : isInt64 (part.offset + part.size) := by
      have hlow := (isInt64_iff.mp hoffset).1
      have hpositive := hsendable.size
      exact isInt64_iff.mpr ⟨by omega, by omega⟩
    rw [wrapInt64_of_isInt64 hend]
    constructor
    · rintro ⟨hfits, hlarge⟩
      exact .inl ⟨hsendable, hnext, hfits, hlarge⟩
    · rintro (⟨-, -, hfits, hlarge⟩ | ⟨-, -, hfalse, -⟩)
      · exact ⟨hfits, hlarge⟩
      · exact absurd hfalse hover

/-! ### The request -/

section

variable {id key upload : String} {partSize : Int} {u : PendingUpload}
  (hsession : s.database.session? id = some x) (htarget : x.target = .multipart key upload partSize)
  (hstore : s.ReachesStore) (hlist : s.store.failure? .listParts = none)
  (hsign : s.store.failure? .signPart = none) (hupload : s.store.upload? upload = some u)
  (htouch : s.database.mishap? .session .update ≠ some .fails)
include hsession htarget hstore hlist hsign hupload htouch

/-- A request for an address comes down to the check, where the server gets to its store and all
calls work. -/
theorem partAddress_exec (part : PartRequest) :
    (¬ part.IsSendable →
        ∃ fault, ((partAddress (some x.creator) id part).exec s).1 = .error (.invalidInput fault))
      ∧ (part.IsSendable → ∃ address, ((partAddress (some x.creator) id part).exec s).1
        = (checkPart x (contiguous u.parts) part).map fun offset =>
          ⟨address, part.number, offset, part.size⟩) := by
  have hown : (ownSession (some x.creator) id).exec s = (.ok x, s) := exec_ownSession hsession
  rw [partAddress, exec_bind_of_ok hown, htarget]
  dsimp only
  by_cases hnumber : part.number < 1 ∨ (Limit.maxPartNumber : Int) < part.number
  · rw [if_pos hnumber]
    refine ⟨fun _ => ⟨_, rfl⟩, fun hsendable => absurd hsendable.number (by omega)⟩
  rw [if_neg hnumber]
  by_cases hempty : part.size ≤ 0
  · rw [if_pos hempty]
    refine ⟨fun _ => ⟨_, rfl⟩, fun hsendable => absurd hsendable.size (by omega)⟩
  rw [if_neg hempty]
  refine ⟨fun hnot => absurd ⟨by omega, by omega⟩ hnot, fun _ => ?_⟩
  obtain ⟨s₁, hclient, settings₁, resolver₁, seen₁, -, rfl⟩ := hstore.exec_clientStore
  obtain ⟨s₂, hparts, settings₂, resolver₂, seen₂, -, rfl⟩ :=
    exec_listParts (s := s.observed settings₁ resolver₁ seen₁) key hlist hupload
  rw [exec_bind_of_ok hclient, exec_bind_of_ok hparts, State.observed_observed]
  cases hcheck : checkPart x (contiguous u.parts) part with
  | error e => exact ⟨"", rfl⟩
  | ok offset =>
    obtain ⟨address, s₃, haddress, settings₃, resolver₃, seen₃, -, rfl⟩ :=
      exec_signPart (s := s.observed settings₂ resolver₂ seen₂) key upload part.number
        Limit.signedLifetime hsign
    obtain ⟨isDone, t, htouched⟩ := exec_changeSession id (fun _ => true)
      (fun time y => { y with updated := time }) (s := s.observed settings₃ resolver₃ seen₃) htouch
    refine ⟨address, ?_⟩
    rw [exec_bind_of_ok (exec_ofExcept _ _), exec_bind_of_ok haddress, State.observed_observed]
    exact congrArg Prod.fst (exec_bind_of_ok htouched)

/-- A request is refused for what it says itself, or for where it takes the upload to be, or it
passes the check, or it does not. -/
theorem partAddress_cases (hsize : 0 ≤ x.size ∧ isInt64 x.size) (hpart : isInt64 part.size) :
    let parts := contiguous u.parts
    let answer := ((partAddress (some x.creator) id part).exec s).1
    (¬ part.IsSendable ∧ ∃ fault, answer = .error (.invalidInput fault))
      ∨ (part.IsSendable ∧ ¬ part.IsNext parts
        ∧ answer = .error (.offsetMismatch part.offset (totalSize parts)))
      ∨ ((part.IsDue parts x.size ∨ part.RunsOver parts)
        ∧ ∃ address, answer = .ok ⟨address, part.number, part.offset, part.size⟩)
      ∨ (part.IsNext parts ∧ ¬ (part.IsDue parts x.size ∨ part.RunsOver parts)
        ∧ ∃ fault, answer = .error (.invalidInput fault)) := by
  dsimp only
  obtain ⟨hrefused, hchecked⟩ :=
    partAddress_exec hsession htarget hstore hlist hsign hupload htouch part
  by_cases hsendable : part.IsSendable
  · obtain ⟨address, hanswer⟩ := hchecked hsendable
    rw [hanswer]
    by_cases hnext : part.IsNext (contiguous u.parts)
    · rw [← checkPart_passes_iff hsize hpart hsendable hnext]
      rcases checkPart_of_isNext (x := x) hnext with ⟨hfits, hlarge, hcheck⟩ | ⟨hno, fault, hcheck⟩
      · rw [hcheck]
        exact .inr (.inr (.inl ⟨⟨hfits, hlarge⟩, address, rfl⟩))
      · rw [hcheck]
        exact .inr (.inr (.inr ⟨hnext, hno, fault, rfl⟩))
    · rw [checkPart_of_not_isNext hnext]
      exact .inr (.inl ⟨hsendable, hnext, rfl⟩)
  · exact .inl ⟨hsendable, hrefused hsendable⟩

/-- **What becomes of a request for an address.** A part that is due gets one, and so does a part
that runs over, and no other; who takes the upload to be elsewhere is told where it is; anything
else is a fault of the request. Where the size of what has been received fits in a word, it is told
exactly. -/
theorem partAddress_answers (hsize : 0 ≤ x.size ∧ isInt64 x.size) (hpart : isInt64 part.size) :
    let parts := contiguous u.parts
    let answer := ((partAddress (some x.creator) id part).exec s).1
    ((∃ a, answer = .ok a) ↔ part.IsDue parts x.size ∨ part.RunsOver parts)
      ∧ (∀ a, answer = .ok a → a.number = part.number ∧ a.offset = part.offset ∧ a.size = part.size)
      ∧ (part.IsSendable → ¬ part.IsNext parts →
        answer = .error (.offsetMismatch part.offset (totalSize parts)))
      ∧ (∀ e, answer = .error e → (part.IsSendable → part.IsNext parts) →
        ∃ fault, e = .invalidInput fault)
      ∧ (isInt64 (sizeSum parts) → totalSize parts = sizeSum parts) := by
  dsimp only
  rcases partAddress_cases hsession htarget hstore hlist hsign hupload htouch hsize hpart with
    ⟨hnot, fault, hanswer⟩ | ⟨hsendable, hnext, hanswer⟩ | ⟨hpass, address, hanswer⟩
      | ⟨hnext, hno, fault, hanswer⟩ <;> rw [hanswer]
  · refine ⟨⟨nofun, fun hpass => ?_⟩, nofun, fun h => absurd h hnot, fun e he _ => ?_,
      totalSize_of_fits⟩
    · exact (hpass.elim (fun h => hnot h.sendable) fun h => hnot h.sendable).elim
    · cases he
      exact ⟨fault, rfl⟩
  · refine ⟨⟨nofun, fun hpass => ?_⟩, nofun, fun _ _ => rfl, fun e _ h => ?_,
      totalSize_of_fits⟩
    · exact (hpass.elim (fun h => hnext h.next) fun h => hnext h.next).elim
    · exact absurd (h hsendable) hnext
  · refine ⟨iff_of_true ⟨_, rfl⟩ hpass, fun a ha => ?_, fun _ h => absurd ?_ h, nofun,
      totalSize_of_fits⟩
    · cases ha
      exact ⟨rfl, rfl, rfl⟩
    · exact hpass.elim (·.next) (·.next)
  · refine ⟨iff_of_false nofun hno, nofun, fun _ h => absurd hnext h, fun e he _ => ?_,
      totalSize_of_fits⟩
    cases he
    exact ⟨fault, rfl⟩

end

/-- The name of an upload. -/
def filmId : String := bucketServer.source.sessionName 0

/-- What has been sent of it. -/
def filmPart : Part := ⟨1, 8388608, "film-1"⟩

/-- A user uploads a film in parts, and has sent the first. -/
def filmUpload : State :=
  State.after { bucketServer with store := {} }
    [.createSession (some 7) { filename := "film.bin", size := 20971520 },
      .clientPart filmId filmPart]

theorem filmUpload_session :
    (filmUpload.database.session? filmId).map (fun x => (x.creator, x.size, x.target))
      = some (7, 20971520,
        .multipart "attachments/000000000000000000000001.bin" "upload-1" 8388608) := by
  decide +kernel

/-- The next part gets its address. -/
theorem partAddress_answers_film :
    ∃ a, ((partAddress (some 7) filmId ⟨8388608, 2, 8388608⟩).exec filmUpload).1 = .ok a := by
  obtain ⟨x, hsession, hx⟩ := Option.map_eq_some_iff.mp filmUpload_session
  obtain ⟨hcreator, hterms⟩ := Prod.mk.inj hx
  obtain ⟨hsize, htarget⟩ := Prod.mk.inj hterms
  have hupload : filmUpload.store.upload? "upload-1"
      = some ⟨"upload-1", "attachments/000000000000000000000001.bin", [filmPart]⟩ := by
    decide +kernel
  have hstore : filmUpload.ReachesStore := ⟨by decide +kernel, _, by rfl⟩
  have hpart : isInt64 (PartRequest.mk 8388608 2 8388608).size := by decide
  have hanswers := partAddress_answers hsession htarget hstore (by decide +kernel)
    (by decide +kernel) hupload (by decide +kernel) (by rw [hsize]; decide) hpart
  rw [hcreator] at hanswers
  refine hanswers.1.mpr (.inl ⟨⟨by decide, by decide⟩, ⟨?_, ?_⟩, ?_, .inl (by decide)⟩)
  · decide +kernel
  · decide +kernel
  · rw [hsize]
    decide

/-- **A part may run over.** Whoever says that the next part is as large as can be gets an address
for it, however little has been declared. -/
theorem partAddress_answers_overrun :
    ¬ ∀ part : PartRequest, isInt64 part.size →
      ((∃ a, ((partAddress (some 7) filmId part).exec filmUpload).1 = .ok a)
        ↔ part.IsDue (contiguous [filmPart]) 20971520) := by
  intro h
  have hgranted : ∃ a, ((partAddress (some 7) filmId ⟨8388608, 2, maxInt64⟩).exec filmUpload).1
      = .ok a := exists_of_isOk (by decide +kernel)
  have hfits := ((h _ (by decide)).mp hgranted).fits
  exact absurd hfits (by decide)

end Server

end SharedMemos
