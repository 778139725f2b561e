import SharedMemos.Proofs.Server.Thumbnails

/-!
# Uploads that come in chunks

The bytes of an upload are written into a scratch file, and then the row of its session is moved on.
The two are steps of their own, and the second may fail. What holds all the time is that the file
starts with the chunks that have been accepted (`HasReceived`): bytes behind them may have been
written by a chunk that was not accepted in the end, and nobody looks at them. A chunk is only
written where the last accepted one ended, and so it never touches what counts.

When the upload is completed, everything that was declared has been accepted, and there is nothing
behind it. The content is read once for the digest and again to be stored; nothing comes between
the two.

## Main results

* `hasReceived_createSession`, `appendChunk_spec` — opening and sending
* `gatherScratch_spec` — what is made of the scratch file
* `upload_in_chunks` — any number of chunks, and the attachment that comes of them
-/

namespace SharedMemos.Server

open SharedMemos.Storage SharedMemos.Upload SharedMemos.Bytes

/-- The bytes of chunks, one chunk after the other. -/
def joined (chunks : List ByteArray) : List UInt8 :=
  chunks.flatMap (·.data.toList)

/-- An upload of a declared size has received the chunks: its session says how many bytes they have,
they fit in, and its scratch file is as long as declared and starts with them. -/
structure HasReceived (id path : String) (size : Int) (chunks : List ByteArray) (s : State) :
    Prop where
  row : ∃ session, s.database.session? id = some session ∧ session.target = .scratch path
    ∧ session.size = size ∧ session.received = (joined chunks).length
  fits : ((joined chunks).length : Int) ≤ size
  file : ∃ content, s.scratch? path = some (.file content) ∧ (content.size : Int) = size
    ∧ content.toList.take (joined chunks).length = joined chunks

variable {s t : State} {id path : String} {size : Int} {chunks : List ByteArray}

/-! ### Scratch files -/

theorem scratch?_withScratch_self {content : Scratch} :
    (s.withScratch path content).scratch? path = some content := by
  show (List.find? _ ((path, content) :: _)).map _ = _
  rw [find?_cons_self, Option.map_some]

/-! ### Opening -/

/-- Making room for a scratch file writes zeros. -/
theorem openTarget_scratch {b : Backend} {filename contentType : String} {address : Option String}
    (h : (openTarget b id filename contentType size).exec s = (.ok (.scratch path, address), t)) :
    t = s.withScratch path (.file (.ofZeros size.toNat)) := by
  rw [openTarget] at h
  split at h
  · rw [Attempt.exec_bind_eq_ok] at h
    obtain ⟨key, s₁, -, h⟩ := h
    rw [Attempt.exec_outcome_bind] at h
    split at h
    · cases h
    · rw [Attempt.exec_bind_eq_ok] at h
      obtain ⟨address, s₂, -, h⟩ := h
      cases h
    · cases h
  · rw [Attempt.exec_bind_eq_ok] at h
    obtain ⟨directory, s₁, hlook, h⟩ := h
    cases hlook
    rw [Attempt.exec_bind_eq_ok] at h
    obtain ⟨_, s₂, hwrite, h⟩ := h
    cases h
    rw [writeScratch] at hwrite
    rw [Attempt.exec_atomic] at hwrite
    split at hwrite
    · cases hwrite
    · cases hwrite
      rfl

/-- **A session that has been opened has received nothing yet.** -/
theorem hasReceived_createSession {viewer : Viewer} {draft : SessionDraft} {ticket : Ticket}
    (hmishap : s.database.mishap? .session .insert ≠ some .passes)
    (hopen : (createSession viewer draft).exec s = (.ok ticket, t))
    (htarget : ticket.session.target = .scratch path) :
    HasReceived ticket.session.id path draft.size [] t := by
  rw [createSession] at hopen
  rw [Attempt.exec_bind_eq_ok] at hopen
  obtain ⟨user, s₁, huser, hopen⟩ := hopen
  rw [Attempt.exec_bind_eq_ok] at hopen
  obtain ⟨filename, s₂, hfilename, hopen⟩ := hopen
  rw [Attempt.exec_bind_eq_ok] at hopen
  obtain ⟨setting, s₃, hsetting, hopen⟩ := hopen
  dsimp only at hopen
  split at hopen
  · rw [Attempt.throw_bind] at hopen
    cases hopen
  · rename_i hpositive
    rw [Attempt.exec_bind_eq_ok] at hopen
    obtain ⟨_, s₄, hlimit, hopen⟩ := hopen
    rw [Attempt.exec_bind_eq_ok] at hopen
    obtain ⟨_, s₅, hmemo, hopen⟩ := hopen
    rw [Attempt.exec_bind_eq_ok] at hopen
    obtain ⟨id, s₆, hid, hopen⟩ := hopen
    rw [Attempt.exec_bind_eq_ok] at hopen
    obtain ⟨b, s₇, hb, hopen⟩ := hopen
    rw [Attempt.exec_bind_eq_ok] at hopen
    obtain ⟨⟨target, address⟩, s₈, hroom, hopen⟩ := hopen
    dsimp only at hopen
    rw [Attempt.exec_bind_eq_ok] at hopen
    obtain ⟨time, s₉, htime, hopen⟩ := hopen
    cases htime
    have hquiet : s₇.holdings = s.holdings := by
      rw [holdings_of_exec (backendForNew_quiet setting) hb,
        holdings_of_exec (drawName_quiet _) hid, holdings_of_exec (memoLink_quiet _ _) hmemo,
        holdings_of_exec (checkLimit_quiet _ _) hlimit,
        holdings_of_exec storageSetting_quiet hsetting,
        holdings_of_exec (Attempt.Within.ofExcept _) hfilename,
        holdings_of_exec (signedIn_quiet _ _) huser]
    rw [Attempt.exec_outcome_bind] at hopen
    split at hopen
    · rename_i hinsert
      rw [Attempt.exec_pure] at hopen
      obtain ⟨hticket, hafter⟩ := Prod.mk.inj hopen
      cases hticket
      cases htarget
      cases openTarget_scratch hroom
      have hmishaps : s₇.database.mishaps = s.database.mishaps := congrArg Holdings.mishaps hquiet
      obtain ⟨d, hrun, rfl⟩ := exec_transact_ok (Prod.ext hinsert hafter)
      rcases Database.run_insertSession hrun with ⟨hpassed, -⟩ | ⟨-, rfl⟩
      · refine absurd ?_ hmishap
        rw [Database.mishap?, ← hmishaps]
        exact hpassed
      · refine ⟨⟨_, List.find?_cons_of_pos (beq_self_eq_true _), rfl, rfl, rfl⟩, ?_,
          ⟨_, scratch?_withScratch_self, ?_, rfl⟩⟩
        · show (0 : Int) ≤ draft.size
          omega
        · rw [Blob.size_ofZeros]
          omega
    · rw [Attempt.exec_bind_eq_ok] at hopen
      obtain ⟨_, _, -, hopen⟩ := hopen
      cases hopen

/-! ### Appending -/

theorem joined_append (chunks : List ByteArray) (chunk : ByteArray) :
    joined (chunks ++ [chunk]) = joined chunks ++ chunk.data.toList := by
  rw [joined, joined, List.flatMap_append, List.flatMap_singleton]

/-- Writing behind what is there leaves it and puts the new bytes behind it. -/
theorem write_behind {content : Blob} {start : List UInt8} (bytes : ByteArray)
    (hstart : content.toList.take start.length = start)
    (hfits : start.length + bytes.size ≤ content.size) :
    (content.write start.length bytes).size = content.size
      ∧ (content.write start.length bytes).toList.take start.length = start
      ∧ (content.write start.length bytes).toList.take (start.length + bytes.size)
        = start ++ bytes.data.toList := by
  have hwrite := @Blob.toList_write content start.length bytes (by omega)
  rw [hstart] at hwrite
  have hlength : (start ++ bytes.data.toList).length = start.length + bytes.size := by
    rw [List.length_append, Blob.length_head]
  refine ⟨Blob.size_write hfits, ?_, ?_⟩
  · rw [hwrite, List.append_assoc, List.take_left]
  · rw [hwrite, ← hlength, List.take_left]

/-- Only the session, the looks at the clock and the scratch file at the path matter. -/
theorem HasReceived.of_same (h : HasReceived id path size chunks s)
    (hrow : t.database.session? id = s.database.session? id)
    (hfile : t.scratch? path = s.scratch? path) : HasReceived id path size chunks t := by
  obtain ⟨row, fits, file⟩ := h
  exact ⟨hrow ▸ row, fits, hfile ▸ file⟩

/-- The change of a session is seen where the session is looked up. -/
theorem find?_changeSession {rows : List Session} {session : Session} {condition : Session → Bool}
    {change : Session → Session} (hfind : rows.find? (·.id == id) = some session)
    (hcondition : condition session = true) (hid : ∀ row, (change row).id = row.id) :
    (rows.map fun row => if row.id == id && condition row then change row else row).find?
      (·.id == id) = some (change session) := by
  have hmem : (session.id == id) = true :=
    List.find?_some (p := fun row : Session => row.id == id) hfind
  have hkeeps : ∀ row : Session,
      (if row.id == id && condition row then change row else row).id = row.id := by
    intro row
    split
    · exact hid row
    · rfl
  rw [find?_map_of_keeps hkeeps, hfind, Option.map_some, if_pos (by rw [hmem, hcondition]; rfl)]

/-- A chunk that has been written behind the others does not count yet; it does as soon as the
session says so. -/
theorem HasReceived.write (h : HasReceived id path size chunks s) (chunk : ByteArray)
    (hroom : ((joined chunks).length : Int) + chunk.size ≤ size) :
    ∃ s₁, (writeScratchAt path (joined chunks).length chunk).exec s = (.ok (), s₁)
      ∧ s₁.database = s.database ∧ HasReceived id path size chunks s₁
      ∧ ∀ t session, t.scratch? path = s₁.scratch? path → t.database.session? id = some session →
        session.target = .scratch path → session.size = size →
        session.received = ((joined chunks).length : Int) + chunk.size →
        HasReceived id path size (chunks ++ [chunk]) t := by
  obtain ⟨row, fits, content, hfile, hlength, hstart⟩ := h
  obtain ⟨hsize, hkept, hbehind⟩ := write_behind chunk hstart (by omega)
  refine ⟨s.withScratch path (.file (content.write (joined chunks).length chunk)), ?_, rfl,
    ⟨row, fits, _, scratch?_withScratch_self, by rw [hsize]; exact hlength, hkept⟩, ?_⟩
  · rw [writeScratchAt, Attempt.exec_atomic, hfile]
  · intro t session hscratch hfind htarget hsession hreceived
    have hall : ((joined (chunks ++ [chunk])).length : Int)
        = (joined chunks).length + chunk.size := by
      rw [joined_append, List.length_append, Blob.length_head, Int.natCast_add]
    refine ⟨⟨session, hfind, htarget, hsession, by rw [hall]; exact hreceived⟩, by omega,
      _, hscratch.trans scratch?_withScratch_self, by rw [hsize]; exact hlength, ?_⟩
    rw [joined_append, List.length_append, Blob.length_head]
    exact hbehind

/-- What becomes of a chunk that is sent for an upload. -/
def HasTaken (id path : String) (size : Int) (chunks : List ByteArray) (chunk : ByteArray) :
    Except Error Progress × State → Prop
  | (.ok _, t) => HasReceived id path size (chunks ++ [chunk]) t
  | (.error e, t) => HasReceived id path size chunks t
    ∧ ∀ expected current, e = .offsetMismatch expected current → current = (joined chunks).length

/-- **A chunk that is accepted is put behind the others; one that is rejected changes nothing**, and
a complaint about the offset tells how much has been received. -/
theorem appendChunk_spec (h : HasReceived id path size chunks s) (viewer : Viewer) (offset : Int)
    (chunk : ByteArray) :
    HasTaken id path size chunks chunk ((appendChunk viewer id offset chunk).exec s) := by
  obtain ⟨session, hfind, htarget, hsize, hreceived⟩ := h.row
  rw [appendChunk]
  rcases ownSession_spec viewer id s with ⟨own, hown, hfind', -⟩ | ⟨e, hown, he⟩
  · rw [hfind] at hfind'
    cases hfind'
    rw [Attempt.exec_bind_of_ok hown, htarget]
    dsimp only
    split
    · refine ⟨h, fun expected current he => ?_⟩
      cases he
      exact hreceived
    · rename_i hoffset
      split
      · exact ⟨h, fun _ _ => Error.noConfusion⟩
      · split
        · exact ⟨h, fun _ _ => Error.noConfusion⟩
        · rename_i hbeyond
          rw [not_not.mp hoffset, hreceived, hsize] at hbeyond
          rw [not_not.mp hoffset, hreceived, Int.toNat_natCast]
          obtain ⟨s₁, hwrite, hdatabase, hkept, htaken⟩ := h.write chunk (by omega)
          rw [Attempt.exec_bind_of_ok hwrite]
          rcases hadvance : (transactNow (Database.advanceSession id (joined chunks).length
            ((joined chunks).length + chunk.size))).exec s₁ with ⟨e | isDone, s₂⟩
          · obtain ⟨time, hrun, rfl⟩ := exec_transactNow_error hadvance
            rw [Attempt.exec_bind_of_error hadvance, Database.run_changeSession_error hrun]
            exact ⟨hkept.of_same rfl rfl, fun _ _ => Error.noConfusion⟩
          · obtain ⟨time, d, hrun, rfl⟩ := exec_transactNow_ok hadvance
            rw [Attempt.exec_bind_of_ok hadvance]
            rcases Database.run_changeSession hrun with ⟨rfl, rfl⟩ | ⟨rfl, rfl⟩
            · have hagain : (query (·.session? id)).exec
                  { s₁ with looks := s₁.looks + 1, database := s₁.database }
                    = (.ok (some session), { s₁ with looks := s₁.looks + 1 }) := by
                rw [← hfind, ← hdatabase]
                rfl
              rw [if_neg Bool.false_ne_true, Attempt.exec_bind_of_ok hagain]
              refine ⟨hkept.of_same rfl rfl, fun expected current he => ?_⟩
              cases he
              exact hreceived
            · exact htaken _ { session with received := _, updated := time } rfl
                (find?_changeSession (hdatabase ▸ hfind) (beq_iff_eq.mpr hreceived) fun _ => rfl)
                htarget hsize rfl
  · rw [Attempt.exec_bind_of_error hown]
    exact ⟨h, fun expected current hmismatch => absurd hmismatch (he expected current)⟩

/-! ### Any number of chunks -/

/-- A chunk that somebody sends, and the offset where it is to go. -/
structure ChunkRequest where
  viewer : Viewer
  offset : Int
  chunk : ByteArray

/-- Sends a chunk, and keeps it if it is accepted. -/
def sendChunk (id : String) (run : List ByteArray × State) (r : ChunkRequest) :
    List ByteArray × State :=
  match (appendChunk r.viewer id r.offset r.chunk).exec run.2 with
  | (.ok _, t) => (run.1 ++ [r.chunk], t)
  | (.error _, t) => (run.1, t)

/-- Sends chunks one after the other; gives those that are accepted, and the state after all. -/
def sendChunks (id : String) (s : State) (requests : List ChunkRequest) : List ByteArray × State :=
  requests.foldl (sendChunk id) ([], s)

theorem hasReceived_sendChunk (h : HasReceived id path size chunks s) (r : ChunkRequest) :
    HasReceived id path size (sendChunk id (chunks, s) r).1 (sendChunk id (chunks, s) r).2 := by
  have hspec := appendChunk_spec h r.viewer r.offset r.chunk
  rw [sendChunk]
  dsimp only
  rcases hexec : (appendChunk r.viewer id r.offset r.chunk).exec s with ⟨e | progress, t⟩
  · rw [hexec] at hspec
    exact hspec.1
  · rw [hexec] at hspec
    exact hspec

theorem hasReceived_foldl {run : List ByteArray × State} (h : HasReceived id path size run.1 run.2)
    (requests : List ChunkRequest) :
    HasReceived id path size (requests.foldl (sendChunk id) run).1
      (requests.foldl (sendChunk id) run).2 := by
  induction requests generalizing run with
  | nil => exact h
  | cons r requests ih => exact ih (hasReceived_sendChunk h r)

/-- **An upload has received the chunks that were accepted**, whatever else was sent. -/
theorem hasReceived_sendChunks (h : HasReceived id path size [] s) (requests : List ChunkRequest) :
    HasReceived id path size (sendChunks id s requests).1 (sendChunks id s requests).2 :=
  hasReceived_foldl h requests

/-! ### Completing -/

theorem countAt_ne_zero {d : Database} {a : Attachment} (ha : a ∈ d.attachments) :
    d.countAt a.storage a.storageKey ≠ 0 := by
  intro hzero
  have hnone := List.countP_eq_zero.mp hzero a ha
  rw [Database.isStoredAt, beq_self_eq_true, beq_self_eq_true] at hnone
  exact hnone rfl

theorem checkReceived_spec {session : Session} {received : Int} {u : Unit}
    (h : (checkReceived session received).exec s = (.ok u, t)) :
    received = session.size ∧ t = s := by
  rw [checkReceived] at h
  split at h
  · cases h
  · rename_i hsame
    cases h
    exact ⟨not_not.mp hsame, rfl⟩

theorem readScratch_spec {content found : Blob} (hfile : s.scratch? path = some (.file content))
    (h : (readScratch path).exec s = (.ok found, t)) : found = content ∧ t = s := by
  rw [readScratch] at h
  rw [Attempt.exec_bind_eq_ok] at h
  obtain ⟨entry, s₁, hlook, h⟩ := h
  cases hlook
  dsimp only [id] at h
  rw [hfile] at h
  cases h
  exact ⟨rfl, rfl⟩

theorem countAt_of_holdings (h : t.holdings = s.holdings) (kind : Kind) (key : String) :
    t.database.countAt kind key = s.database.countAt kind key := by
  have hattachments : t.database.attachments = s.database.attachments :=
    congrArg Holdings.attachments h
  rw [Database.countAt, Database.countAt, hattachments]

/-- What is gathered from a scratch file is its content: it has the declared size, its digest is
that of the content, and if no attachment has an object at the key, the object is the content. -/
theorem gatherScratch_spec {session : Session} {setting : Setting} {content : Blob} {g : Gathered}
    (hfile : s.scratch? path = some (.file content))
    (h : (gatherScratch session setting path).exec s = (.ok g, t)) :
    (content.size : Int) = session.size ∧ session.received = session.size
      ∧ g.hash = sha256Hex content.bytes
      ∧ (s.database.countAt g.backend.kind g.key = 0 →
        ∃ found, t.object? g.backend.kind g.key = some found ∧ found.toList = content.toList) := by
  rw [gatherScratch] at h
  rw [Attempt.exec_bind_eq_ok] at h
  obtain ⟨_, s₁, hcheck, h⟩ := h
  obtain ⟨hreceived, rfl⟩ := checkReceived_spec hcheck
  rw [Attempt.exec_bind_eq_ok] at h
  obtain ⟨found, s₂, hread, h⟩ := h
  obtain ⟨rfl, rfl⟩ := readScratch_spec hfile hread
  rw [Attempt.exec_bind_eq_ok] at h
  obtain ⟨_, s₃, hcheck', h⟩ := h
  obtain ⟨hsize, rfl⟩ := checkReceived_spec hcheck'
  dsimp only at h
  rw [Attempt.exec_bind_eq_ok] at h
  obtain ⟨b, s₄, hb, h⟩ := h
  have hheld := holdings_of_exec (backendForNew_quiet setting) hb
  rw [Attempt.exec_bind_eq_ok] at h
  obtain ⟨reused, s₅, hreused, h⟩ := h
  have hheld' := (holdings_of_exec (reusableKey_quiet _ _ _) hreused).trans hheld
  cases reused with
  | some key =>
    cases h
    refine ⟨hsize, hreceived, rfl, fun hzero => ?_⟩
    obtain ⟨-, a, ha, -, hkind, hkey, -⟩ := reusableKey_spec hreused
    refine absurd ?_ (countAt_ne_zero ha)
    rw [hkind, hkey, countAt_of_holdings hheld]
    exact hzero
  | none =>
    rw [Attempt.exec_bind_eq_ok] at h
    obtain ⟨key, s₆, hkey, h⟩ := h
    have hheld'' := (holdings_of_exec (allocateKey_quiet _ _) hkey).trans hheld'
    rw [Attempt.exec_bind_eq_ok] at h
    obtain ⟨stream, s₇, hstream, h⟩ := h
    obtain ⟨rfl, rfl⟩ := readScratch_spec ((scratch?_of_holdings hheld'' path).trans hfile) hstream
    rw [Attempt.exec_bind_eq_ok] at h
    obtain ⟨n, s₈, hput, h⟩ := h
    cases h
    obtain ⟨-, found, hfound, hsame⟩ := putStream_spec hput
    exact ⟨hsize, hreceived, rfl, fun _ => ⟨found, hfound, hsame (by omega)⟩⟩

theorem discardScratch_sparing (session : Session) (key : String) :
    (discardScratch session).Within (Footprint.sparing key) := by
  have hthumbnail : (releaseThumbnail session).Within (Footprint.sparing key) := by
    rw [releaseThumbnail]
    split
    · exact removeScratch_sparing _ key
    · exact .pure _
  rw [discardScratch]
  split
  · exact .bind (removeScratch_sparing _ key).tolerate fun _ => hthumbnail.tolerate
  · exact hthumbnail.tolerate

/-- An object is there after its row has been added. -/
theorem object?_insertAttachment {b : Backend} {a a' : Attachment} {isFresh : Bool}
    (h : (insertAttachment b a isFresh).exec s = (.ok a', t)) (kind : Kind) (key : String) :
    t.object? kind key = s.object? kind key := by
  obtain ⟨-, hholdings, -⟩ := insertAttachment_spec h
  rw [State.object?, hholdings]
  rfl

/-- The attachment of a completed session is that of what has been gathered, and the object stays
while the rest is done. -/
theorem completeSession_gathered {viewer : Viewer} {session : Session} {a : Attachment}
    (hown : (ownSession viewer id).exec s = (.ok session, s))
    (h : (completeSession viewer id).exec s = (.ok a, t)) :
    ∃ (setting : Setting) (g : Gathered) (s₁ s₂ : State), s₁.holdings = s.holdings
      ∧ (gather session setting).exec s₁ = (.ok g, s₂)
      ∧ a.size = session.size ∧ a.contentHash = g.hash ∧ a.storage = g.backend.kind
      ∧ a.storageKey = g.key
      ∧ ∀ content, s₂.object? g.backend.kind g.key = some content →
        t.object? g.backend.kind g.key = some content := by
  rw [completeSession] at h
  rw [Attempt.exec_bind_of_ok hown, Attempt.exec_bind_eq_ok] at h
  obtain ⟨setting, s₁, hsetting, h⟩ := h
  rw [Attempt.exec_bind_eq_ok] at h
  obtain ⟨memo, s₂, hmemo, h⟩ := h
  rw [Attempt.exec_bind_eq_ok] at h
  obtain ⟨g, s₃, hgather, h⟩ := h
  rw [Attempt.exec_bind_eq_ok] at h
  obtain ⟨row, s₄, hinsert, h⟩ := h
  rw [Attempt.exec_bind_eq_ok] at h
  obtain ⟨source, s₅, hsource, h⟩ := h
  rw [Attempt.exec_bind_eq_ok] at h
  obtain ⟨row', s₆, hthumbnail, h⟩ := h
  rw [Attempt.exec_bind_eq_ok] at h
  obtain ⟨_, s₇, hdelete, h⟩ := h
  rw [Attempt.exec_bind_eq_ok] at h
  obtain ⟨_, s₈, hdiscard, h⟩ := h
  cases h
  have hheld : s₂.holdings = s.holdings :=
    (holdings_of_exec (memoLink_quiet _ _) hmemo).trans
      (holdings_of_exec storageSetting_quiet hsetting)
  obtain ⟨⟨uid, time, hrow⟩, -⟩ := insertAttachment_spec hinsert
  obtain ⟨thumbnail, hresult⟩ := withThumbnail_exec row setting source s₅
  have hrow' : a = { row with thumbnail := thumbnail } := by
    rw [hthumbnail] at hresult
    exact Except.ok.inj hresult
  refine ⟨setting, g, s₂, s₃, hheld, hgather, ?_, ?_, ?_, ?_, fun content hobject => ?_⟩
  · rw [hrow', hrow]
    rfl
  · rw [hrow', hrow]
    rfl
  · rw [hrow', hrow]
    rfl
  · rw [hrow', hrow]
    rfl
  · have hkey : row.storageKey = g.key := by
      rw [hrow]
      rfl
    have hthere : s₄.object? g.backend.kind g.key = some content := by
      rw [object?_insertAttachment hinsert]
      exact hobject
    have hrest : (Footprint.sparing (Filename.thumbnailKey g.key)).rel s₄ t := by
      refine Footprint.trans _
        ((quiet_sparing (pictureSource_quiet session) _).of_exec hsource) ?_
      refine Footprint.trans _
        (hkey ▸ (withThumbnail_sparing row setting source).of_exec hthumbnail) ?_
      exact Footprint.trans _ ((transact_sparing _ _).of_exec hdelete)
        ((discardScratch_sparing session _).of_exec hdiscard)
    exact hrest _ _ _ (apart_thumbnailKey hthere) hthere

/-- **A completed upload is the chunks that were accepted**: they are as many bytes as declared, the
digest is theirs, and if no attachment had an object at the key, the object is theirs too. -/
theorem completeSession_spec {viewer : Viewer} {a : Attachment}
    (h : HasReceived id path size chunks s)
    (hdone : (completeSession viewer id).exec s = (.ok a, t)) :
    ((joined chunks).length : Int) = size ∧ a.size = size
      ∧ a.contentHash = sha256Hex ⟨(joined chunks).toArray⟩
      ∧ (s.database.countAt a.storage a.storageKey = 0 →
        ∃ object, t.object? a.storage a.storageKey = some object
          ∧ object.toList = joined chunks) := by
  obtain ⟨⟨session, hfind, htarget, hsize, hreceived⟩, hfits, content, hfile, hlength, hstart⟩ := h
  rcases ownSession_spec viewer id s with ⟨own, hown, hfind', -⟩ | ⟨e, hown, -⟩
  · rw [hfind] at hfind'
    cases hfind'
    obtain ⟨setting, g, s₁, s₂, hheld, hgather, hasize, hhash, hkind, hkey, hstays⟩ :=
      completeSession_gathered hown hdone
    rw [gather, htarget] at hgather
    obtain ⟨-, hall, hdigest, hobject⟩ :=
      gatherScratch_spec ((scratch?_of_holdings hheld path).trans hfile) hgather
    have hcount : (joined chunks).length = content.toList.length := by
      rw [Blob.length_toList]
      omega
    have hcontent : content.toList = joined chunks := by
      rw [← hstart, hcount, List.take_length]
    refine ⟨by omega, hasize.trans hsize, ?_, fun hzero => ?_⟩
    · rw [hhash, hdigest, ← hcontent, ← Blob.data_bytes, Array.toArray_toList]
    · rw [hkind, hkey] at hzero ⊢
      rw [← countAt_of_holdings hheld] at hzero
      obtain ⟨found, hfound, hsame⟩ := hobject hzero
      exact ⟨found, hstays found hfound, hsame.trans hcontent⟩
  · rw [completeSession] at hdone
    rw [Attempt.exec_bind_of_error hown] at hdone
    cases hdone

/-- **An upload in chunks keeps what it was sent.** After any number of requests, whoever made them
and whatever they held, the session counts the bytes of the accepted chunks, and the scratch file,
of the declared size, starts with them. A chunk that is rejected then changes neither, and an
attachment that is made then is the accepted chunks: its digest is theirs, and so is its object,
unless one was there for another attachment before. -/
theorem upload_in_chunks {viewer : Viewer} {draft : SessionDraft} {ticket : Ticket} {s₀ s₁ : State}
    (hmishap : s₀.database.mishap? .session .insert ≠ some .passes)
    (hopen : (createSession viewer draft).exec s₀ = (.ok ticket, s₁))
    (htarget : ticket.session.target = .scratch path) (requests : List ChunkRequest) :
    let id := ticket.session.id
    let accepted := (sendChunks id s₁ requests).1
    let s := (sendChunks id s₁ requests).2
    HasReceived id path draft.size accepted s
      ∧ (∀ (r : ChunkRequest) (e : Error) (t : State),
        (appendChunk r.viewer id r.offset r.chunk).exec s = (.error e, t) →
          HasReceived id path draft.size accepted t
            ∧ ∀ expected current, e = .offsetMismatch expected current →
              current = (joined accepted).length)
      ∧ ∀ (viewer : Viewer) (a : Attachment) (t : State),
        (completeSession viewer id).exec s = (.ok a, t) →
          ((joined accepted).length : Int) = draft.size ∧ a.size = draft.size
            ∧ a.contentHash = sha256Hex ⟨(joined accepted).toArray⟩
            ∧ (s.database.countAt a.storage a.storageKey = 0 →
              ∃ object, t.object? a.storage a.storageKey = some object
                ∧ object.toList = joined accepted) := by
  intro id accepted s
  have h : HasReceived id path draft.size accepted s :=
    hasReceived_sendChunks (hasReceived_createSession hmishap hopen htarget) requests
  refine ⟨h, fun r e t hrejected => ?_, fun viewer a t hdone => completeSession_spec h hdone⟩
  have hspec := appendChunk_spec h r.viewer r.offset r.chunk
  rwa [hrejected] at hspec

/-- Does a user who opens an upload and sends chunks get an attachment of the bytes? -/
def isUploaded (user : UserId) (draft : SessionDraft) (s : State) (id path : String)
    (requests : List ChunkRequest) (bytes : List UInt8) : Bool :=
  match (createSession (some user) draft).exec s with
  | (.ok ticket, s₁) =>
    ticket.session.id == id && ticket.session.target == .scratch path
      && joined (sendChunks id s₁ requests).1 == bytes
      && ((completeSession (some user) id).exec (sendChunks id s₁ requests).2).1.isOk
  | _ => false

theorem exists_of_isUploaded (id path : String) (requests : List ChunkRequest)
    (bytes : List UInt8) {user : UserId} {draft : SessionDraft}
    (h : isUploaded user draft s id path requests bytes = true) :
    ∃ ticket s₁, (createSession (some user) draft).exec s = (.ok ticket, s₁)
      ∧ ticket.session.id = id ∧ ticket.session.target = .scratch path
      ∧ joined (sendChunks id s₁ requests).1 = bytes
      ∧ ∃ a t,
        (completeSession (some user) id).exec (sendChunks id s₁ requests).2 = (.ok a, t) := by
  rw [isUploaded] at h
  split at h
  · rename_i ticket s₁ hopen
    simp only [Bool.and_eq_true, beq_iff_eq] at h
    obtain ⟨⟨⟨hid, htarget⟩, hjoined⟩, hdone⟩ := h
    refine ⟨ticket, s₁, hopen, hid, htarget, hjoined, ?_⟩
    rcases hexec : (completeSession (some user) id).exec (sendChunks id s₁ requests).2
      with ⟨e | a, t⟩
    · rw [hexec] at hdone
      cases hdone
    · exact ⟨a, t, rfl⟩
  · cases h

/-- Three bytes in two chunks: the first is sent twice, and another user sends a byte in between. -/
theorem upload_in_chunks_threeBytes :
    ∃ ticket s₁ path, (createSession (some 7) ⟨"notes.txt", none, 3, none⟩).exec numberedServer
        = (.ok ticket, s₁)
      ∧ let id := Text.showPadded Limit.sessionIdLength 0
        let run := sendChunks id s₁ [⟨some 7, 0, ⟨#[1, 2]⟩⟩, ⟨some 7, 0, ⟨#[1, 2]⟩⟩,
          ⟨some 8, 2, ⟨#[9]⟩⟩, ⟨some 7, 2, ⟨#[3]⟩⟩]
        ticket.session.id = id ∧ HasReceived id path 3 run.1 run.2 ∧ joined run.1 = [1, 2, 3]
          ∧ ∃ a t, (completeSession (some 7) id).exec run.2 = (.ok a, t)
            ∧ a.contentHash = sha256Hex ⟨#[1, 2, 3]⟩ := by
  obtain ⟨ticket, s₁, hopen, hid, htarget, hjoined, a, t, hdone⟩ :=
    exists_of_isUploaded (Text.showPadded Limit.sessionIdLength 0)
      (scratchPath "uploads" (Text.showPadded Limit.sessionIdLength 0) ".part")
      [⟨some 7, 0, ⟨#[1, 2]⟩⟩, ⟨some 7, 0, ⟨#[1, 2]⟩⟩, ⟨some 8, 2, ⟨#[9]⟩⟩,
        ⟨some 7, 2, ⟨#[3]⟩⟩] [1, 2, 3]
      (by decide +kernel : isUploaded 7 ⟨"notes.txt", none, 3, none⟩ numberedServer _ _ _ _ = true)
  have hall := upload_in_chunks (by decide) hopen htarget
    [⟨some 7, 0, ⟨#[1, 2]⟩⟩, ⟨some 7, 0, ⟨#[1, 2]⟩⟩, ⟨some 8, 2, ⟨#[9]⟩⟩, ⟨some 7, 2, ⟨#[3]⟩⟩]
  simp only [hid] at hall
  have hhash := (hall.2.2 (some 7) a t hdone).2.2.1
  rw [hjoined] at hhash
  exact ⟨ticket, s₁, _, hopen, hid, hall.1, hjoined, a, t, hdone, hhash⟩

end SharedMemos.Server
