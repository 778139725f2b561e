import SharedMemos.Proofs.Attachment.Range
import SharedMemos.Proofs.Server.Objects
import SharedMemos.Server.Api

/-!
# Downloads by range

A range goes through three hands. It is resolved against the recorded size, the store is asked for
the bytes from the first to the last, and the response tells how many they are and where they lie.
All three count in inclusive ends, and they agree as long as the recorded size is that of the object.

What is said here is said about the answer to a whole request, for a file in the directory of the
server. What the viewer may read, and which file it is, is settled before (`State.Offers`).

## Main definitions

* `Request.AsksRange` — the request for a file that has a range header
* `State.Offers` — what the viewer reads is a file in the directory, of the recorded size

## Main results

* `Disk.openRange_eq` — the bytes that the store gives
* `serve_range` — the answer to a request with a range
-/

namespace SharedMemos

open SharedMemos.Text SharedMemos.Storage SharedMemos.Http

/-! ### The store -/

namespace Storage.Disk

variable {t : Tree} {key : String} {content : Blob} {first last : Nat}

/-- **The bytes that the store gives** are those from the first to the last. -/
theorem openRange_eq (hopen : Disk.open t key = .ok content) (hle : first ≤ last)
    (hlast : last < maxInt64) :
    Disk.openRange t key first (some last) = .ok ((content.drop first).take (last - first + 1)) := by
  have hlength : (last - first + 1) % wordCount64 = last - first + 1 := by
    refine Nat.mod_eq_of_lt ?_
    simp only [maxInt64, wordCount64] at hlast ⊢
    omega
  have hnot : ¬ last < first := Nat.not_lt.mpr hle
  have hseek : ¬ maxInt64 < first := by omega
  simp only [openRange, Option.map_some, Option.getD_some, hnot, decide_false, hopen, hseek,
    hlength, Bool.false_eq_true, if_false]
  rfl

end Storage.Disk

/-- As many bytes are taken as there are from the first to the last. -/
theorem Blob.size_range {content : Blob} {first last : Nat} (hle : first ≤ last)
    (hlast : last < content.size) :
    ((content.drop first).take (last - first + 1)).size = last - first + 1 := by
  rw [size_take, ← length_toList, toList_drop, List.length_drop, length_toList]
  omega

namespace Server

open Attempt

/-! ### Handlers -/

section

variable {α β : Type} {s t : State} {f : α → Handler β}

theorem run_reading_bind {x : α} (f : α → Handler β) (s : State) :
    Job.run (ExceptT.run (reading (.ok x) >>= f)) s = Job.run (ExceptT.run (f x)) s := rfl

theorem run_perform_bind {a : Action α} {x : α} (h : a.exec s = (.ok x, t)) :
    Job.run (ExceptT.run (perform a >>= f)) s = Job.run (ExceptT.run (f x)) t := by
  show Job.run (Job.bind (Job.bind (ExceptT.run a) _) _) s = _
  rw [Job.run_bind, Job.run_bind, show Job.run (ExceptT.run a) s = (.ok x, t) from h]
  rfl

theorem run_perform_bind_error {a : Action α} {e : Error} (h : a.exec s = (.error e, t)) :
    Job.run (ExceptT.run (perform a >>= f)) s = (.error (failure e), t) := by
  show Job.run (Job.bind (Job.bind (ExceptT.run a) _) _) s = _
  rw [Job.run_bind, Job.run_bind, show Job.run (ExceptT.run a) s = (.error e, t) from h]
  rfl

end

end Server

/-! ### Requests -/

namespace Http

/-- A request for the file of an attachment that has a range header. -/
structure Request.AsksRange (r : Request) (viewer : Viewer) (uid : String) (q : FileQuery)
    (header : String) : Prop where
  method : r.method = "GET"
  route : ∃ part, Route.ofPath? r.path = some (.file part) ∧ pathText part = .ok uid
  viewer : r.viewer = .ok viewer
  form : r.form FileQuery.ofForm? = .ok q
  range : r.header? "range" = some header
  visible : isVisible header = true

/-- The value of a header of a response. -/
def Response.header? (r : Response) (name : String) : Option String :=
  (r.headers.find? (·.1 == name)).map (·.2)

/-- The response holds the bytes from the first to the last of a file, and tells how many they are
and where they lie. -/
structure Response.IsPartial (response : Response) (file : Blob) (first last : Nat) : Prop where
  status : response.status = 206
  body : ∃ sent : Blob, response.body = .file sent ∧ sent.size = last - first + 1
    ∧ sent.toList = (file.toList.drop first).take (last - first + 1)
  length : response.header? "content-length" = some (showNat (last - first + 1))
  range : response.header? "content-range"
    = some ("bytes " ++ showNat first ++ "-" ++ showNat last ++ "/" ++ showNat file.size)

end Http

namespace Server

open Attempt

section

variable {s t : State} {r : Request} {viewer : Viewer} {uid header : String} {q : FileQuery}
  {range : ByteRange} {a : Attachment} {content : Blob} {first last : Nat}

/-- The answer to a request for a file is what comes of opening it. -/
theorem serve_file (hask : r.AsksRange viewer uid q header)
    (hparse : ByteRange.parse header = .ok range) :
    serve r s
      = match (openAttachment viewer uid (some range) q.wantsThumbnail q.wantsRedirect).exec s with
        | (.ok download, t) => (downloadResponse download, t)
        | (.error e, t) => (failure e, t) := by
  obtain ⟨part, hroute, huid⟩ := hask.route
  have hhead : r.method ≠ "HEAD" := by
    rw [hask.method]
    decide
  have hrange : r.range = .ok (some range) := by
    rw [Request.range, hask.range]
    dsimp only
    rw [if_pos hask.visible, hparse]
    rfl
  have hanswer : answer r = handleDownload r part := by
    rw [answer, hroute]
    dsimp only
    rw [if_neg hhead, hask.method]
    rfl
  rw [serve, hanswer, handleDownload, hask.viewer, huid, hask.form, hrange]
  rw [run_reading_bind, run_reading_bind, run_reading_bind, run_reading_bind]
  rcases hopen : (openAttachment viewer uid (some range) q.wantsThumbnail q.wantsRedirect).exec s
    with ⟨e | download, t⟩
  · rw [run_perform_bind_error hopen]
    dsimp only
    rw [if_neg hhead]
  · rw [run_perform_bind hopen]
    show (if r.method = "HEAD" then _ else _, t) = _
    rw [if_neg hhead]

/-! ### Files of the server -/

/-- What the viewer reads, the attachment or its thumbnail, is a file in the directory of the
server, and its size is the recorded one. -/
structure State.Offers (s : State) (viewer : Viewer) (uid : String) (wantsThumbnail : Bool)
    (name contentType : String) (content : Blob) : Prop where
  attachment : ∃ a key, (getAttachment viewer uid).exec s = (.ok a, s) ∧ a.storage = .disk
    ∧ downloadSource a wantsThumbnail = (name, contentType, (content.size : Int), key)
    ∧ Disk.open s.disk key = .ok content
  setting : ∃ setting, (storageSetting.exec s).1 = .ok setting
  untied : s.resolver.isTied = false
  /-- The recorded size is a signed word. -/
  size : content.size ≤ maxInt64

/-- **A range of a file that is offered** is opened if it can be resolved; otherwise the complaint is
that of resolving it. -/
theorem openAttachment_range {name contentType : String}
    (hoffers : s.Offers viewer uid q.wantsThumbnail name contentType content)
    (hordered : range.IsOrdered) :
    ∃ t, (openAttachment viewer uid (some range) q.wantsThumbnail q.wantsRedirect).exec s
      = ((range.resolve content.size).map fun (first, last) =>
          .file name contentType content.size (some (first, last))
            ((content.drop first).take (last - first + 1)), t) := by
  obtain ⟨⟨a, key, hget, hkind, hsource, hopen⟩, ⟨setting, hsetting⟩, huntied, hsize⟩ := hoffers
  rcases hexec : storageSetting.exec s with ⟨result, t⟩
  rw [hexec] at hsetting
  subst hsetting
  have hholdings := holdings_of_exec storageSetting_quiet hexec
  have hdisk : t.disk = s.disk := congrArg Holdings.disk hholdings
  have htied : t.resolver.isTied = false := (congrArg Holdings.isTied hholdings).trans huntied
  have hstore : (backendFor a.storage setting).exec t = (.ok .disk, t) := by
    rw [backendFor, exec_atomic, hkind]
    simp only [Resolver.forKind, htied, Bool.false_eq_true, if_false]
  refine ⟨t, ?_⟩
  rw [openAttachment, exec_bind_of_ok hget, exec_bind_of_ok hexec, exec_bind_of_ok hstore, hsource]
  dsimp only
  rw [Backend.isDirect, Bool.and_false, if_neg Bool.false_ne_true, Int.toNat_natCast]
  rcases hresolve : range.resolve content.size with e | ⟨first, last⟩
  · rfl
  · obtain ⟨hle, hlast, -⟩ := ByteRange.resolve_spec hordered hresolve
    have hbytes : (Backend.openRange .disk key first (some last)).exec t
        = (.ok ((content.drop first).take (last - first + 1)), t) := by
      show (Disk.openRange t.disk key first (some last), t) = _
      rw [hdisk, Disk.openRange_eq hopen hle (by omega)]
    rw [exec_bind_of_ok (exec_ofExcept _ _)]
    dsimp only
    rw [exec_bind_of_ok hbytes]
    rfl

/-! ### Answers -/

theorem isPartial_downloadResponse (name contentType : String) (hle : first ≤ last)
    (hlast : last < content.size) :
    (downloadResponse (.file name contentType content.size (some (first, last))
      ((content.drop first).take (last - first + 1)))).IsPartial content first last where
  status := rfl
  body := ⟨_, rfl, Blob.size_range hle hlast, by rw [Blob.toList_take, Blob.toList_drop]⟩
  length := rfl
  range := by
    have hother : ∀ header value, header ≠ "content-range" →
        ∀ rest, (headerEntry header value ++ rest).find? (·.1 == "content-range")
          = rest.find? (·.1 == "content-range") := by
      intro header value hne rest
      rw [headerEntry]
      split
      · exact List.find?_cons_of_neg (by simpa using hne)
      · rfl
    rw [downloadResponse, Response.header?]
    dsimp only
    rw [List.append_assoc, List.append_assoc]
    show (List.find? _ (headerEntry _ _ ++ (headerEntry _ _ ++ _))).map _ = _
    rw [hother _ _ (by decide), hother _ _ (by decide)]
    rfl

/-- **The answer to a request with a range.** The range is the one that the header asks for, and its
bounds are words. If something of the file is asked for, the answer has exactly these bytes, and
says so; if not, it complains. Nothing on the way overflows. -/
theorem serve_range {name contentType : String} (hask : r.AsksRange viewer uid q header)
    (hoffers : s.Offers viewer uid q.wantsThumbnail name contentType content)
    (hparse : ByteRange.parse header = .ok range) :
    (ByteRange.IsWritten (trim header).toList range ∧ range.InWords)
      ∧ ((∃ e, range.resolve content.size = .error e) ↔ range.IsVain content.size)
      ∧ (range.IsVain content.size →
          (serve r s).1 = failure (.invalidInput (.rangeBeyondEnd content.size)))
      ∧ (∀ first last, range.resolve content.size = .ok (first, last) →
          first ≤ last ∧ last < content.size ∧ range.Selects content.size first last
            ∧ (serve r s).1.IsPartial content first last
            ∧ ByteRange.lengthInWords first last = some (last - first + 1))
      ∧ range.resolveInWords content.size = some (range.resolve content.size) := by
  have hwritten := ByteRange.parse_eq_ok_iff.mp hparse
  obtain ⟨t, hopen⟩ := openAttachment_range (q := q) hoffers hwritten.isOrdered
  have hserve := serve_file (s := s) hask hparse
  rw [hopen] at hserve
  refine ⟨⟨hwritten, hwritten.inWords⟩, ByteRange.resolve_eq_error_iff, fun hvain => ?_,
    fun first last hresolve => ?_, ByteRange.resolveInWords_eq _ _⟩
  · rw [hserve, ByteRange.resolve_of_isVain hvain]
    rfl
  · obtain ⟨hle, hlast, hselects⟩ := ByteRange.resolve_spec hwritten.isOrdered hresolve
    have hword := hoffers.size
    refine ⟨hle, hlast, hselects, ?_, ByteRange.lengthInWords_of_le hle ?_⟩
    · rw [hserve, hresolve]
      exact isPartial_downloadResponse name contentType hle hlast
    · simp only [maxInt64, maxNat64] at hword ⊢
      omega

/-- Five bytes. -/
def fiveBytes : Blob := .ofBytes ⟨#[1, 2, 3, 4, 5]⟩

/-- A server that keeps five bytes for a user. -/
def fiveByteServer : State :=
  let row := newAttachment 7 "five.bin" "text/plain" 5 "" .disk "five" none
  { numberedServer with
    database := { attachments := [{ row with uid := "n1" }] }
    disk := { files := [(["five"], fiveBytes)] } }

/-- The user asks for a part of them. -/
def fiveByteRequest (range : String) : Request where
  method := "GET"
  path := "/file/attachments/n1"
  query := ""
  headers := [("x-memos-user", "7"), ("range", range)]
  body := .empty

theorem fiveByteRequest_asksRange {range : String} (hvisible : isVisible range = true) :
    (fiveByteRequest range).AsksRange (some 7) "n1" ⟨false, false⟩ range where
  method := rfl
  route := ⟨"n1", show Route.ofPath? "/file/attachments/n1" = _ by decide +kernel, by rfl⟩
  viewer := by rfl
  form := by rfl
  range := rfl
  visible := hvisible

theorem fiveByteServer_offers :
    fiveByteServer.Offers (some 7) "n1" false "five.bin" "text/plain" fiveBytes where
  attachment := ⟨_, "five", rfl, rfl, rfl, by rfl⟩
  setting := ⟨_, rfl⟩
  untied := rfl
  size := by decide

/-- Two bytes from the end. -/
theorem serve_range_fiveBytes :
    (serve (fiveByteRequest "bytes=-2") fiveByteServer).1.IsPartial fiveBytes 3 4 := by
  have hvisible : isVisible "bytes=-2" = true := by decide +kernel
  have hparse : ByteRange.parse "bytes=-2" = .ok (.final 2) := by rfl
  obtain ⟨-, -, -, hanswer, -⟩ :=
    serve_range (fiveByteRequest_asksRange hvisible) fiveByteServer_offers hparse
  exact (hanswer 3 4 rfl).2.2.2.1

end

end Server

end SharedMemos
