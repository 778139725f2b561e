import SharedMemos.Proofs.Json.Record
import SharedMemos.Proofs.Memo.Tag
import SharedMemos.Upload.Target

/-!
# Targets of uploads read back

Three kinds of targets are written into one text, and nothing but a mark in front tells them apart.
No mark is the start of another, so that an object is read in the way it was written, whatever its
key is; the record of an object stored in parts is JSON, and it is read back whatever the texts in
it are. A scratch file has no mark: its path is taken for what it looks like.

So a target is read back unless it `IsMistaken`: its path starts with a mark, or nothing is written
at all where a path or a key is due.

## Main results

* `Target.readText_multipartRecord` — the record of an object stored in parts
* `Target.decode_encode_iff` — every target, read back exactly if it is not mistaken
-/

namespace SharedMemos.Upload.Target

open SharedMemos.Text SharedMemos.Json

/-! ### Marks -/

/-- Does the path start with one of the marks? -/
def IsMarked (path : String) : Prop :=
  directMark.toList <+: path.toList ∨ multipartMark.toList <+: path.toList

/-- Is the text of the target taken for something else? -/
def IsMistaken : Target → Prop
  | .scratch path => path = "" ∨ IsMarked path
  | .direct key => key = ""
  | .multipart .. => False

/-- The marks differ before the shorter one ends. -/
theorem after?_directMark_multipartMark (rest : List Char) :
    Tag.after? directMark.toList (multipartMark.toList ++ rest) = none := rfl

/-! ### Objects in a bucket -/

theorem decode_encode_direct {key : String} (hkey : key ≠ "") :
    decode (direct key).encode = .ok (.direct key) := by
  rw [encode, decode, String.toList_append, Tag.after?_append]
  split
  · rename_i hnil
    rw [Option.some.injEq, String.toList_eq_nil_iff] at hnil
    exact absurd hnil hkey
  · rename_i key' _ hsome
    cases hsome
    rw [String.ofList_toList]
  · rename_i hnone
    cases hnone

/-- The entries of an object stored in parts. -/
def entries (key uploadId : String) (partSize : Int) : List (String × Json) :=
  [("storage_key", .string key), ("upload_id", .string uploadId), ("part_size", .int partSize)]

section

variable (key uploadId : String) {partSize : Int}

theorem covers_entries (hlow : minInt64 ≤ partSize) (hhigh : partSize ≤ maxInt64) :
    Covers multipartRecord.fields (entries key uploadId partSize) where
  nodup := by
    change ["storage_key", "upload_id", "part_size"].Nodup
    decide
  passes := by
    simp only [entries, List.forall_mem_cons]
    refine ⟨⟨_, rfl, ?_⟩, ⟨_, rfl, ?_⟩, ⟨_, rfl, ?_⟩, List.forall_mem_nil _⟩
    · exact (reads_string key).passes _ _
    · exact (reads_string uploadId).passes _ _
    · exact (reads_int64 hlow hhigh).passes _ _

/-- **The record of an object stored in parts is read back**, whatever the texts in it are. -/
theorem readText_multipartRecord (hlow : minInt64 ≤ partSize) (hhigh : partSize ≤ maxInt64) :
    readText multipartRecord.read (Json.object (entries key uploadId partSize)).compress
      = .ok (.multipart key uploadId partSize) := by
  refine Record.readText_object (covers_entries key uploadId hlow hhigh) fun given hgiven => ?_
  refine Record.build_seq (Record.build_seq (Record.build_map _ ?_) ?_) ?_
  · exact Record.build_single hgiven (by simp [entries]) (reads_string key)
  · exact Record.build_single hgiven (by simp [entries]) (reads_string uploadId)
  · exact Record.build_single hgiven (by simp [entries]) (reads_int64 hlow hhigh)

theorem decode_encode_multipart (hlow : minInt64 ≤ partSize) (hhigh : partSize ≤ maxInt64) :
    decode (multipart key uploadId partSize).encode = .ok (.multipart key uploadId partSize) := by
  have hread := readText_multipartRecord key uploadId hlow hhigh
  rw [encode, decode, String.toList_append, after?_directMark_multipartMark, Tag.after?_append]
  dsimp only
  rw [entries] at hread
  rw [String.ofList_toList, hread]

end

/-- What is read of a record is an object stored in parts. -/
theorem of_readText_multipartRecord {text : String} {t : Target}
    (h : readText multipartRecord.read text = .ok t) :
    ∃ key uploadId partSize, t = .multipart key uploadId partSize := by
  obtain ⟨given, -, -, hbuild⟩ := Record.of_readText h
  obtain ⟨g, partSize, hg, rfl⟩ := Record.of_build_seq hbuild
  obtain ⟨g', uploadId, hg', rfl⟩ := Record.of_build_seq hg
  obtain ⟨key, rfl⟩ := Record.of_build_map hg'
  exact ⟨key, uploadId, partSize, rfl⟩

/-! ### Scratch files -/

theorem decode_encode_scratch {path : String} (hpath : path ≠ "") (hunmarked : ¬ IsMarked path) :
    decode (scratch path).encode = .ok (.scratch path) := by
  obtain ⟨hdirect, hmultipart⟩ := not_or.mp hunmarked
  rw [encode, decode, Tag.after?_eq_none hdirect, Tag.after?_eq_none hmultipart]
  exact if_neg hpath

/-- A marked path is never taken for that of a scratch file. -/
theorem decode_ne_scratch {text : String} (hmarked : IsMarked text) (path : String) :
    decode text ≠ .ok (.scratch path) := by
  intro h
  rw [decode] at h
  split at h
  · cases h
  · cases h
  · rename_i hdirect
    split at h
    · split at h
      · rename_i t hread
        obtain ⟨key, uploadId, partSize, rfl⟩ := of_readText_multipartRecord hread
        cases h
      · cases h
    · rename_i hmultipart
      rcases hmarked with ⟨rest, hrest⟩ | ⟨rest, hrest⟩
      · rw [← hrest, Tag.after?_append] at hdirect
        cases hdirect
      · rw [← hrest, Tag.after?_append] at hmultipart
        cases hmultipart

/-! ### All targets -/

/-- Is the size of the parts a signed 64-bit integer, if there is one? -/
def InRange : Target → Prop
  | .multipart _ _ partSize => minInt64 ≤ partSize ∧ partSize ≤ maxInt64
  | _ => True

/-- A mistaken target is read as another one, or not at all. -/
theorem decode_ne_of_isMistaken {t : Target} (h : t.IsMistaken) : decode t.encode ≠ .ok t := by
  cases t with
  | scratch path =>
    rcases h with rfl | hmarked
    · exact nofun
    · exact decode_ne_scratch hmarked path
  | direct key =>
    cases h
    exact nofun
  | multipart => cases h

theorem decode_encode_of_not_isMistaken {t : Target} (hrange : t.InRange) (h : ¬ t.IsMistaken) :
    decode t.encode = .ok t := by
  cases t with
  | scratch path =>
    obtain ⟨hpath, hunmarked⟩ := not_or.mp h
    exact decode_encode_scratch hpath hunmarked
  | direct key => exact decode_encode_direct h
  | multipart key uploadId partSize => exact decode_encode_multipart key uploadId hrange.1 hrange.2

/-- **A target is read back exactly if it is not mistaken.** What is read in another mode than it
was written in is a scratch file whose path starts with a mark. -/
theorem decode_encode_iff (t : Target) (hrange : t.InRange) :
    (decode t.encode = .ok t ↔ ¬ t.IsMistaken)
      ∧ ∀ t', decode t.encode = .ok t' → t'.mode ≠ t.mode →
        ∃ path, t = .scratch path ∧ IsMarked path := by
  have hback : decode t.encode = .ok t ↔ ¬ t.IsMistaken :=
    ⟨fun h hmistaken => decode_ne_of_isMistaken hmistaken h,
      decode_encode_of_not_isMistaken hrange⟩
  refine ⟨hback, fun t' h hmode => ?_⟩
  by_cases hmistaken : t.IsMistaken
  · cases t with
    | scratch path =>
      rcases hmistaken with rfl | hmarked
      · cases h
      · exact ⟨path, rfl, hmarked⟩
    | direct key =>
      cases hmistaken
      cases h
    | multipart => cases hmistaken
  · rw [hback.mpr hmistaken] at h
    cases h
    exact absurd rfl hmode

/-- Quotes, backslashes, controls and characters beyond the first plane, with the least size. -/
theorem decode_encode_iff_escaped :
    let t : Target := .multipart "a \"key\" \\ s3-direct:" "\x00\x1f\t\x7f\u2028😀" minInt64
    t.InRange ∧ (decode t.encode = .ok t ↔ ¬ t.IsMistaken)
      ∧ ∀ t', decode t.encode = .ok t' → t'.mode ≠ t.mode →
        ∃ path, t = .scratch path ∧ IsMarked path := by
  intro t
  have hrange : t.InRange := ⟨Int.le_refl _, by decide⟩
  exact ⟨hrange, decode_encode_iff t hrange⟩

/-- A path that looks like an object in a bucket is taken for it. -/
example : decode (scratch "s3-direct:key").encode = .ok (.direct "key") := rfl

end SharedMemos.Upload.Target
