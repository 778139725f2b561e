import SharedMemos.Proofs.Server.Keys
import SharedMemos.Proofs.Storage.Mirror
import SharedMemos.Server.Attachments

/-!
# Keys of files and of their thumbnails

The storage key of a file is a directory, a random name of a fixed length and the extension of the
file, and the key of its thumbnail has a mark behind that. Whatever the file is called, a few
letters, digits and points stand behind the random name, so that both keys lead to files right in
the directory, with names that every store takes (`IsKeyName.isPlain`).

Since all of them are files of one directory, none is on the way to another, and they are flat. A
thumbnail has two points of its own, more than the key of any file has, and so no file is ever in
the place of a thumbnail, even if its own name ends as that of a thumbnail does.

## Main definitions

* `IsKeyName` — random names as they are drawn for storage keys
* `keysOf` — the keys of a file and of its thumbnail
* `serverKeys` — those of all files and thumbnails that there can be
* `Path.Descends` — paths that only go down from the root

## Main results

* `freeKey_eq_ok` — keys that the server makes have this form
* `isFlat_serverKeys` — no key is in the way of another
* `storageKeys_apart` — keys lead below the root, and they do not clash
-/

namespace SharedMemos

open SharedMemos.Text SharedMemos.Storage SharedMemos.Server

/-- Every name of the path goes one step down from the root: none is missing, stays, goes back up or
is a path by itself. -/
def Storage.Path.Descends (p : Path) : Prop :=
  ∀ name ∈ p.names, name ≠ "" ∧ name ≠ "." ∧ name ≠ ".." ∧ '/' ∉ name.toList

/-- The key is a directory on the way to the other. -/
def Storage.IsAbove (key other : String) : Prop :=
  ∃ rest, other = key ++ "/" ++ rest

namespace Filename

variable {random random' rest key other : String}

/-- A random name as it is drawn for a storage key. -/
structure IsKeyName (random : String) : Prop where
  length_eq : random.length = Limit.keyLength
  all : ∀ c ∈ random.toList, isAsciiAlphanumeric c = true

theorem IsKeyName.isDrawn (h : IsKeyName random) : IsDrawn random where
  ne_empty := by
    rintro rfl
    exact absurd h.length_eq (by decide)
  all := h.all

/-- The keys of a file and of its thumbnail. -/
def keysOf (random name : String) : List String :=
  [storageKey random name, thumbnailKey (storageKey random name)]

/-! ### What stands behind a random name -/

/-- A few letters, digits and points. -/
structure IsEnding (rest : String) : Prop where
  length_le : rest.length ≤ 21
  all : ∀ c ∈ rest.toList, isAsciiAlphanumeric c = true ∨ c = '.'

theorem length_extension_le (name : String) : (extension name).length ≤ 11 := by
  rw [← String.length_toList]
  rcases extension_cases name with hempty | ⟨ending, hending, hlength, -⟩
  · rw [hempty]
    exact Nat.zero_le _
  · rw [hending]
    exact Nat.succ_le_succ hlength

theorem isEnding_extension (name : String) : IsEnding (extension name) where
  length_le := Nat.le_trans (length_extension_le name) (by decide)
  all := by
    rcases extension_cases name with hempty | ⟨ending, hending, -, hall⟩
    · rw [hempty]
      exact nofun
    · rw [hending]
      exact List.forall_mem_cons.mpr ⟨.inr rfl, fun c hc => .inl (hall c hc)⟩

theorem isEnding_thumbnail (name : String) : IsEnding (extension name ++ Limit.thumbnailMark) where
  length_le := by
    have hmark : Limit.thumbnailMark.length = 10 := by decide
    have hlength := length_extension_le name
    rw [String.length_append]
    omega
  all := by
    have hmark : ∀ c ∈ Limit.thumbnailMark.toList, isAsciiAlphanumeric c = true ∨ c = '.' := by
      simp [Limit.thumbnailMark, isAsciiAlphanumeric]
    rw [String.toList_append]
    exact List.forall_mem_append.mpr ⟨(isEnding_extension name).all, hmark⟩

/-! ### Keys as paths -/

/-- A key whose last name starts with a random name. -/
def keyWith (random rest : String) : String :=
  "attachments" ++ "/" ++ (random ++ rest)

theorem storageKey_eq (random name : String) :
    storageKey random name = keyWith random (extension name) := by
  rw [storageKey, keyWith, String.append_assoc]
  rfl

theorem thumbnailKey_eq (random name : String) : thumbnailKey (storageKey random name)
    = keyWith random (extension name ++ Limit.thumbnailMark) := by
  rw [thumbnailKey, storageKey_eq, keyWith, keyWith]
  simp only [String.append_assoc]

namespace IsKeyName

variable {c : Char}

/-- The last name of a key has no other characters. -/
theorem not_mem_append (h : IsKeyName random) (hrest : IsEnding rest)
    (hc : isAsciiAlphanumeric c = false) (hpoint : c ≠ '.') : c ∉ (random ++ rest).toList := by
  rw [String.toList_append, List.mem_append]
  refine not_or.mpr ⟨h.isDrawn.not_mem hc, fun hmem => ?_⟩
  rcases hrest.all c hmem with halphanumeric | hsame
  · exact ne_of_isAsciiAlphanumeric halphanumeric hc rfl
  · exact hpoint hsame

theorem isFile (h : IsKeyName random) (hrest : IsEnding rest) : IsFile (random ++ rest) := by
  refine h.isDrawn.isFile_append fun hmem => ?_
  refine h.not_mem_append hrest (c := '/') (by decide) (by decide) ?_
  rw [String.toList_append]
  exact List.mem_append_right _ hmem

theorem components_eq (h : IsKeyName random) (hrest : IsEnding rest) :
    components (keyWith random rest) = ["attachments", random ++ rest] :=
  (h.isFile hrest).splitOnChar_eq (by decide)

/-- The last name of a key is ASCII. -/
theorem utf8ByteSize_append (h : IsKeyName random) (hrest : IsEnding rest) :
    (random ++ rest).utf8ByteSize = random.length + rest.length := by
  have hascii : ∀ c ∈ (random ++ rest).toList, c.toNat ≤ 127 := by
    intro c hc
    by_contra hwide
    refine h.not_mem_append hrest ?_ ?_ hc
    · exact Bool.eq_false_iff.mpr fun halphanumeric =>
        hwide (Nat.le_trans (isAsciiAlphanumeric_bounds halphanumeric).2 (by decide))
    · rintro rfl
      exact hwide (by decide)
  rw [← byteSize_toList, byteSize_of_ascii hascii, String.length_toList, String.length_append]

/-- **Keys are plain**, those of thumbnails too. -/
theorem isPlain (h : IsKeyName random) (hrest : IsEnding rest) :
    IsPlain (keyWith random rest) := by
  have hsize := h.utf8ByteSize_append hrest
  have hlength : random.length = 24 := h.length_eq
  have hle := hrest.length_le
  refine ⟨?_, ?_, ?_⟩
  · rw [h.components_eq hrest]
    refine List.forall_mem_cons.mpr ⟨by decide, List.forall_mem_singleton.mpr ?_⟩
    have hlong : ∀ s : String, s.utf8ByteSize < 24 → random ++ rest ≠ s := by
      rintro s hs rfl
      omega
    exact ⟨hlong "" (by decide), hlong "." (by decide), hlong ".." (by decide),
      h.not_mem_append hrest (by decide) (by decide),
      h.not_mem_append hrest (by decide) (by decide)⟩
  · rw [h.components_eq hrest]
    exact List.forall_mem_singleton.mpr (by decide)
  · rw [h.components_eq hrest]
    intro name hname
    rw [List.getLast?_cons_cons, List.getLast?_singleton] at hname
    cases hname
    omega

end IsKeyName

/-- What stands behind the random name of a key. -/
theorem exists_of_mem_keysOf {name : String} (hkey : key ∈ keysOf random name) :
    ∃ rest, IsEnding rest ∧ key = keyWith random rest := by
  simp only [keysOf, List.mem_cons, List.not_mem_nil, or_false] at hkey
  rcases hkey with rfl | rfl
  · exact ⟨_, isEnding_extension name, storageKey_eq random name⟩
  · exact ⟨_, isEnding_thumbnail name, thumbnailKey_eq random name⟩

/-- The keys of all files and thumbnails that there can be. -/
def serverKeys : Set String :=
  {key | ∃ random name, IsKeyName random ∧ key ∈ keysOf random name}

theorem isPlain_of_mem_serverKeys (h : key ∈ serverKeys) :
    IsPlain key ∧ ∃ name, components key = ["attachments", name] := by
  obtain ⟨random, name, hrandom, hkey⟩ := h
  obtain ⟨rest, hrest, rfl⟩ := exists_of_mem_keysOf hkey
  exact ⟨hrandom.isPlain hrest, _, hrandom.components_eq hrest⟩

/-- **No key is in the way of another.** -/
theorem isFlat_serverKeys : IsFlat serverKeys where
  plain key hkey := (isPlain_of_mem_serverKeys hkey).1
  apart key hkey other hother hprefix := by
    obtain ⟨-, name, hname⟩ := isPlain_of_mem_serverKeys hkey
    obtain ⟨-, name', hname'⟩ := isPlain_of_mem_serverKeys hother
    refine hprefix.eq_of_length ?_
    rw [hname, hname']
    rfl

/-- A key leads below the root. -/
theorem exists_descends (h : key ∈ serverKeys) :
    ∃ p, Path.ofKey key = .ok p ∧ p.Descends := by
  obtain ⟨hplain, -⟩ := isPlain_of_mem_serverKeys h
  obtain ⟨p, hp, hnames, -⟩ := hplain.exists_path
  refine ⟨p, hp, fun name hname => ?_⟩
  rw [hnames] at hname
  obtain ⟨hempty, hpoint, hup, -⟩ := hplain.usable name hname
  obtain ⟨piece, hpiece, rfl⟩ := List.mem_map.mp hname
  refine ⟨hempty, hpoint, hup, fun hslash => ?_⟩
  rw [String.toList_ofList] at hslash
  exact (mem_of_mem_splitAt hpiece hslash).2 rfl

/-- A directory on the way has fewer names. -/
theorem not_isAbove (h : key ∈ serverKeys) (h' : other ∈ serverKeys) : ¬ IsAbove key other := by
  rintro ⟨rest, rfl⟩
  obtain ⟨-, name, hname⟩ := isPlain_of_mem_serverKeys h
  obtain ⟨-, name', hname'⟩ := isPlain_of_mem_serverKeys h'
  have hsplit : components (key ++ "/" ++ rest) = components key ++ components rest := by
    have hlist : (key ++ "/" ++ rest).toList = key.toList ++ '/' :: rest.toList := by
      simp [String.toList_append]
    rw [components, splitOnChar, hlist, splitAt_append_cons, List.map_append]
    rfl
  have hlength := congrArg List.length hname'
  rw [hsplit, hname, List.length_append] at hlength
  exact components_ne_nil rest (List.length_eq_zero_iff.mp (by simpa using hlength))

end Filename

/-! ### Keys that are made -/

namespace Server

/-- A key that the server makes is made of a name that it draws for it. -/
theorem freeKey_eq_ok {b : Backend} {filename key : String} {attempts : Nat} {s t : State}
    (h : (freeKey b filename attempts).exec s = (.ok key, t)) :
    ∃ draw, s.draws ≤ draw ∧ draw < t.draws
      ∧ key = Filename.storageKey (s.source.keyName draw) filename := by
  induction attempts generalizing s with
  | zero => cases h
  | succ attempts ih =>
    rw [freeKey, Attempt.exec_bind_eq_ok] at h
    obtain ⟨name, s₁, hdraw, h⟩ := h
    cases hdraw
    rw [Attempt.exec_bind_eq_ok] at h
    obtain ⟨isUsed, s₂, hquery, h⟩ := h
    cases hquery
    -- a name that is not taken is followed by another, drawn later
    have hlater : ∀ u : State, u.source = s.source → s.draws + 1 ≤ u.draws →
        (freeKey b filename attempts).exec u = (.ok key, t) →
        ∃ draw, s.draws ≤ draw ∧ draw < t.draws
          ∧ key = Filename.storageKey (s.source.keyName draw) filename := by
      intro u hsource hdraws hexec
      obtain ⟨draw, hfirst, hlast, hkey⟩ := ih hexec
      exact ⟨draw, by omega, hlast, by rw [hkey, hsource]⟩
    split at h
    · exact hlater { s with draws := s.draws + 1 } rfl (Nat.le_refl _) h
    · rw [Attempt.exec_bind_eq_ok] at h
      obtain ⟨isThere, u, hexists, h⟩ := h
      obtain ⟨hholdings, hdraws⟩ := (exists?_quiet b _).of_exec hexists
      split at h
      · exact hlater u (congrArg Holdings.source hholdings) hdraws h
      · cases h
        exact ⟨s.draws, Nat.le_refl _, hdraws, rfl⟩

end Server

namespace Filename

/-- **The keys of files and of their thumbnails do not clash**, whatever the files are called. The
server makes a key of a name that it draws and of the extension. Keys of files and of thumbnails
lead below the root of the directory; no file is in the place of a thumbnail; those with different
random names are different; and none is a directory on the way to another. -/
theorem storageKeys_apart (h : IsKeyName random) (h' : IsKeyName random') (name name' : String) :
    (∀ (b : Backend) (s t : State) (key : String), (allocateKey b name).exec s = (.ok key, t) →
        ∃ draw, s.draws ≤ draw ∧ draw < t.draws
          ∧ key = storageKey (s.source.keyName draw) name)
      ∧ (∀ key ∈ keysOf random name, ∃ p, Path.ofKey key = .ok p ∧ p.Descends)
      ∧ storageKey random name ≠ thumbnailKey (storageKey random' name')
      ∧ (random ≠ random' → storageKey random name ≠ storageKey random' name'
        ∧ thumbnailKey (storageKey random name) ≠ thumbnailKey (storageKey random' name'))
      ∧ (∀ key ∈ keysOf random name, ∀ other ∈ keysOf random' name', ¬ IsAbove key other)
      ∧ IsFlat serverKeys := by
  have hkeys : ∀ key ∈ keysOf random name, key ∈ serverKeys := fun key hkey => ⟨_, _, h, hkey⟩
  have hkeys' : ∀ key ∈ keysOf random' name', key ∈ serverKeys :=
    fun key hkey => ⟨_, _, h', hkey⟩
  have hkey : IsKey (storageKey random name) := ⟨_, _, h.isDrawn, rfl⟩
  have hkey' : IsKey (storageKey random' name') := ⟨_, _, h'.isDrawn, rfl⟩
  refine ⟨fun b s t key => freeKey_eq_ok, fun key hmem => exists_descends (hkeys key hmem),
    hkey'.thumbnail_apart hkey .bucket, fun hne => ?_,
    fun key hmem other hmem' => not_isAbove (hkeys key hmem) (hkeys' other hmem'),
    isFlat_serverKeys⟩
  have hdifferent : storageKey random name ≠ storageKey random' name' :=
    fun hsame => hne (storageKey_injective h.isDrawn h'.isDrawn hsame)
  exact ⟨hdifferent, fun hsame => hdifferent (thumbnailKey_injective hsame)⟩

/-- A file whose name ends as that of a thumbnail does, and one without an extension. -/
theorem storageKeys_apart_imitated :
    let random := "000000000000000000000000"
    let random' := "aaaaaaaaaaaa000000000001"
    let key := "attachments/000000000000000000000000.jpg"
    let key' := "attachments/aaaaaaaaaaaa000000000001"
    IsKeyName random ∧ IsKeyName random' ∧ random ≠ random'
      ∧ storageKey random "cat.thumb.JPG" = key ∧ storageKey random' ".jpg" = key'
      ∧ ((allocateKey .disk "cat.thumb.JPG").exec numberedServer).1 = .ok key
      ∧ (∃ draw, key = storageKey (numberedServer.source.keyName draw) "cat.thumb.JPG")
      ∧ (∃ p, Path.ofKey (thumbnailKey key) = .ok p ∧ p.Descends)
      ∧ key ≠ thumbnailKey key' ∧ key ≠ key' ∧ thumbnailKey key ≠ thumbnailKey key'
      ∧ ¬ IsAbove key (thumbnailKey key') := by
  intro random random' key key'
  have hrandom : IsKeyName random := ⟨by decide, List.all_eq_true.mp (by decide)⟩
  have hrandom' : IsKeyName random' := ⟨by decide, List.all_eq_true.mp (by decide)⟩
  have hne : random ≠ random' := by decide
  have hkey : storageKey random "cat.thumb.JPG" = key := by decide
  have hkey' : storageKey random' ".jpg" = key' := by decide
  have hmade : ((allocateKey .disk "cat.thumb.JPG").exec numberedServer).1 = .ok key := by rfl
  obtain ⟨hdrawn, hpaths, hthumbnail, hdifferent, habove, -⟩ :=
    storageKeys_apart hrandom hrandom' "cat.thumb.JPG" ".jpg"
  rw [hkey, hkey'] at hthumbnail hdifferent
  rw [keysOf, keysOf, hkey, hkey'] at habove
  rw [keysOf, hkey] at hpaths
  obtain ⟨draw, -, -, hdraw⟩ := hdrawn .disk numberedServer _ key (Prod.ext hmade rfl)
  exact ⟨hrandom, hrandom', hne, hkey, hkey', hmade, ⟨draw, hdraw⟩,
    hpaths _ (List.mem_cons_of_mem _ List.mem_cons_self), hthumbnail, (hdifferent hne).1,
    (hdifferent hne).2, habove _ List.mem_cons_self _ (List.mem_cons_of_mem _ List.mem_cons_self)⟩

end Filename

end SharedMemos
