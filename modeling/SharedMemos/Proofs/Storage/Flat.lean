import SharedMemos.Proofs.Storage.Mirror

/-!
# A directory serves as a map

A directory that is only used through plain keys none of which is in the way of another answers as a
map from keys to bytes would, whatever is asked of it and in whatever order (`serve_onTree`). The
tree and the map go on together: each operation has the same answer on both and leaves a tree that
mirrors the map (`Mirrors.onTree`), and the rest is induction on the list of operations.

An object goes through a temporary file whose name is drawn. As long as no key has to do with that
name, the trees are the same as without it.

## Main definitions

* `Operation` — what can be asked of a store, and `Operation.onTree`, `Operation.onMap`
* `serve` — operations one after the other
* `IsAside` — marks of temporary files that no key has to do with

## Main results

* `Mirrors.onTree` — an operation on the tree and on the map
* `Mirrors.onTreeBeside_eq` — temporary files make no difference
* `serve_onTree` — all operations
* `serve_onTree_fails` — reading from beyond what offsets can say
-/

namespace SharedMemos.Storage

open SharedMemos.Text

/-! ### Operations -/

/-- What can be asked of a store. -/
inductive Operation where
  | put (key : String) (content : Blob)
  | putStream (key : String) (stream : Blob) (declared : Nat)
  | «open» (key : String)
  | openRange (key : String) (first : Nat) (last : Option Nat)
  | delete (key : String)
  | exists? (key : String)

/-- What a store answers. -/
inductive Answer where
  | size (n : Nat)
  | content (bytes : List UInt8)
  | done
  | isThere (b : Bool)

namespace Operation

/-- The key that the operation is about. -/
def key : Operation → String
  | put key _ | putStream key _ _ | «open» key | openRange key _ _ | delete key | exists? key => key

/-- Sizes and ends of ranges are offsets that the system can say. -/
def IsBounded : Operation → Prop
  | putStream _ _ declared => declared ≤ maxInt64
  | openRange _ first (some last) => first ≤ last ∧ last ≤ maxInt64
  | _ => True

/-- The operation on a directory. -/
def onTree (op : Operation) (t : Tree) : Except Error Answer × Tree :=
  match op with
  | put key content => (Disk.put t key content).map (·.map .size) id
  | putStream key stream declared => (Disk.putStream t key stream declared).map (·.map .size) id
  | «open» key => ((Disk.open t key).map (.content ·.toList), t)
  | openRange key first last => ((Disk.openRange t key first last).map (.content ·.toList), t)
  | delete key => (Disk.delete t key).map (·.map fun _ => .done) id
  | exists? key => ((Disk.exists? t key).map .isThere, t)

/-- The operation on a directory, where a temporary file has the mark in its name. -/
def onTreeBeside (mark : String) (op : Operation) (t : Tree) : Except Error Answer × Tree :=
  match op with
  | put key content => (Disk.putBeside mark t key content).map (·.map .size) id
  | putStream key stream declared =>
    (Disk.putStreamBeside mark t key stream declared).map (·.map .size) id
  | op => op.onTree t

end Operation

/-- The operation on a map. -/
def Operation.onMap (op : Operation) (m : Objects) : Except Error Answer × Objects :=
  match op with
  | put key content => (.ok (.size content.size), Function.update m key (some content.toList))
  | putStream key stream declared =>
    if stream.size = declared then
      (.ok (.size declared), Function.update m key (some stream.toList))
    else (.error (Disk.sizeMismatch key declared (min stream.size (declared + 1))), m)
  | «open» key => ((m.find key).map .content, m)
  | openRange key first last =>
    ((m.find key).map fun bytes => .content (slice bytes first last), m)
  | delete key => (.ok .done, Function.update m key none)
  | exists? key => (.ok (.isThere (m key).isSome), m)

/-- Carries out operations one after the other; gives the answers and what is left. -/
def serve {σ ι : Type} (step : ι → σ → Except Error Answer × σ) (s : σ) :
    List ι → List (Except Error Answer) × σ
  | [] => ([], s)
  | op :: ops =>
    let (answer, t) := step op s
    let (answers, u) := serve step t ops
    (answer :: answers, u)

/-! ### The tree and the map go together -/

variable {key other : String} {keys : Set String} {t : Tree} {m : Objects} {p : Path} {mark : String}

namespace Mirrors

/-- **An operation has the same answer on the tree and on the map**, and both go on together. -/
theorem onTree (h : Mirrors keys t m) (hflat : IsFlat keys) {op : Operation} (hkey : op.key ∈ keys)
    (hbounded : op.IsBounded) (hfirst : ∀ key first, op = .openRange key first none →
      first ≤ maxInt64) :
    (op.onTree t).1 = (op.onMap m).1 ∧ Mirrors keys (op.onTree t).2 (op.onMap m).2 := by
  cases op with
  | put key content =>
    have hkey : key ∈ keys := hkey
    obtain ⟨u, hput, hu⟩ := h.put_eq hflat hkey content
    rw [Operation.onTree, hput]
    exact ⟨rfl, hu⟩
  | putStream key stream declared =>
    have hkey : key ∈ keys := hkey
    rw [Operation.onTree, Operation.onMap]
    by_cases hsize : stream.size = declared
    · obtain ⟨u, hput, hu⟩ := h.putStream_of_size hflat hkey hbounded hsize
      rw [if_pos hsize, hput]
      exact ⟨rfl, hu⟩
    · obtain ⟨u, hput, hu⟩ := h.putStream_of_ne hflat hkey hbounded hsize
      rw [if_neg hsize, hput]
      exact ⟨rfl, hu⟩
  | «open» key =>
    have hkey : key ∈ keys := hkey
    refine ⟨?_, h⟩
    rw [Operation.onTree, Operation.onMap, ← h.open_eq hflat hkey]
    cases Disk.open t key <;> rfl
  | openRange key first last =>
    have hkey : key ∈ keys := hkey
    have hordered : ∀ n, last = some n → first ≤ n ∧ n ≤ maxInt64 := by
      rintro n rfl
      exact hbounded
    have hreach : first ≤ maxInt64 := by
      cases last with
      | none => exact hfirst key first rfl
      | some n => exact Nat.le_trans hbounded.1 hbounded.2
    have hbytes := h.openRange_eq hflat hkey hordered hreach
    refine ⟨?_, h⟩
    calc (Disk.openRange t key first last).map (Answer.content ·.toList)
        = ((Disk.openRange t key first last).map Blob.toList).map .content := by
          cases Disk.openRange t key first last <;> rfl
      _ = ((m.find key).map (slice · first last)).map .content := by rw [hbytes]
      _ = (m.find key).map fun bytes => .content (slice bytes first last) := by
          cases m.find key <;> rfl
  | delete key =>
    have hkey : key ∈ keys := hkey
    obtain ⟨u, hdelete, hu⟩ := h.delete_eq hflat hkey
    rw [Operation.onTree, hdelete]
    exact ⟨rfl, hu⟩
  | exists? key =>
    have hkey : key ∈ keys := hkey
    refine ⟨?_, h⟩
    rw [Operation.onTree, h.exists?_eq hflat hkey]
    rfl

/-- **Objects at other keys are not touched.** -/
theorem open_onTree_of_ne (h : Mirrors keys t m) (hflat : IsFlat keys) {op : Operation}
    (hkey : op.key ∈ keys) (hbounded : op.IsBounded)
    (hfirst : ∀ key first, op = .openRange key first none → first ≤ maxInt64)
    (hother : other ∈ keys) (hne : other ≠ op.key) :
    (Disk.open (op.onTree t).2 other).map Blob.toList = (Disk.open t other).map Blob.toList := by
  have hmap : (op.onMap m).2 other = m other := by
    cases op with
    | put key content => exact Function.update_of_ne hne _ _
    | putStream key stream declared =>
      rw [Operation.onMap]
      split
      · exact Function.update_of_ne hne _ _
      · rfl
    | delete key => exact Function.update_of_ne hne _ _
    | _ => rfl
  rw [(h.onTree hflat hkey hbounded hfirst).2.open_eq hflat hother, h.open_eq hflat hother,
    Objects.find, Objects.find, hmap]

end Mirrors

/-! ### Many operations -/

/-- Two ways of serving that answer alike and go on together give the same answers. -/
theorem serve_congr {σ τ ι : Type} {step : ι → σ → Except Error Answer × σ}
    {step' : ι → τ → Except Error Answer × τ} {rel : σ → τ → Prop} {ops : List ι}
    (hstep : ∀ op ∈ ops, ∀ s t, rel s t →
      (step op s).1 = (step' op t).1 ∧ rel (step op s).2 (step' op t).2)
    {s : σ} {t : τ} (h : rel s t) :
    (serve step s ops).1 = (serve step' t ops).1 ∧ rel (serve step s ops).2 (serve step' t ops).2 := by
  induction ops generalizing s t with
  | nil => exact ⟨rfl, h⟩
  | cons op ops ih =>
    obtain ⟨hanswer, hnext⟩ := hstep op List.mem_cons_self s t h
    obtain ⟨hanswers, hlast⟩ := ih (fun op hop => hstep op (List.mem_cons_of_mem _ hop)) hnext
    refine ⟨?_, hlast⟩
    show (step op s).1 :: (serve step (step op s).2 ops).1
      = (step' op t).1 :: (serve step' (step' op t).2 ops).1
    rw [hanswer, hanswers]

/-- A temporary file with the mark in its name has a place of its own beside the object: it is not
on the way to any key. -/
structure IsAside (keys : Set String) (mark key : String) : Prop where
  size : mark.utf8ByteSize = 12
  apart : ∀ p, Path.ofKey key = .ok p → ∀ other ∈ keys,
    ¬ Disk.temporaryNames p mark <+: components other

namespace Mirrors

/-- A temporary file makes no difference to writing an object. -/
theorem commitBeside_eq (h : Mirrors keys t m) (hflat : IsFlat keys) (hkey : key ∈ keys)
    (haside : IsAside keys mark key) (hp : Path.ofKey key = .ok p) (hnames : p.names = components key)
    (hfit : p.IsFit) (content : Blob) (fault : Option Error) :
    Disk.commitBeside mark t p content fault = Disk.commit t p content fault := by
  have hparents : p.parents = (components key).dropLast := by
    rw [← hnames, Path.names, List.dropLast_concat]
  have hmade : Mirrors keys (t.make p.parents).2 m := hparents ▸ h.make hkey
  refine Disk.commitBeside_eq hfit haside.size (h.free hflat hkey hnames)
    (hnames ▸ hmade.not_directory hflat hkey) ?_ fun hmem => ?_
  · refine Option.eq_none_iff_forall_ne_some.mpr fun found hfile => ?_
    obtain ⟨other, hother, hsame⟩ := h.files _ _ hfile
    exact haside.apart p hp other hother (hsame ▸ List.prefix_rfl)
  · obtain ⟨other, hother, hpre, -⟩ := hmade.directories _ hmem
    exact haside.apart p hp other hother hpre

theorem onTreeBeside_eq (h : Mirrors keys t m) (hflat : IsFlat keys) {op : Operation}
    (hkey : op.key ∈ keys) (haside : IsAside keys mark op.key) :
    op.onTreeBeside mark t = op.onTree t := by
  obtain ⟨p, hp, hnames, hfit⟩ := (hflat.plain op.key hkey).exists_path
  have hcommit := h.commitBeside_eq hflat hkey haside hp hnames hfit
  cases op with
  | put key content =>
    have hp : Path.ofKey key = .ok p := hp
    rw [Operation.onTreeBeside, Operation.onTree, Disk.putBeside, Disk.put, hp]
    dsimp only
    rw [hcommit]
  | putStream key stream declared =>
    have hp : Path.ofKey key = .ok p := hp
    rw [Operation.onTreeBeside, Operation.onTree, Disk.putStreamBeside, Disk.putStream, hp]
    dsimp only
    rw [hcommit]
  | _ => rfl

/-- Operations have the same answers on the tree and on the map. -/
theorem serve_eq (h : Mirrors keys t m) (hflat : IsFlat keys) {ops : List Operation}
    (hops : ∀ op ∈ ops, op.key ∈ keys ∧ op.IsBounded)
    (hfirst : ∀ key first, .openRange key first none ∈ ops → first ≤ maxInt64) :
    (serve Operation.onTree t ops).1 = (serve Operation.onMap m ops).1
      ∧ Mirrors keys (serve Operation.onTree t ops).2 (serve Operation.onMap m ops).2 := by
  refine serve_congr (fun op hop t m h => ?_) h
  obtain ⟨hkey, hbounded⟩ := hops op hop
  exact h.onTree hflat hkey hbounded fun key first hsame => hfirst key first (hsame ▸ hop)

/-- Temporary files make no difference to the tree either. -/
theorem serve_beside (h : Mirrors keys t m) (hflat : IsFlat keys)
    {calls : List (String × Operation)}
    (hops : ∀ call ∈ calls, call.2.key ∈ keys ∧ call.2.IsBounded)
    (hfirst : ∀ call ∈ calls, ∀ key first, call.2 = .openRange key first none → first ≤ maxInt64)
    (haside : ∀ call ∈ calls, IsAside keys call.1 call.2.key) :
    serve (fun call => call.2.onTreeBeside call.1) t calls
      = serve Operation.onTree t (calls.map (·.2)) := by
  induction calls generalizing t m with
  | nil => rfl
  | cons call calls ih =>
    obtain ⟨hkey, hbounded⟩ := hops call List.mem_cons_self
    have hsame := h.onTreeBeside_eq hflat hkey (haside call List.mem_cons_self)
    have hnext := (h.onTree hflat hkey hbounded (hfirst call List.mem_cons_self)).2
    rw [List.map_cons, serve, serve, hsame]
    dsimp only
    rw [ih hnext (fun call hcall => hops call (List.mem_cons_of_mem _ hcall))
      (fun call hcall => hfirst call (List.mem_cons_of_mem _ hcall))
      fun call hcall => haside call (List.mem_cons_of_mem _ hcall)]

end Mirrors

/-- **A directory serves as a map** from keys to bytes, whatever is asked of it. Temporary files make
no difference to that, and no object is touched by what is done to another. -/
theorem serve_onTree (hflat : IsFlat keys) {ops : List Operation}
    (hops : ∀ op ∈ ops, op.key ∈ keys ∧ op.IsBounded)
    (hfirst : ∀ key first, .openRange key first none ∈ ops → first ≤ maxInt64) :
    (serve Operation.onTree {} ops).1 = (serve Operation.onMap (fun _ => none) ops).1
      ∧ (∀ calls : List (String × Operation), calls.map (·.2) = ops →
        (∀ call ∈ calls, IsAside keys call.1 call.2.key) →
        serve (fun call => call.2.onTreeBeside call.1) {} calls = serve Operation.onTree {} ops)
      ∧ ∀ before op after, ops = before ++ op :: after → ∀ other ∈ keys, other ≠ op.key →
        (Disk.open (op.onTree (serve Operation.onTree {} before).2).2 other).map Blob.toList
          = (Disk.open (serve Operation.onTree {} before).2 other).map Blob.toList := by
  refine ⟨((mirrors_empty keys).serve_eq hflat hops hfirst).1, ?_, ?_⟩
  · rintro calls rfl haside
    refine (mirrors_empty keys).serve_beside hflat (fun call hcall => ?_) ?_ haside
    · exact hops call.2 (List.mem_map_of_mem hcall)
    · exact fun call hcall key first hsame =>
        hfirst key first (hsame ▸ List.mem_map_of_mem hcall)
  · rintro before op after rfl other hother hne
    have hreached := ((mirrors_empty keys).serve_eq hflat
      (fun op hop => hops op (List.mem_append_left _ hop))
      fun key first hmem => hfirst key first (List.mem_append_left _ hmem)).2
    have hmem : op ∈ before ++ op :: after := List.mem_append_right _ List.mem_cons_self
    obtain ⟨hkey, hbounded⟩ := hops op hmem
    exact hreached.open_onTree_of_ne hflat hkey hbounded
      (fun key first hsame => hfirst key first (hsame ▸ hmem)) hother hne

/-! ### Two keys -/

/-- The keys of a note in a directory and of one beside it. -/
def noteKeys : Set String :=
  {"notes/a", "b"}

theorem isFlat_noteKeys : IsFlat noteKeys := by
  have hinside : components "notes/a" = ["notes", "a"] := by decide
  have hbeside : components "b" = ["b"] := by decide
  refine ⟨?_, ?_⟩
  · rintro key (rfl | rfl)
    · refine ⟨by decide, by decide +kernel, fun name hname => ?_⟩
      rw [hinside] at hname
      cases hname
      decide
    · refine ⟨by decide, by decide +kernel, fun name hname => ?_⟩
      rw [hbeside] at hname
      cases hname
      decide
  · rintro key (rfl | rfl) other (rfl | rfl) <;> decide

/-- A note is written, replaced by a stream that is too short, and read. -/
theorem serve_onTree_notes :
    IsFlat noteKeys
      ∧ (serve Operation.onTree {} [.put "notes/a" (.ofBytes ⟨#[1, 2]⟩),
          .putStream "notes/a" (.ofBytes ⟨#[3]⟩) 2, .open "notes/a", .exists? "b"]).1
        = [.ok (.size 2), .error (Disk.sizeMismatch "notes/a" 2 1), .ok (.content [1, 2]),
          .ok (.isThere false)] := by
  refine ⟨isFlat_noteKeys, ?_⟩
  rw [(serve_onTree isFlat_noteKeys ?_ ?_).1]
  · rfl
  · intro op hop
    simp only [List.mem_cons, List.not_mem_nil, or_false] at hop
    rcases hop with rfl | rfl | rfl | rfl
    · exact ⟨.inl rfl, trivial⟩
    · exact ⟨.inl rfl, show 2 ≤ maxInt64 by decide⟩
    · exact ⟨.inl rfl, trivial⟩
    · exact ⟨.inr rfl, trivial⟩
  · simp

/-- **Reading goes wrong from beyond the offsets** that the system can say: a map would find no
bytes there. -/
theorem serve_onTree_fails :
    ¬ ∀ (keys : Set String) (ops : List Operation), IsFlat keys →
      (∀ op ∈ ops, op.key ∈ keys ∧ op.IsBounded) →
      (serve Operation.onTree {} ops).1 = (serve Operation.onMap (fun _ => none) ops).1 := by
  intro hserves
  have hops : ∀ op ∈ [Operation.put "b" (.ofBytes ⟨#[1, 2]⟩),
      .openRange "b" (maxInt64 + 1) none], op.key ∈ noteKeys ∧ op.IsBounded := by
    intro op hop
    simp only [List.mem_cons, List.not_mem_nil, or_false] at hop
    rcases hop with rfl | rfl
    · exact ⟨.inr rfl, trivial⟩
    · exact ⟨.inr rfl, trivial⟩
  have hsame := hserves noteKeys _ isFlat_noteKeys hops
  have hanswers := congrArg (List.map Except.isOk) hsame
  revert hanswers
  decide

end SharedMemos.Storage
