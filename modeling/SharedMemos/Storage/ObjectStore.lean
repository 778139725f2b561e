import SharedMemos.Bytes.Blob
import SharedMemos.Error
import SharedMemos.Upload.Part

/-!
# An object store in memory

An object store as clients and the server see it: objects by key, uploads in parts that are joined
or given up, and addresses that clients may use themselves. Any call can be made to fail.
-/

namespace SharedMemos.Storage

open SharedMemos.Text SharedMemos.Upload

/-- The calls of an object store that may fail. -/
inductive Call where
  | put | «open» | delete | head | signPut | signGet | createUpload | signPart | listParts
  | completeUpload | abortUpload
deriving Repr, DecidableEq, Inhabited

/-- An upload in parts. -/
structure PendingUpload where
  id : String
  key : String
  /-- In the order in which they were sent. -/
  parts : List Part
deriving Repr, DecidableEq, Inhabited

/-- How an upload in parts came to its end. -/
inductive Outcome where
  | completed (upload : String) (parts : List Int)
  | aborted (upload : String)
deriving Repr, DecidableEq

/-- An object store. -/
structure ObjectStore where
  /-- Where clients find it. -/
  host : String := ""
  /-- Can objects be uploaded in parts? -/
  takesParts : Bool := true
  objects : List (String × Blob) := []
  uploads : List PendingUpload := []
  /-- How many uploads have been started. -/
  started : Nat := 0
  /-- The uploads that have ended, last first. -/
  outcomes : List Outcome := []
  /-- The keys that have been asked for, last first. -/
  seen : List String := []
  /-- The calls that fail, and what they complain about. -/
  failures : List (Call × String) := []
  /-- Does the store say of every key that it holds it? -/
  saysAll : Bool := false
deriving Inhabited

namespace ObjectStore

/-- The object at a key. -/
def object? (s : ObjectStore) (key : String) : Option Blob :=
  (s.objects.find? (·.1 == key)).map (·.2)

/-- Notes that a key has been asked for. -/
def see (s : ObjectStore) (key : String) : ObjectStore :=
  if s.seen.contains key then s else { s with seen := key :: s.seen }

/-- The complaint of a call that fails. -/
def failure? (s : ObjectStore) (call : Call) : Option Error :=
  (s.failures.find? (·.1 == call)).map fun failure => .storage failure.2

/-- Makes a call about a key. -/
def «call» {α : Type} (s : ObjectStore) (call : Call) (key : String)
    (act : ObjectStore → Except Error α × ObjectStore) : Except Error α × ObjectStore :=
  let s := s.see key
  match s.failure? call with
  | some e => (.error e, s)
  | none => act s

/-- The complaint that there is no object at a key. -/
def missing (key : String) : Error :=
  .notFound ("object " ++ key)

/-- The store with an object at a key. -/
def store (s : ObjectStore) (key : String) (content : Blob) : ObjectStore :=
  { s with objects := (key, content) :: s.objects.filter (·.1 != key) }

/-- Stores an object; gives its size. -/
def put (s : ObjectStore) (key : String) (content : Blob) : Except Error Nat × ObjectStore :=
  s.call .put key fun s => (.ok content.size, s.store key content)

/-- The content of an object. -/
def «open» (s : ObjectStore) (key : String) : Except Error Blob × ObjectStore :=
  s.call .open key fun s =>
    match s.object? key with
    | some content => (.ok content, s)
    | none => (.error (missing key), s)

/-- The bytes of an object from the first to the last, or to its end. -/
def openRange (s : ObjectStore) (key : String) (first : Nat) (last : Option Nat) :
    Except Error Blob × ObjectStore :=
  let (content, s) := s.open key
  let part (content : Blob) : Blob :=
    match last with
    | some last => (content.drop first).take (last - first + 1)
    | none => content.drop first
  (content.map part, s)

/-- Removes an object, which need not be there. -/
def delete (s : ObjectStore) (key : String) : Except Error Unit × ObjectStore :=
  s.call .delete key fun s => (.ok (), { s with objects := s.objects.filter (·.1 != key) })

/-- Is there an object at a key? A store that says so of every key does not look at the key. -/
def exists? (s : ObjectStore) (key : String) : Except Error Bool × ObjectStore :=
  if s.saysAll then (.ok true, s)
  else
    let s := s.see key
    (.ok (s.object? key).isSome, s)

/-- The size of an object. -/
def head (s : ObjectStore) (key : String) : Except Error Int × ObjectStore :=
  s.call .head key fun s =>
    match s.object? key with
    | some content => (.ok content.size, s)
    | none => (.error (missing key), s)

/-- An address for a key, with a query and a lifetime in seconds. -/
def address (s : ObjectStore) (key query : String) (lifetime : Nat) : String :=
  s.host ++ "/" ++ key ++ "?" ++ query ++ "&expires=" ++ showNat lifetime

/-- An address where a client may store an object. -/
def signPut (s : ObjectStore) (key contentType : String) (lifetime : Nat) :
    Except Error String × ObjectStore :=
  s.call .signPut key fun s => (.ok (s.address key ("put&ct=" ++ contentType) lifetime), s)

/-- An address where a client may read an object. -/
def signGet (s : ObjectStore) (key : String) (lifetime : Nat) : Except Error String × ObjectStore :=
  s.call .signGet key fun s => (.ok (s.address key "get" lifetime), s)

/-- An address where a client may send a part of an upload. -/
def signPart (s : ObjectStore) (key upload : String) (number : Int) (lifetime : Nat) :
    Except Error String × ObjectStore :=
  s.call .signPart key fun s =>
    (.ok (s.address key ("uploadId=" ++ upload ++ "&partNumber=" ++ showInt number) lifetime), s)

/-- Starts an upload in parts; gives its name. -/
def createUpload (s : ObjectStore) (key : String) : Except Error String × ObjectStore :=
  s.call .createUpload key fun s =>
    if !s.takesParts then (.error (.unsupported "multipart disabled"), s)
    else
      let id := "upload-" ++ showNat (s.started + 1)
      (.ok id, { s with uploads := s.uploads ++ [⟨id, key, []⟩], started := s.started + 1 })

/-- The upload with a name. -/
def upload? (s : ObjectStore) (id : String) : Option PendingUpload :=
  s.uploads.find? (·.id == id)

/-- The store without an upload. -/
def forget (s : ObjectStore) (id : String) : ObjectStore :=
  { s with uploads := s.uploads.filter (·.id != id) }

/-- The parts of an upload. -/
def listParts (s : ObjectStore) (key id : String) : Except Error (List Part) × ObjectStore :=
  s.call .listParts key fun s =>
    match s.upload? id with
    | some u => (.ok u.parts, s)
    | none => (.error (.notFound id), s)

/-- A client sends a part, in the place of an earlier one with its number. Tells whether there is
such an upload. -/
def sendPart (s : ObjectStore) (id : String) (part : Part) : Bool × ObjectStore :=
  match s.upload? id with
  | none => (false, s)
  | some _ =>
    let put (u : PendingUpload) : PendingUpload :=
      if u.id == id then { u with parts := u.parts.filter (·.number != part.number) ++ [part] }
      else u
    (true, { s with uploads := s.uploads.map put })

/-- Joins the parts of an upload into an object. The contents of parts are zeros. -/
def completeUpload (s : ObjectStore) (key id : String) (parts : List Part) :
    Except Error Unit × ObjectStore :=
  s.call .completeUpload key fun s =>
    let size : Int := parts.foldl (fun n p => n + p.size) 0
    let s := (s.forget id).store key (.ofZeros size.toNat)
    (.ok (), { s with outcomes := .completed id (parts.map (·.number)) :: s.outcomes })

/-- Gives an upload up. -/
def abortUpload (s : ObjectStore) (key id : String) : Except Error Unit × ObjectStore :=
  s.call .abortUpload key fun s =>
    let s := s.forget id
    (.ok (), { s with outcomes := .aborted id :: s.outcomes })

end ObjectStore

end SharedMemos.Storage
