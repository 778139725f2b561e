import SharedMemos.Server.State

/-!
# Objects of the server

The storage setting, the stores that it leads to, and the calls on a store whatever its kind. No
bucket can be reached from here: calls on one fail, apart from what its client does by itself.
-/

namespace SharedMemos

namespace Server

open SharedMemos.Storage SharedMemos.Upload

/-- The name of the storage setting. -/
def storageSettingName : String := "STORAGE"

/-- The storage setting. Where there is none, the default is written down. -/
def storageSetting : Action Setting := do
  match ← query (·.setting? storageSettingName) with
  | some text => Attempt.ofExcept (Setting.ofText text)
  | none =>
    let initial : Setting := {}
    transact (Database.initSetting storageSettingName initial.toText)
    match ← query (·.setting? storageSettingName) with
    | some text => Attempt.ofExcept (Setting.ofText text)
    | none => return initial

/-- The store for objects of a kind. -/
def backendFor (kind : Kind) (setting : Setting) : Action Backend :=
  Attempt.atomic fun s =>
    let (result, resolver) := s.resolver.forKind kind setting
    (result, { s with resolver := resolver })

/-- The store for new objects. -/
def backendForNew (setting : Setting) : Action Backend :=
  backendFor setting.kind setting

/-- A call on the directory of the server. -/
def onDisk {α : Type} (f : Tree → Except Error α × Tree) : Action α :=
  Attempt.atomic fun s =>
    let (result, disk) := f s.disk
    (result, { s with disk := disk })

/-- A call on the store that the server is tied to. -/
def onStore {α : Type} (f : ObjectStore → Except Error α × ObjectStore) : Action α :=
  Attempt.atomic fun s =>
    let (result, store) := f s.store
    (result, { s with store := store })

/-- The complaint that a store is not one that clients can reach. -/
def notDirect (what : String) : Error :=
  .unsupported ("backend has no " ++ what)

end Server

namespace Storage.Backend

open SharedMemos.Server SharedMemos.Upload

/-- Stores an object; gives its size. -/
def put (b : Backend) (key : String) (content : Blob) : Action Nat :=
  match b with
  | .disk => onDisk fun t => Disk.put t key content
  | .bucket _ => throw (Client.unreachable "put_object" key)
  | .tied => onStore fun s => s.put key content

/-- Stores an object of a declared size from a stream. -/
def putStream (b : Backend) (key : String) (stream : Blob) (declared : Nat) : Action Nat :=
  match b with
  | .disk => onDisk fun t => Disk.putStream t key stream declared
  | .bucket _ => Attempt.ofExcept (Client.putStream key stream declared)
  | .tied => onStore fun s => s.put key stream

/-- The content of an object. -/
def «open» (b : Backend) (key : String) : Action Blob :=
  match b with
  | .disk => onDisk fun t => (Disk.open t key, t)
  | .bucket _ => throw (Client.unreachable "get_object" key)
  | .tied => onStore fun s => s.open key

/-- The bytes of an object from the first to the last, or to its end. -/
def openRange (b : Backend) (key : String) (first : Nat) (last : Option Nat) : Action Blob :=
  match b with
  | .disk => onDisk fun t => (Disk.openRange t key first last, t)
  | .bucket _ => Attempt.ofExcept (Client.openRange key first last)
  | .tied => onStore fun s => s.openRange key first last

/-- Removes an object, which need not be there. -/
def delete (b : Backend) (key : String) : Action Unit :=
  match b with
  | .disk => onDisk fun t => Disk.delete t key
  | .bucket _ => throw (Client.unreachable "delete_object" key)
  | .tied => onStore fun s => s.delete key

/-- Is there an object at a key? -/
def exists? (b : Backend) (key : String) : Action Bool :=
  match b with
  | .disk => onDisk fun t => (Disk.exists? t key, t)
  | .bucket _ => throw (Client.unreachable "head_object" key)
  | .tied => onStore fun s => s.exists? key

/-- The size of an object. -/
def head (b : Backend) (key : String) : Action Int :=
  match b with
  | .disk => throw (notDirect "direct upload")
  | .bucket _ => throw (Client.unreachable "head_object" key)
  | .tied => onStore fun s => s.head key

/-- The text of a signed address. -/
def signedText (a : SignedAddress) : String :=
  a.address ++ "?X-Amz-Expires=" ++ Text.showNat a.lifetime

/-- An address where a client may store an object. -/
def signPut (b : Backend) (key contentType : String) (lifetime : Nat) : Action String :=
  match b with
  | .disk => throw (notDirect "direct upload")
  | .bucket c => Attempt.ofExcept ((c.sign key none lifetime).map signedText)
  | .tied => onStore fun s => s.signPut key contentType lifetime

/-- An address where a client may read an object. -/
def signGet (b : Backend) (key : String) (lifetime : Nat) : Action String :=
  match b with
  | .disk => throw (notDirect "direct upload")
  | .bucket c => Attempt.ofExcept ((c.sign key none lifetime).map signedText)
  | .tied => onStore fun s => s.signGet key lifetime

/-- An address where a client may send a part of an upload. -/
def signPart (b : Backend) (key upload : String) (number : Int) (lifetime : Nat) : Action String :=
  match b with
  | .disk => throw (notDirect "multipart support")
  | .bucket c => Attempt.ofExcept ((c.sign key (some (upload, number)) lifetime).map signedText)
  | .tied => onStore fun s => s.signPart key upload number lifetime

/-- Starts an upload in parts; gives its name. -/
def createUpload (b : Backend) (key : String) : Action String :=
  match b with
  | .disk => throw (notDirect "multipart support")
  | .bucket _ => throw (Client.unreachable "create_multipart_upload" key)
  | .tied => onStore fun s => s.createUpload key

/-- The parts of an upload. -/
def listParts (b : Backend) (key upload : String) : Action (List Part) :=
  match b with
  | .disk => throw (notDirect "multipart support")
  | .bucket _ => throw (Client.unreachable "list_parts" key)
  | .tied => onStore fun s => s.listParts key upload

/-- Joins the parts of an upload into an object. -/
def completeUpload (b : Backend) (key upload : String) (parts : List Part) : Action Unit :=
  match b with
  | .disk => throw (notDirect "multipart support")
  | .bucket _ => throw (Client.unreachable "complete_multipart_upload" key)
  | .tied => onStore fun s => s.completeUpload key upload parts

/-- Gives an upload up. -/
def abortUpload (b : Backend) (key upload : String) : Action Unit :=
  match b with
  | .disk => throw (notDirect "multipart support")
  | .bucket _ => throw (Client.unreachable "abort_multipart_upload" key)
  | .tied => onStore fun s => s.abortUpload key upload

end Storage.Backend

end SharedMemos
