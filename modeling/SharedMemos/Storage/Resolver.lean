import SharedMemos.Storage.Client

/-!
# Choice of the store

Objects are kept in a directory or in a bucket, as the storage setting says. The client of a bucket
is kept until another configuration is asked for. A server can also be tied to one object store,
whatever the setting says.
-/

namespace SharedMemos.Storage

/-- A store. -/
inductive Backend where
  /-- The directory of the server. -/
  | disk
  /-- A bucket. -/
  | bucket (client : Client)
  /-- The object store that the server is tied to. -/
  | tied
deriving Repr, DecidableEq, Inhabited

/-- The kind of a store. -/
def Backend.kind : Backend → Kind
  | .disk => .disk
  | .bucket _ | .tied => .bucket

/-- Can clients reach the store themselves? -/
def Backend.isDirect : Backend → Bool
  | .disk => false
  | .bucket _ | .tied => true

/-- How stores are chosen. -/
structure Resolver where
  /-- Is the server tied to one object store? -/
  isTied : Bool := false
  /-- The client that was asked for last. -/
  client : Option Client := none
  /-- How many clients have been made. -/
  made : Nat := 0
deriving Repr, DecidableEq, Inhabited

namespace Resolver

/-- The store for objects of a kind. -/
def forKind (r : Resolver) (kind : Kind) (setting : Setting) : Except Error Backend × Resolver :=
  if r.isTied then (.ok .tied, r)
  else
    match kind, setting.bucket with
    | .disk, _ => (.ok .disk, r)
    | .bucket, none => (.error (.config "S3 storage selected without s3_config"), r)
    | .bucket, some config =>
      match r.client.filter (·.config == config) with
      | some client => (.ok (.bucket client), r)
      | none =>
        match Client.make config r.made with
        | .error e => (.error e, r)
        | .ok client => (.ok (.bucket client), { r with client := some client, made := r.made + 1 })

/-- The store for new objects. -/
def resolve (r : Resolver) (setting : Setting) : Except Error Backend × Resolver :=
  r.forKind setting.kind setting

end Resolver

end SharedMemos.Storage
