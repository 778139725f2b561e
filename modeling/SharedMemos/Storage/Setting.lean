import SharedMemos.Error
import SharedMemos.Json.Printer
import SharedMemos.Json.Reader
import SharedMemos.Limit

/-!
# The storage setting

Where new objects are stored and how large they may be. The setting is kept as JSON text, which an
administrator may have written.
-/

namespace SharedMemos.Storage

open SharedMemos.Text

/-- A kind of store. -/
inductive Kind where
  /-- A directory of the server. -/
  | disk
  /-- A bucket of an object store that clients can reach themselves. -/
  | bucket
deriving Repr, DecidableEq, Inhabited

namespace Kind

/-- Its written name. -/
def name : Kind → String
  | .disk => "LOCAL"
  | .bucket => "S3"

/-- The kind with a written name. -/
def ofName? (s : String) : Option Kind :=
  [disk, bucket].find? (·.name == s)

end Kind

/-- Where a bucket is and how to sign requests to it. -/
structure BucketConfig where
  endpoint : String
  region : String
  bucket : String
  keyId : String
  keySecret : String
  /-- Is the bucket named in the path of an address, and not in its host? -/
  inPath : Bool := false
deriving Repr, DecidableEq, Inhabited

namespace BucketConfig

/-- The fields of the configuration of a bucket. -/
def record : Json.Record BucketConfig :=
  (fun endpoint region bucket keyId keySecret inPath =>
      ⟨endpoint, region, bucket, keyId, keySecret, inPath⟩)
    <$> .required "endpoint" Json.readString
    <*> .required "region" Json.readString
    <*> .required "bucket" Json.readString
    <*> .required "access_key_id" Json.readString
    <*> .required "access_key_secret" Json.readString
    <*> .withDefault "use_path_style" Json.readBool false

/-- The configuration as a JSON object. -/
def toJson (c : BucketConfig) : Json :=
  .object
    [("endpoint", .string c.endpoint), ("region", .string c.region), ("bucket", .string c.bucket),
      ("access_key_id", .string c.keyId), ("access_key_secret", .string c.keySecret),
      ("use_path_style", .bool c.inPath)]

end BucketConfig

/-- The storage setting of the workspace. -/
structure Setting where
  /-- Where new objects go. -/
  kind : Kind := .disk
  /-- The largest upload, in units of `1024 * 1024` bytes. -/
  megabytes : Int := Limit.uploadMegabytes
  bucket : Option BucketConfig := none
deriving Repr, DecidableEq, Inhabited

namespace Setting

/-- The fields of the setting. -/
def record : Json.Record Setting :=
  (fun kind megabytes bucket => ⟨kind, megabytes, bucket⟩)
    <$> .required "storage_type" (Json.readName Kind.ofName?)
    <*> .withDefault "upload_size_limit_mb" Json.readInt64 Limit.uploadMegabytes
    <*> .withDefault "s3_config" (Json.readOption BucketConfig.record.read) none

/-- The setting as a JSON object. -/
def toJson (s : Setting) : Json :=
  .object <|
    [("storage_type", .string s.kind.name), ("upload_size_limit_mb", .int s.megabytes)]
      ++ s.bucket.toList.map fun c => ("s3_config", c.toJson)

/-- The setting as text. -/
def toText (s : Setting) : String :=
  s.toJson.compress

/-- Reads the text of a setting. -/
def ofText (text : String) : Except Error Setting :=
  match Json.readText record.read text with
  | .ok s => .ok s
  | .error _ => .error (.serialization "not a storage setting")

/-- The largest upload in bytes, held within 64 bits. -/
def limitBytes (s : Setting) : Int :=
  saturateInt64 (s.megabytes * (1024 * 1024))

end Setting

end SharedMemos.Storage
