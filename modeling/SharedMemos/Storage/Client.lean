import SharedMemos.Limit
import SharedMemos.Storage.Disk
import SharedMemos.Storage.Setting

/-!
# Clients of a bucket

What a client of an object store does before it sends a request: it refuses what cannot be asked,
and it signs addresses that let others ask for a limited time. The signature itself is left out.
-/

namespace SharedMemos.Storage

open SharedMemos.Text

/-- A client of a bucket. -/
structure Client where
  config : BucketConfig
  /-- How many clients were made before it. -/
  serial : Nat
deriving Repr, DecidableEq, Inhabited

/-- An address that is valid for a time. -/
structure SignedAddress where
  address : String
  /-- How many seconds it is valid. -/
  lifetime : Nat
  /-- The upload and the part that it is for. -/
  part : Option (String × Int) := none
deriving Repr, DecidableEq, Inhabited

namespace Client

/-- A client of a bucket, which must be named. -/
def make (config : BucketConfig) (serial : Nat) : Except Error Client :=
  if config.bucket = "" then .error (.config "s3 bucket is required") else .ok ⟨config, serial⟩

/-- May the character stand in a part of the path of an address as it is? -/
def isPlain (c : Char) : Bool :=
  isAsciiAlphanumeric c || c == '-' || c == '.' || c == '_' || c == '~'

/-- A byte with a percent sign and two upper-case digits. -/
def escapedByte (b : UInt8) : List Char :=
  ['%', (Nat.digitChar (b.toNat / 16)).toUpper, (Nat.digitChar (b.toNat % 16)).toUpper]

/-- A text in the path of an address, in which the characters of `kept` stand as they are. -/
def escaped (kept : List Char) (s : String) : String :=
  String.ofList (s.toList.flatMap fun c =>
    if isPlain c || kept.contains c then [c]
    else (String.singleton c).toUTF8.data.toList.flatMap escapedByte)

/-- The address of the store. -/
def endpoint (c : Client) : String :=
  let region := if c.config.region = "" then "us-east-1" else c.config.region
  if c.config.endpoint = "" then "https://s3." ++ region ++ ".amazonaws.com" else c.config.endpoint

/-- An address up to the parts that are put after its path: with its scheme in lower case, and with
a slash where it has no path. A path stands as it is, whether it ends in a slash or not. -/
def openEnded (address : String) : String :=
  let (scheme, rest) := address.toList.span (· != ':')
  let path := ((rest.dropWhile (· == ':')).drop 2).dropWhile (· != '/')
  asciiLower (String.ofList scheme) ++ String.ofList rest ++ (if path.isEmpty then "/" else "")

/-- The address of an object. The name of the bucket is one part of the path, the key as many as it
has slashes. -/
def address (c : Client) (key : String) : String :=
  openEnded c.endpoint ++ escaped [] c.config.bucket ++ "/" ++ escaped ['/'] key

/-- The address of an object, or of a part of an upload, valid for a time. -/
def sign (c : Client) (key : String) (part : Option (String × Int)) (lifetime : Nat) :
    Except Error SignedAddress :=
  if Limit.maxSignedLifetime < lifetime then
    .error (.config ("invalid presign expiry: \x60expires_in\x60 must be no longer than one week"))
  else .ok ⟨c.address key, lifetime, part⟩

/-- The complaint that no store answers. -/
def unreachable (call key : String) : Error :=
  .storage ("s3 " ++ call ++ " " ++ key ++ ": no answer")

/-- Stores an object of a declared size from a stream. The first part is read before anything is
sent, and a stream that ends within it must be as long as declared. -/
def putStream (key : String) (stream : Blob) (declared : Nat) : Except Error Nat :=
  let start := stream.take Limit.partSize
  if start.size < Limit.partSize && start.size != declared then
    .error (Disk.sizeMismatch key declared start.size)
  else .error (unreachable "put_object" key)

/-- The bytes of an object from the first to the last, or to its end. -/
def openRange (key : String) (first : Nat) (last : Option Nat) : Except Error Blob :=
  match last with
  | some last =>
    if last < first then .error (.invalidInput (.reversedRange first last))
    else .error (unreachable "get_object" key)
  | none => .error (unreachable "get_object" key)

end Client

end SharedMemos.Storage
