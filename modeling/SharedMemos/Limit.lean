/-!
# Limits and defaults

The fixed numbers of the server. Sizes are in bytes and times in seconds.
-/

namespace SharedMemos.Limit

/-- Memos on a page where the caller does not say. -/
def pageSize : Nat := 50

/-- The most memos on a page. -/
def maxPageSize : Nat := 200

/-- The most memos that a listing looks at. -/
def candidates : Nat := 10000

/-- Length of the uid of a memo or an attachment. -/
def uidLength : Nat := 22

/-- The size limit of an upload, in units of `1024 * 1024` bytes, where the workspace sets none. -/
def uploadMegabytes : Int := 30

/-- How often a fresh storage key is tried. -/
def keyAttempts : Nat := 8

/-- Length of the random part of a storage key. -/
def keyLength : Nat := 24

/-- Length of the name of an upload session. -/
def sessionIdLength : Nat := 32

/-- A session that is not touched for longer than this has expired. -/
def sessionLifetime : Nat := 24 * 60 * 60

/-- How many expired sessions are looked up at a time. -/
def sweepBatch : Nat := 200

/-- Time between two sweeps. -/
def sweepInterval : Nat := 60 * 60

/-- Size of the parts of a multipart upload. -/
def partSize : Nat := 8 * 1024 * 1024

/-- Smallest size of a part that is not the last. -/
def minPartSize : Nat := 5 * 1024 * 1024

/-- The largest number of a part. -/
def maxPartNumber : Nat := 10000

/-- How long an address signed for a client is valid. -/
def signedLifetime : Nat := 15 * 60

/-- The longest that a signed address can be valid. -/
def maxSignedLifetime : Nat := 7 * 24 * 60 * 60

/-- The largest image that a thumbnail is made of. -/
def thumbnailSource : Nat := 40 * 1024 * 1024

/-- The largest image that a client may send for a thumbnail. -/
def thumbnailUpload : Nat := 8 * 1024 * 1024

/-- The side of the square that a thumbnail fits in. -/
def thumbnailSide : Nat := 640

/-- The quality of a thumbnail, out of a hundred. -/
def thumbnailQuality : Nat := 80

/-- What the storage key and the file name of a thumbnail add to those of its image. -/
def thumbnailMark : String := ".thumb.jpg"

/-- The TCP port that the server listens on. -/
def tcpPort : Nat := 8081

/-- The largest body of a request. -/
def requestBody : Nat := 64 * 1024 * 1024

/-- The most connections to the database. -/
def connections : Nat := 8

end SharedMemos.Limit
