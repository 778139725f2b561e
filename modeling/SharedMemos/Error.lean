import SharedMemos.Decimal.Shortest
import SharedMemos.Filter.Fault
import SharedMemos.Text.Quoted

/-!
# Errors

Why an operation fails. An error names its cause; its wording is given by one function. Errors that
tell the caller what to mend in the request are validation errors.
-/

namespace SharedMemos

open SharedMemos.Text SharedMemos.Decimal

/-- What is wrong with an input. -/
inductive InputFault where
  | unknownVisibility (name : String)
  | unknownState (name : String)
  | latitude (found : Binary64)
  | longitude (found : Binary64)
  | resourceName (name : String)
  | storageKey (key : String)
  | noFilename
  | filename (name : String)
  | notBase64
  | notImage
  | overLimit (size limitMb : Int)
  | sizeNotPositive
  | noChunks (mode : String)
  | emptyChunk
  | chunkBeyondSize (length : Nat) (offset size : Int)
  | noParts (mode : String)
  | partNumber (number : Int)
  | partNotPositive
  | partBeyondSize (length offset size : Int)
  | partTooSmall (least : Int)
  | emptyThumbnail
  | thumbnailTooLarge (most : Int)
  | rangeSyntax (header : String)
  | severalRanges
  | rangeBeyondEnd (total : Nat)
  | reversedRange (first last : Nat)
  /-- Any other fault, in its own words. -/
  | stated (reason : String)
deriving Repr, DecidableEq

/-- The wording. -/
def InputFault.message : InputFault → String
  | .unknownVisibility name => "invalid visibility: " ++ name
  | .unknownState name => "invalid state: " ++ name
  | .latitude x => "latitude must be between -90 and 90, got " ++ x.show
  | .longitude x => "longitude must be between -180 and 180, got " ++ x.show
  | .resourceName name => "invalid resource name: " ++ name
  | .storageKey key => "invalid storage key: " ++ quoted key
  | .noFilename => "filename is required"
  | .filename name => "invalid filename: " ++ name
  | .notBase64 => "invalid base64 content: not canonical base 64"
  | .notImage => "undecodable image: unknown format"
  | .overLimit size limitMb =>
    "file size " ++ showInt size ++ " exceeds the " ++ showInt limitMb ++ " MB limit"
  | .sizeNotPositive => "declared size must be positive"
  | .noChunks mode => mode ++ " sessions do not accept chunk appends"
  | .emptyChunk => "empty chunk"
  | .chunkBeyondSize length offset size =>
    "chunk of " ++ showNat length ++ " bytes at offset " ++ showInt offset
      ++ " exceeds declared size " ++ showInt size
  | .noParts mode => mode ++ " sessions do not use multipart parts"
  | .partNumber number => "invalid part number " ++ showInt number
  | .partNotPositive => "part size must be positive"
  | .partBeyondSize length offset size =>
    "part of " ++ showInt length ++ " bytes at offset " ++ showInt offset
      ++ " exceeds declared size " ++ showInt size
  | .partTooSmall least => "non-final parts must be at least " ++ showInt least ++ " bytes"
  | .emptyThumbnail => "empty thumbnail"
  | .thumbnailTooLarge most => "thumbnail exceeds " ++ showInt most ++ " bytes"
  | .rangeSyntax header => "invalid range: " ++ header
  | .severalRanges => "multiple ranges are not supported"
  | .rangeBeyondEnd total => "range not satisfiable for " ++ showNat total ++ " bytes"
  | .reversedRange first last => "invalid range " ++ showNat first ++ "-" ++ showNat last
  | .stated reason => reason

/-- Why an operation fails. -/
inductive Error where
  /-- A statement of the database failed. -/
  | database (detail : String)
  /-- There is no such thing, or none that the viewer may know of. -/
  | notFound (what : String)
  | invalidFilter (fault : Filter.Fault)
  /-- A page token is no number. -/
  | invalidPageToken (token : String)
  | invalidInput (fault : InputFault)
  /-- The operation is for signed-in users. -/
  | unauthenticated (reason : String)
  /-- An upload goes on at another offset than the client expects. -/
  | offsetMismatch (expected current : Int)
  /-- An upload has not received all declared bytes. -/
  | uploadIncomplete (received size : Int)
  /-- The store cannot do this. -/
  | unsupported (what : String)
  /-- The store failed. -/
  | storage (detail : String)
  /-- A stored text cannot be read. -/
  | serialization (detail : String)
  | config (detail : String)
  | internal (detail : String)
  /-- A file operation failed. -/
  | io (detail : String)
deriving Repr

namespace Error

/-- The wording. -/
def message : Error → String
  | .database detail => "Database error: " ++ detail
  | .notFound what => "Not found: " ++ what
  | .invalidFilter fault => "Invalid filter: " ++ fault.message
  | .invalidPageToken token => "Invalid page token: " ++ token
  | .invalidInput fault => "Invalid input: " ++ fault.message
  | .unauthenticated reason => "Unauthenticated: " ++ reason
  | .offsetMismatch expected current =>
    "Upload offset mismatch: expected " ++ showInt expected ++ ", current " ++ showInt current
  | .uploadIncomplete received size =>
    "Upload incomplete: received " ++ showInt received ++ " of " ++ showInt size ++ " bytes"
  | .unsupported what => "Unsupported: " ++ what
  | .storage detail => "Storage error: " ++ detail
  | .serialization detail => "Serialization error: " ++ detail
  | .config detail => "Configuration error: " ++ detail
  | .internal detail => "Internal error: " ++ detail
  | .io detail => "I/O error: " ++ detail

/-- Does the error tell the caller what to mend in the request? -/
def isValidation : Error → Bool
  | .invalidFilter _ | .invalidPageToken _ | .invalidInput _ => true
  | _ => false

end Error

/-- What was looked for, or the fault where there is none. -/
def InputFault.expect {α : Type} (fault : InputFault) : Option α → Except Error α
  | some a => .ok a
  | none => .error (.invalidInput fault)

end SharedMemos
