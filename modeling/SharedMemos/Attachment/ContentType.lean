import SharedMemos.Attachment.Filename

/-!
# Content types

The content type of a file is the declared one, or is told from the first bytes.
-/

namespace SharedMemos.ContentType

open SharedMemos.Text

/-- The type of bytes of which nothing is known. -/
def unknown : String := "application/octet-stream"

/-- The type of thumbnails. -/
def jpeg : String := "image/jpeg"

/-- The types told from the first bytes: the offset and the bytes of their signature. -/
def signatures : List (Nat × List UInt8 × String) :=
  [(0, [0xff, 0xd8, 0xff], jpeg),
    (0, [0x89, 0x50, 0x4e, 0x47], "image/png"),
    (0, [0x47, 0x49, 0x46], "image/gif"),
    (8, [0x57, 0x45, 0x42, 0x50], "image/webp"),
    (0, [0x25, 0x50, 0x44, 0x46], "application/pdf")]

/-- The type whose signature the bytes bear. -/
def ofSignature? (bytes : ByteArray) : Option String :=
  (signatures.find? fun (offset, signature, _) =>
    (bytes.extract offset (offset + signature.length)).data.toList == signature).map (·.2.2)

/-- The content type: the declared one where it is not blank, else the type that the bytes bear. -/
def choose (declared : Option String) (bytes : Option ByteArray) : String :=
  match (declared.map trim).filter (· ≠ "") with
  | some type => type
  | none => (bytes.bind ofSignature?).getD unknown

/-- The types of pictures that thumbnails are made of. -/
def pictures : List String :=
  ["image/png", "image/jpeg", "image/jpg", "image/gif", "image/webp"]

/-- The extensions of such pictures. -/
def pictureExtensions : List String :=
  ["png", "jpg", "jpeg", "gif", "webp"]

/-- Does the type or the extension name a picture? Parameters of the type do not count. -/
def isPicture (type filename : String) : Bool :=
  pictures.contains (asciiLower (trim (String.ofList (type.toList.takeWhile (· != ';')))))
    || ((Filename.splitLast? filename.toList).map fun (_, ending) =>
        pictureExtensions.contains (asciiLower (String.ofList ending))).getD false

end SharedMemos.ContentType
