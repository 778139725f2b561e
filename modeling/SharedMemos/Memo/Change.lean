import SharedMemos.Json.Reader
import SharedMemos.Memo.Name

/-!
# Changes to memos

What a user says to make a memo and to change one. A change names the fields it is about and leaves
the others as they are. The flags of the content follow the content, and tags are kept in their
normal form.
-/

namespace SharedMemos

/-- The reader of the name of a visibility. -/
def Visibility.reader : Json.Reader Visibility :=
  Json.readName Visibility.ofName?

/-- The reader of the name of a state. -/
def MemoState.reader : Json.Reader MemoState :=
  Json.readName MemoState.ofName?

/-- A memo to be made. -/
structure MemoDraft where
  content : String
  visibility : Option Visibility := none
  pinned : Bool := false
  tags : List String := []
  location : Option Location := none
deriving Repr, DecidableEq

namespace MemoDraft

/-- The fields of a draft. -/
def record : Json.Record MemoDraft :=
  (fun content visibility pinned tags location => ⟨content, visibility, pinned, tags, location⟩)
    <$> .required "content" Json.readString
    <*> .withDefault "visibility" (Json.readOption Visibility.reader) none
    <*> .withDefault "pinned" Json.readBool false
    <*> .withDefault "tags" (Json.readList Json.readString) []
    <*> .withDefault "location" (Json.readOption Location.record.read) none

/-- Refuses a draft whose location is nowhere on the globe. -/
def validate (d : MemoDraft) : Except Error Unit :=
  match d.location with
  | some l => l.validate
  | none => .ok ()

/-- The memo that a user makes at a time. It is in use, and restricted unless the draft says
otherwise. It has no number yet. -/
def toMemo (d : MemoDraft) (uid : String) (creator : UserId) (time : Instant) : Memo where
  id := 0
  uid := uid
  creator := creator
  content := d.content
  visibility := d.visibility.getD .restricted
  state := .normal
  pinned := d.pinned
  created := time
  updated := time
  location := d.location
  tags := Tag.normalize d.tags
  property := .ofContent d.content

end MemoDraft

/-- A change of a memo: the fields that are given take new values. -/
structure MemoEdit where
  content : Option String := none
  visibility : Option Visibility := none
  state : Option MemoState := none
  pinned : Option Bool := none
  tags : Option (List String) := none
  /-- A new location, or that there is to be none. -/
  location : Option (Option Location) := none
deriving Repr, DecidableEq

namespace MemoEdit

/-- The fields of a change. -/
def record : Json.Record MemoEdit :=
  (fun content visibility state pinned tags location =>
      ⟨content, visibility, state, pinned, tags, location⟩)
    <$> .nullable "content" Json.readString
    <*> .nullable "visibility" Visibility.reader
    <*> .nullable "state" MemoState.reader
    <*> .nullable "pinned" Json.readBool
    <*> .nullable "tags" (Json.readList Json.readString)
    <*> .withDefault "location" (.map some (Json.readOption Location.record.read)) none

/-- Refuses a change to a location that is nowhere on the globe. -/
def validate (e : MemoEdit) : Except Error Unit :=
  match e.location with
  | some (some l) => l.validate
  | _ => .ok ()

/-- The memo with the change made, apart from its update time. -/
def apply (e : MemoEdit) (m : Memo) : Memo where
  id := m.id
  uid := m.uid
  creator := m.creator
  content := e.content.getD m.content
  visibility := e.visibility.getD m.visibility
  state := e.state.getD m.state
  pinned := e.pinned.getD m.pinned
  created := m.created
  updated := m.updated
  location := e.location.getD m.location
  tags := (e.tags.map Tag.normalize).getD m.tags
  property := (e.content.map Property.ofContent).getD m.property

end MemoEdit

end SharedMemos
