import SharedMemos.Memo.Location
import SharedMemos.Memo.Property
import SharedMemos.Memo.Tag
import SharedMemos.Time.Basic

/-!
# Memos

A memo belongs to its creator. Who else may see it is told by its visibility and by the tags that
grant access; whoever is granted access may also change it.
-/

namespace SharedMemos

/-- Who may see a memo, besides its creator and the users that its tags grant access. -/
inductive Visibility where
  /-- Nobody else. -/
  | restricted
  /-- Every signed-in user. -/
  | members
  /-- Everyone. -/
  | everyone
deriving Repr, DecidableEq, Inhabited

namespace Visibility

/-- All visibilities, from the narrowest to the widest. -/
def all : List Visibility := [.restricted, .members, .everyone]

/-- Its written name. -/
def name : Visibility → String
  | .restricted => "PRIVATE"
  | .members => "PROTECTED"
  | .everyone => "PUBLIC"

/-- The visibility with a written name. -/
def ofName? (s : String) : Option Visibility :=
  all.find? (·.name == s)

/-- Position among all visibilities. -/
def rank : Visibility → Nat
  | .restricted => 0
  | .members => 1
  | .everyone => 2

end Visibility

/-- Is a memo in use, or put away? -/
inductive MemoState where
  | normal
  | archived
deriving Repr, DecidableEq, Inhabited

namespace MemoState

/-- All states. -/
def all : List MemoState := [.normal, .archived]

/-- Its written name. -/
def name : MemoState → String
  | .normal => "NORMAL"
  | .archived => "ARCHIVED"

/-- The state with a written name. -/
def ofName? (s : String) : Option MemoState :=
  all.find? (·.name == s)

/-- Position among all states. -/
def rank : MemoState → Nat
  | .normal => 0
  | .archived => 1

end MemoState

/-- A user: the number that the proxy in front of the server signs a request with. -/
abbrev UserId := Int

/-- Who looks: a signed-in user, or nobody in particular. -/
abbrev Viewer := Option UserId

/-- A memo. -/
structure Memo where
  id : Int
  /-- The public half of its name. -/
  uid : String
  creator : UserId
  content : String
  visibility : Visibility
  state : MemoState
  pinned : Bool
  created : Instant
  updated : Instant
  location : Option Location
  tags : List String
  property : Property
deriving Repr, DecidableEq

namespace Memo

/-- Its resource name. -/
def name (m : Memo) : String :=
  "memos/" ++ m.uid

/-- The users that its tags grant access, in ascending order. -/
def collaborators (m : Memo) : List UserId :=
  Tag.sortedIds (Tag.grantees m.tags)

/-- Do its tags grant a user access? -/
def isCollaborator (m : Memo) (user : UserId) : Bool :=
  (Tag.grantees m.tags).contains user

/-- The visibility rule: nobody in particular sees what is open to everyone; a user also sees what
is open to members, the user's own memos, and those that grant the user access. -/
def isVisibleTo (m : Memo) : Viewer → Bool
  | none => m.visibility == .everyone
  | some user =>
    m.creator == user || m.visibility == .everyone || m.visibility == .members
      || m.isCollaborator user

/-- The creator and the users granted access may change and delete a memo. -/
def canModify (m : Memo) (user : UserId) : Bool :=
  m.creator == user || m.isCollaborator user

end Memo

/-- What a change event says. -/
inductive ChangeKind where
  /-- The memo was deleted. -/
  | deleted
  /-- The recipients lost their access. -/
  | revoked
deriving Repr, DecidableEq

namespace ChangeKind

/-- Its written name. -/
def name : ChangeKind → String
  | .deleted => "DELETE"
  | .revoked => "VISIBILITY_REVOKED"

/-- The kind with a written name. -/
def ofName? (s : String) : Option ChangeKind :=
  [deleted, revoked].find? (·.name == s)

end ChangeKind

/-- A record that a memo has left the view of some users. -/
structure ChangeEvent where
  id : Int
  memoId : Int
  memoName : String
  creator : UserId
  kind : ChangeKind
  time : Instant
  recipients : List UserId
deriving Repr, DecidableEq

end SharedMemos
