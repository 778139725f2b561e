import SharedMemos.Attachment.Basic
import SharedMemos.Memo.Basic
import SharedMemos.Upload.Session

/-!
# The database

The tables of the server and the statements on them. Rows are kept latest first. A table that
numbers its rows never gives a number twice. Statements that belong together make a transaction: if
one of them fails, none has happened.

Any kind of statement on a table can be made to fail, or to pass rows over without a word, so that
what the server does about it is part of the model.
-/

namespace SharedMemos.Server

open SharedMemos.Upload

/-- The tables. -/
inductive Table where
  | memo | event | recipient | attachment | session | setting
deriving Repr, DecidableEq

/-- The kinds of statements that write. -/
inductive Writing where
  | insert | update | delete
deriving Repr, DecidableEq

/-- What is wrong with a kind of statement. -/
inductive Mishap where
  /-- It fails. -/
  | fails
  /-- It passes every row over. -/
  | passes
deriving Repr, DecidableEq

/-- The database. -/
structure Database where
  memos : List Memo := []
  /-- The latest number of a memo. -/
  lastMemo : Int := 0
  events : List ChangeEvent := []
  lastEvent : Int := 0
  attachments : List Attachment := []
  lastAttachment : Int := 0
  sessions : List Session := []
  settings : List (String × String) := []
  /-- What is wrong with which statements. -/
  mishaps : List (Table × Writing × Mishap) := []
deriving Inhabited

/-- Statements that are carried out together. -/
abbrev Transaction (α : Type) := StateT Database (Except Error) α

namespace Database

/-- The complaint of a statement that fails. -/
def failure : Error :=
  .database "the statement failed"

/-- What is wrong with a kind of statement on a table. -/
def mishap? (d : Database) (table : Table) (writing : Writing) : Option Mishap :=
  (d.mishaps.find? fun m => m.1 == table && m.2.1 == writing).map (·.2.2)

/-- Puts a kind of statement wrong, or right. -/
def setMishap (d : Database) (table : Table) (writing : Writing) (mishap : Option Mishap) :
    Database :=
  let others := d.mishaps.filter fun m => !(m.1 == table && m.2.1 == writing)
  { d with mishaps := (mishap.toList.map fun m => (table, writing, m)) ++ others }

/-- Comes before a statement writes a row: tells whether the row is to be written. -/
def allows (table : Table) (writing : Writing) : Transaction Bool := do
  match (← get).mishap? table writing with
  | none => return true
  | some .passes => return false
  | some .fails => throw failure

/-- Comes before a statement that has to write its row. -/
def require (table : Table) (writing : Writing) : Transaction Unit := do
  if !(← allows table writing) then throw failure

end Database

end SharedMemos.Server
