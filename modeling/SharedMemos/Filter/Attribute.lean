import SharedMemos.Memo.Basic
import SharedMemos.Filter.Fault

/-!
# Attributes of a memo

The variables that a filter may use without binding them, each with its type and its value for a
memo.
-/

namespace SharedMemos.Filter

/-- A variable that stands for something of the memo. -/
inductive Attribute where
  | creator | created | updated | visibility | state | content
  | pinned | hasLink | hasTaskList | hasCode | hasIncompleteTasks | tags
deriving Repr, DecidableEq

namespace Attribute

/-- All attributes. -/
def all : List Attribute :=
  [.creator, .created, .updated, .visibility, .state, .content,
    .pinned, .hasLink, .hasTaskList, .hasCode, .hasIncompleteTasks, .tags]

/-- The name of the variable. -/
def name : Attribute → String
  | .creator => "creator_id"
  | .created => "created_ts"
  | .updated => "updated_ts"
  | .visibility => "visibility"
  | .state => "state"
  | .content => "content"
  | .pinned => "pinned"
  | .hasLink => "has_link"
  | .hasTaskList => "has_task_list"
  | .hasCode => "has_code"
  | .hasIncompleteTasks => "has_incomplete_tasks"
  | .tags => "tags"

/-- The attribute with the given name. -/
def ofName? (s : String) : Option Attribute :=
  all.find? (·.name == s)

/-- The type of its values. -/
def type : Attribute → Ty
  | .creator | .created | .updated => .int
  | .visibility | .state | .content => .string
  | .pinned | .hasLink | .hasTaskList | .hasCode | .hasIncompleteTasks => .bool
  | .tags => .list .string

/-- Its value for a memo. Times are whole seconds. -/
def value (m : Memo) : Attribute → Value
  | .creator => .int m.creator
  | .created => .int m.created.seconds
  | .updated => .int m.updated.seconds
  | .visibility => .string m.visibility.name
  | .state => .string m.state.name
  | .content => .string m.content
  | .pinned => .bool m.pinned
  | .hasLink => .bool m.property.hasLink
  | .hasTaskList => .bool m.property.hasTaskList
  | .hasCode => .bool m.property.hasCode
  | .hasIncompleteTasks => .bool m.property.hasIncompleteTasks
  | .tags => .list (m.tags.map .string)

end Attribute

end SharedMemos.Filter
