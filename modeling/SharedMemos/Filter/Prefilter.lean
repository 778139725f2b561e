import SharedMemos.Filter.Attribute

/-!
# Prefilters

A prefilter is a conjunction of simple constraints that a store can check by itself. The prefilter
derived from an expression admits every memo that satisfies the expression; it may admit more, and
whatever the derivation does not recognise contributes no constraint.

An empty list and a missing flag constrain nothing.
-/

namespace SharedMemos.Filter

/-- How a tag is compared. -/
inductive TagMatch where
  | exact
  | prefixed
deriving Repr, DecidableEq

/-- Position of a kind of comparison among all. -/
def TagMatch.rank : TagMatch → Nat
  | .exact => 0
  | .prefixed => 1

/-- A test of one tag. -/
structure TagOption where
  kind : TagMatch
  value : String
deriving Repr, DecidableEq

namespace TagOption

/-- Does the tag pass the test? -/
def accepts (o : TagOption) (tag : String) : Bool :=
  match o.kind with
  | .exact => tag == o.value
  | .prefixed => o.value.toList.isPrefixOf tag.toList

/-- Order by kind and then by text. -/
def order (a b : TagOption) : Ordering :=
  (compare a.kind.rank b.kind.rank).then (compareOfLessAndEq a.value b.value)

end TagOption

/-- Alternatives: some tag passes some option. -/
structure TagGroup where
  options : List TagOption
deriving Repr, DecidableEq

/-- Does some tag pass some option? -/
def TagGroup.accepts (g : TagGroup) (tags : List String) : Bool :=
  tags.any fun tag => g.options.any (·.accepts tag)

/-- Lexicographic order of lists. -/
def lexOrder {α : Type} (order : α → α → Ordering) : List α → List α → Ordering
  | [], [] => .eq
  | [], _ :: _ => .lt
  | _ :: _, [] => .gt
  | a :: as, b :: bs => (order a b).then (lexOrder order as bs)

/-- The items in ascending order, each once. -/
def sortedSet {α : Type} [BEq α] (order : α → α → Ordering) (items : List α) : List α :=
  (items.mergeSort fun a b => (order a b).isLE).eraseDups

/-- A conjunction of constraints on a memo. -/
structure Prefilter where
  creators : List UserId := []
  visibilities : List Visibility := []
  states : List MemoState := []
  pinned : Option Bool := none
  hasLink : Option Bool := none
  hasTaskList : Option Bool := none
  hasCode : Option Bool := none
  hasIncompleteTasks : Option Bool := none
  /-- Groups that the tags must all pass. -/
  tagGroups : List TagGroup := []
  /-- Groups that the tags must not pass. -/
  excludedGroups : List TagGroup := []
  /-- Set when no memo passes. -/
  unsatisfiable : Bool := false
deriving Repr, DecidableEq

namespace Prefilter

/-- The prefilter that admits every memo. -/
def unconstrained : Prefilter := {}

/-- A prefilter that admits no memo. -/
def nothing : Prefilter := { unsatisfiable := true }

/-- Does the prefilter constrain nothing? -/
def isUnconstrained (p : Prefilter) : Bool :=
  p == unconstrained

/-- Is an item among the wanted ones, or nothing wanted in particular? -/
def amongWanted {α : Type} [BEq α] (wanted : List α) (x : α) : Bool :=
  wanted.isEmpty || wanted.contains x

/-- Has a flag the wanted value, if one is wanted? -/
def hasWanted (wanted : Option Bool) (b : Bool) : Bool :=
  wanted.all (· == b)

/-- Does the memo satisfy every constraint? -/
def admits (p : Prefilter) (m : Memo) : Bool :=
  !p.unsatisfiable
    && amongWanted p.creators m.creator
    && amongWanted p.visibilities m.visibility
    && amongWanted p.states m.state
    && hasWanted p.pinned m.pinned
    && hasWanted p.hasLink m.property.hasLink
    && hasWanted p.hasTaskList m.property.hasTaskList
    && hasWanted p.hasCode m.property.hasCode
    && hasWanted p.hasIncompleteTasks m.property.hasIncompleteTasks
    && p.tagGroups.all (·.accepts m.tags)
    && !p.excludedGroups.any (·.accepts m.tags)

/-- Items wanted by both; nothing where both want items and none is common. -/
def intersect {α : Type} [BEq α] (a b : List α) : Option (List α) :=
  if a.isEmpty then some b
  else if b.isEmpty then some a
  else
    let common := a.filter b.contains
    if common.isEmpty then none else some common

/-- Items wanted by either, in ascending order. -/
def union {α : Type} [BEq α] (order : α → α → Ordering) (a b : List α) : List α :=
  if a.isEmpty || b.isEmpty then [] else sortedSet order (a ++ b)

/-- The flag wanted by both; a contradiction is not kept. -/
def unify : Option Bool → Option Bool → Option Bool
  | none, b => b
  | a, none => a
  | some x, some y => if x = y then some x else none

/-- The flag wanted by each. -/
def widen : Option Bool → Option Bool → Option Bool
  | some x, some y => if x = y then some x else none
  | _, _ => none

/-- Order of groups. -/
def groupOrder (a b : TagGroup) : Ordering :=
  lexOrder TagOption.order a.options b.options

/-- Order of visibilities. -/
def visibilityOrder (a b : Visibility) : Ordering :=
  compare a.rank b.rank

/-- Order of states. -/
def stateOrder (a b : MemoState) : Ordering :=
  compare a.rank b.rank

/-- The constraints of both. -/
def and (p q : Prefilter) : Prefilter :=
  if p.unsatisfiable || q.unsatisfiable then nothing
  else
    match intersect p.creators q.creators, intersect p.visibilities q.visibilities,
      intersect p.states q.states with
    | some creators, some visibilities, some states =>
      { creators := creators
        visibilities := visibilities
        states := states
        pinned := unify p.pinned q.pinned
        hasLink := unify p.hasLink q.hasLink
        hasTaskList := unify p.hasTaskList q.hasTaskList
        hasCode := unify p.hasCode q.hasCode
        hasIncompleteTasks := unify p.hasIncompleteTasks q.hasIncompleteTasks
        tagGroups := sortedSet groupOrder (p.tagGroups ++ q.tagGroups)
        excludedGroups := sortedSet groupOrder (p.excludedGroups ++ q.excludedGroups) }
    | _, _, _ => nothing

/-- The constraints that hold where either holds. -/
def or (p q : Prefilter) : Prefilter :=
  if p.unsatisfiable then q
  else if q.unsatisfiable then p
  else
    { creators := union compare p.creators q.creators
      visibilities := union visibilityOrder p.visibilities q.visibilities
      states := union stateOrder p.states q.states
      pinned := widen p.pinned q.pinned
      hasLink := widen p.hasLink q.hasLink
      hasTaskList := widen p.hasTaskList q.hasTaskList
      hasCode := widen p.hasCode q.hasCode
      hasIncompleteTasks := widen p.hasIncompleteTasks q.hasIncompleteTasks
      tagGroups := p.tagGroups.filter q.tagGroups.contains
      excludedGroups := p.excludedGroups.filter q.excludedGroups.contains }

/-- The constraint that a flag has a value; other names constrain nothing. -/
def flag (name : String) (value : Bool) : Prefilter :=
  match Attribute.ofName? name with
  | some .pinned => { pinned := some value }
  | some .hasLink => { hasLink := some value }
  | some .hasTaskList => { hasTaskList := some value }
  | some .hasCode => { hasCode := some value }
  | some .hasIncompleteTasks => { hasIncompleteTasks := some value }
  | _ => unconstrained

/-- The members of a closed set that are among `values`, or are not where `negated` holds. -/
def allowed {α : Type} [BEq α] (all values : List α) (negated : Bool) : List α :=
  all.filter fun x => values.contains x != negated

/-- The constraint on a member of a closed set, built by `make`. -/
def ofAllowed {α : Type} (all : List α) (make : List α → Prefilter) (allowed : List α) :
    Prefilter :=
  if allowed.isEmpty then nothing
  else if allowed.length < all.length then make allowed
  else unconstrained

/-- The constraint that the visibility is among `values`, or is not. -/
def ofVisibilities (values : List Visibility) (negated : Bool) : Prefilter :=
  ofAllowed Visibility.all (fun vs => { visibilities := vs })
    (allowed Visibility.all values negated)

/-- The constraint that the state is among `values`, or is not. -/
def ofStates (values : List MemoState) (negated : Bool) : Prefilter :=
  ofAllowed MemoState.all (fun ss => { states := ss }) (allowed MemoState.all values negated)

/-- The constraint that some tag passes some option, or none does. -/
def ofTagOptions (options : List TagOption) (negated : Bool) : Prefilter :=
  match options, negated with
  | [], false => nothing
  | [], true => unconstrained
  | options, false => { tagGroups := [⟨sortedSet TagOption.order options⟩] }
  | options, true => { excludedGroups := [⟨sortedSet TagOption.order options⟩] }

/-- The constraint that a variable equals a literal, or does not. -/
def ofComparison (name : String) (v : Value) (negated : Bool) : Prefilter :=
  match Attribute.ofName? name, v with
  | some .creator, .int id => if negated then unconstrained else { creators := [id] }
  | some .visibility, .string s => ofVisibilities (Visibility.ofName? s).toList negated
  | some .state, .string s => ofStates (MemoState.ofName? s).toList negated
  | _, .bool b => flag name (b != negated)
  | _, _ => unconstrained

/-- The constraint that two operands are equal, or are not. -/
def ofEquality (l r : Expr) (negated : Bool) : Prefilter :=
  match l, r with
  | .var name, .const v => ofComparison name v negated
  | .const v, .var name => ofComparison name v negated
  | _, _ => unconstrained

/-- The values of a list of literals. -/
def literals? : List Expr → Option (List Value)
  | [] => some []
  | .const v :: rest => (literals? rest).map (v :: ·)
  | _ :: _ => none

/-- The integers among values. -/
def ints (values : List Value) : List Int :=
  values.filterMap fun
    | .int n => some n
    | _ => none

/-- The texts among values. -/
def strings (values : List Value) : List String :=
  values.filterMap fun
    | .string s => some s
    | _ => none

/-- The constraint that a variable is among literals, or is not. -/
def ofMembers (name : String) (values : List Value) (negated : Bool) : Prefilter :=
  match Attribute.ofName? name with
  | some .creator =>
    if negated then unconstrained
    else
      match ints values with
      | [] => nothing
      | ids => { creators := sortedSet compare ids }
  | some .visibility => ofVisibilities ((strings values).filterMap Visibility.ofName?) negated
  | some .state => ofStates ((strings values).filterMap MemoState.ofName?) negated
  | _ => unconstrained

/-- The constraint that the left operand is in the right one, or is not. -/
def ofMembership (l r : Expr) (negated : Bool) : Prefilter :=
  match l, r with
  | .const (.string tag), .var range =>
    if range = Attribute.tags.name then ofTagOptions [⟨.exact, tag⟩] negated else unconstrained
  | .var name, .list items =>
    (literals? items).elim unconstrained fun values => ofMembers name values negated
  | _, _ => unconstrained

/-- Is the expression the variable of that name? -/
def isVar (name : String) : Expr → Bool
  | .var n => n == name
  | _ => false

/-- The option that an equation between the bound tag and a text stands for. -/
def exactOption? (binder : String) (l r : Expr) : Option (List TagOption) :=
  match l, r with
  | v, .const (.string s) => if isVar binder v then some [⟨.exact, s⟩] else none
  | .const (.string s), v => if isVar binder v then some [⟨.exact, s⟩] else none
  | _, _ => none

/-- The options of the body of a comprehension over tags that says nothing but that the bound tag is
a text or starts with one, in alternatives. -/
def tagOptions? (binder : String) : Expr → Option (List TagOption)
  | .const (.bool false) => some []
  | .call .or [l, r] =>
    match tagOptions? binder l, tagOptions? binder r with
    | some a, some b => some (a ++ b)
    | _, _ => none
  | .call .eq [l, r] => exactOption? binder l r
  | .method .startsWith receiver [.const (.string s)] =>
    if isVar binder receiver then some [⟨.prefixed, s⟩] else none
  | _ => none

/-- The prefilter of an expression, or of its negation where `negated` holds: it admits every memo
for which the expression is true, or false. -/
def derive (negated : Bool) : Expr → Prefilter
  | .const (.bool b) => if b == negated then nothing else unconstrained
  | .var name => flag name !negated
  | .call .not [x] => derive (!negated) x
  | .call .and [l, r] =>
    if negated then (derive true l).or (derive true r)
    else (derive false l).and (derive false r)
  | .call .or [l, r] =>
    if negated then (derive true l).and (derive true r)
    else (derive false l).or (derive false r)
  | .call .eq [l, r] => ofEquality l r negated
  | .call .ne [l, r] => ofEquality l r !negated
  | .call .isIn [l, r] => ofMembership l r negated
  | .quantified .any binder (.var range) body =>
    if range = Attribute.tags.name then
      (tagOptions? binder body).elim unconstrained fun options => ofTagOptions options negated
    else unconstrained
  | _ => unconstrained

end Prefilter

end SharedMemos.Filter
