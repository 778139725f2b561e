import SharedMemos.Filter.Attribute

/-!
# Types of expressions

A filter is checked before it is used: every variable has a type, every operator is applied to
operands that it is defined on, and the filter itself is a truth value. The type `any`, that of the
elements of an empty list, fits everywhere.
-/

namespace SharedMemos.Filter

namespace Ty

/-- Can values of the two types be compared? -/
def compatible : Ty → Ty → Bool
  | .any, _ => true
  | _, .any => true
  | .list a, .list b => a.compatible b
  | a, b => a == b

/-- Does the type fit where `want` is asked for? -/
def fits (t want : Ty) : Bool :=
  t == .any || t == want

end Ty

/-- The variables that are bound, innermost first. -/
abbrev Scope := List (String × Ty)

/-- The type of a variable: of its innermost binding, or of the attribute of that name. -/
def Scope.typeOf? (scope : Scope) (name : String) : Option Ty :=
  match scope.find? (·.1 == name) with
  | some (_, t) => some t
  | none => (Attribute.ofName? name).map Attribute.type

/-- The type of a value; the first item of a list speaks for all. -/
def Value.type : Value → Ty
  | .bool _ => .bool
  | .int _ => .int
  | .string _ => .string
  | .list [] => .list .any
  | .list (v :: _) => .list v.type

/-- The type of an operator or function applied to operands, where it is defined on them. -/
def Op.resultType? (op : Op) (receiver : Option Ty) (args : List Ty) : Option Ty :=
  match receiver, args with
  | none, [l, r] =>
    match op with
    | .or | .and => if l.fits .bool && r.fits .bool then some .bool else none
    | .eq | .ne => if l.compatible r then some .bool else none
    | .lt | .le | .gt | .ge =>
      if l.compatible r && (l.fits .int || l.fits .string) then some .bool else none
    | .isIn =>
      match r with
      | .list element => if l.compatible element then some .bool else none
      | _ => none
    | .add =>
      if l.compatible r && l != .bool then some (if l == .any then r else l) else none
    | .sub | .mul | .div | .mod => if l.fits .int && r.fits .int then some .int else none
    | _ => none
  | none, [x] =>
    match op with
    | .not => if x.fits .bool then some .bool else none
    | .neg => if x.fits .int then some .int else none
    | .size =>
      match x with
      | .string | .list _ | .any => some .int
      | _ => none
    | _ => none
  | none, [] => if op = .now then some .int else none
  | some s, [x] =>
    match op with
    | .contains | .startsWith | .endsWith =>
      if s.fits .string && x.fits .string then some .bool else none
    | _ => none
  | some x, [] =>
    match op, x with
    | .size, .string | .size, .list _ | .size, .any => some .int
    | _, _ => none
  | _, _ => none

/-- The type of an application, or why it has none. -/
def Op.infer (op : Op) (receiver : Option Ty) (args : List Ty) : Except TypeFault Ty :=
  (op.resultType? receiver args).elim (.error (.noOverload op receiver args)) .ok

/-- The type of the elements that a comprehension ranges over. -/
def elementType (q : Quantifier) : Ty → Except TypeFault Ty
  | .list element => .ok element
  | .any => .ok .any
  | t => .error (.rangeNotList q t)

mutual

/-- The type of an expression. -/
def infer (scope : Scope) : Expr → Except TypeFault Ty
  | .const v => .ok v.type
  | .var name => (scope.typeOf? name).elim (.error (.undeclared name)) .ok
  | .list items => (inferItems scope .any items).map .list
  | .call op args =>
    match inferAll scope args with
    | .error e => .error e
    | .ok types => op.infer none types
  | .method op receiver args =>
    match infer scope receiver with
    | .error e => .error e
    | .ok s =>
      match inferAll scope args with
      | .error e => .error e
      | .ok types => op.infer (some s) types
  | .quantified q binder range body =>
    match infer scope range with
    | .error e => .error e
    | .ok t =>
      match elementType q t with
      | .error e => .error e
      | .ok element =>
        match infer ((binder, element) :: scope) body with
        | .error e => .error e
        | .ok t => if t.fits .bool then .ok .bool else .error .bodyNotBool

/-- The types of expressions, in order. -/
def inferAll (scope : Scope) : List Expr → Except TypeFault (List Ty)
  | [] => .ok []
  | e :: es =>
    match infer scope e with
    | .error fault => .error fault
    | .ok t => (inferAll scope es).map (t :: ·)

/-- The common type of the items of a list; `element` is that of the items before. -/
def inferItems (scope : Scope) (element : Ty) : List Expr → Except TypeFault Ty
  | [] => .ok element
  | e :: es =>
    match infer scope e with
    | .error fault => .error fault
    | .ok t =>
      if element = .any then inferItems scope t es
      else if element.compatible t then inferItems scope element es
      else .error (.mixedList element t)

end

/-- Checks that an expression can be used as a filter: it has a type, and that is `bool`. -/
def checkFilter (e : Expr) : Except TypeFault Unit :=
  match infer [] e with
  | .error fault => .error fault
  | .ok .bool => .ok ()
  | .ok t => .error (.filterNotBool t)

end SharedMemos.Filter
