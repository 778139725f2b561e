import SharedMemos.Query.Memo
import Mathlib.Data.List.Basic
import Mathlib.Data.String.Basic
import Mathlib.Tactic.Common

/-!
# Reading a condition back from its text

The store gets the text of a condition and nothing else, so the text has to say what the condition
means. Here the text is read by the rules of SQL as far as clauses of a prefilter make use of them:
blanks separate words, a negation binds more tightly than a conjunction, alternatives stand in the
brackets of the subquery, and what stands in a list of holes is counted.

## Main results

* `pieces_intercalate` — a text cut into words and marks
* `separated_joined` — one lemma for what stands between commas, `OR` and `AND`
* `read?_all` — the clauses of a conjunction are read back as they were
-/

namespace SharedMemos.Query

namespace Condition

/-! ### The texts, one by one -/

theorem sql_equals (c : Column) : (Condition.equals c).sql = c.name ++ " = ?" := rfl

theorem sql_among (c : Column) (n : Nat) : (Condition.among c n).sql
    = c.name ++ " IN (" ++ ", ".intercalate (List.replicate n "?") ++ ")" := rfl

theorem sql_anyTag (tests : List TagTest) : (Condition.anyTag tests).sql
    = "EXISTS (SELECT 1 FROM json_each(m.tags) jt WHERE "
      ++ (if tests.isEmpty then "0" else " OR ".intercalate (tests.map TagTest.sql)) ++ ")" := rfl

theorem sql_not (p : Condition) : p.not.sql = "NOT " ++ p.sql := rfl

theorem sqlAll_eq_map : ∀ cs : List Condition, sqlAll cs = cs.map sql
  | [] => rfl
  | c :: cs => congrArg (c.sql :: ·) (sqlAll_eq_map cs)

theorem sql_all (cs : List Condition) : (Condition.all cs).sql
    = if cs.isEmpty then "1" else " AND ".intercalate (cs.map sql) := by
  rw [← sqlAll_eq_map]
  rfl

theorem sql_any (cs : List Condition) : (Condition.any cs).sql
    = if cs.isEmpty then "0" else "(" ++ " OR ".intercalate (cs.map sql) ++ ")" := by
  rw [← sqlAll_eq_map]
  rfl

end Condition

namespace Sql

/-! ### Words and marks -/

/-- A word of a text, or a mark. -/
inductive Piece where
  | word (s : String)
  | mark (c : Char)
deriving Repr, DecidableEq

/-- The marks. -/
def marks : List Char := ['(', ')', ',', '=', '?']

/-- Does a word end before the character? -/
def isApart (c : Char) : Bool :=
  c == ' ' || marks.contains c

/-- The word of the characters read so far, newest first, if there are any. -/
def wordOf (acc : List Char) : List Piece :=
  if acc.isEmpty then [] else [.word (String.ofList acc.reverse)]

/-- The words and marks of a text behind the characters of a word. -/
def piecesFrom : (acc : List Char) → List Char → List Piece
  | acc, [] => wordOf acc
  | acc, c :: cs =>
    if c = ' ' then wordOf acc ++ piecesFrom [] cs
    else if marks.contains c then wordOf acc ++ .mark c :: piecesFrom [] cs
    else piecesFrom (c :: acc) cs

/-- The words and marks of a text. -/
def pieces (text : List Char) : List Piece :=
  piecesFrom [] text

section Pieces

variable {a b : List Char}

/-- A text may be cut before a blank or a mark. -/
theorem piecesFrom_append (hb : b.head?.all isApart = true) (acc : List Char) :
    piecesFrom acc (a ++ b) = piecesFrom acc a ++ pieces b := by
  induction a generalizing acc with
  | nil =>
    cases b with
    | nil => simp [pieces, piecesFrom, wordOf]
    | cons c b =>
      have hc : c = ' ' ∨ marks.contains c = true := by simpa [isApart] using hb
      rw [List.nil_append, pieces, piecesFrom, piecesFrom, piecesFrom]
      split
      · rfl
      · rw [if_pos (hc.resolve_left ‹_›), if_pos (hc.resolve_left ‹_›)]
        rfl
  | cons c a ih =>
    rw [List.cons_append, piecesFrom, piecesFrom]
    split
    · rw [ih, List.append_assoc]
    · split
      · rw [ih, List.append_assoc, List.cons_append]
      · rw [ih]

theorem pieces_append_right (hb : b.head?.all isApart = true) :
    pieces (a ++ b) = pieces a ++ pieces b :=
  piecesFrom_append hb []

/-- A text may be cut behind a blank or a mark. -/
theorem pieces_append_left (ha : a.getLast?.all isApart = true) :
    pieces (a ++ b) = pieces a ++ pieces b := by
  rcases List.eq_nil_or_concat a with rfl | ⟨front, c, rfl⟩
  · rfl
  · have hc : isApart c = true := by simpa using ha
    have hcons : pieces (c :: b) = pieces [c] ++ pieces b := by
      by_cases hblank : c = ' '
      · rw [hblank]
        rfl
      · have hmark : marks.contains c = true := by simpa [isApart, hblank] using hc
        rw [pieces, pieces, piecesFrom, piecesFrom, if_neg hblank, if_neg hblank, if_pos hmark,
          if_pos hmark]
        rfl
    rw [List.concat_eq_append, List.append_assoc, List.singleton_append,
      pieces_append_right (by simpa using hc), hcons,
      pieces_append_right (b := [c]) (by simpa using hc), List.append_assoc]

/-- A separator that starts and ends with a blank or a mark stays one. -/
theorem pieces_intercalate {sep : List Char} (hfirst : sep.head?.any isApart = true)
    (hlast : sep.getLast?.any isApart = true) : ∀ texts : List (List Char),
    pieces (sep.intercalate texts) = (pieces sep).intercalate (texts.map pieces)
  | [] => rfl
  | [text] => by simp
  | text :: next :: texts => by
    have hcut : (text ++ sep).getLast?.all isApart = true := by
      obtain ⟨c, hc, hapart⟩ := (Option.any_eq_true _ _).mp hlast
      rw [List.getLast?_append, hc]
      exact hapart
    have hcut' : sep.head?.all isApart = true := by
      obtain ⟨c, hc, hapart⟩ := (Option.any_eq_true _ _).mp hfirst
      rw [hc]
      exact hapart
    rw [List.intercalate_cons_cons, pieces_append_left hcut, pieces_append_right hcut',
      pieces_intercalate hfirst hlast (next :: texts)]
    simp

end Pieces

/-! ### Lists -/

/-- The pieces of a list of items with a separator between them. -/
def joined (sep : Piece) (items : List (List Piece)) : List Piece :=
  [sep].intercalate items

/-- Reads items with a separator between them, as many as there are. -/
def separated {α : Type} (item : List Piece → Option (α × List Piece)) (sep : Piece) :
    (fuel : Nat) → List Piece → Option (List α × List Piece)
  | 0, _ => none
  | fuel + 1, ts =>
    match item ts with
    | none => none
    | some (x, []) => some ([x], [])
    | some (x, t :: rest) =>
      if t = sep then (separated item sep fuel rest).map fun (xs, rest) => (x :: xs, rest)
      else some ([x], t :: rest)

/-- **What was written with separators is read with them**, where each item is read back and what
follows the last one is no separator. -/
theorem separated_joined {α : Type} {item : List Piece → Option (α × List Piece)}
    {sep : Piece} {written : α → List Piece} {rest : List Piece} (hrest : rest.head? ≠ some sep) :
    ∀ {xs : List α} {fuel : Nat}, xs ≠ [] → xs.length ≤ fuel →
      (∀ x ∈ xs, ∀ rest, item (written x ++ rest) = some (x, rest)) →
      separated item sep fuel (joined sep (xs.map written) ++ rest) = some (xs, rest)
  | [], _, hxs, _, _ => absurd rfl hxs
  | [x], fuel + 1, _, _, hitem => by
    rw [List.map_singleton, joined, List.intercalate_singleton, separated, hitem x (by simp)]
    cases rest with
    | nil => rfl
    | cons t rest =>
      have ht : t ≠ sep := fun ht => hrest (congrArg some ht)
      exact if_neg ht
  | x :: y :: xs, fuel + 1, _, hfuel, hitem => by
    have hmore := separated_joined hrest (List.cons_ne_nil y xs) (Nat.le_of_succ_le_succ hfuel)
      fun z hz => hitem z (List.mem_cons_of_mem x hz)
    rw [List.map_cons, joined] at hmore
    rw [List.map_cons, List.map_cons, joined, List.intercalate_cons_cons, List.append_assoc,
      List.append_assoc, separated, hitem x (by simp), List.singleton_append]
    dsimp only
    rw [if_pos rfl, hmore]
    rfl

theorem length_le_joined {α : Type} {sep : Piece} {written : α → List Piece} :
    ∀ {xs : List α}, (∀ x ∈ xs, written x ≠ []) →
      xs.length ≤ (joined sep (xs.map written)).length
  | [], _ => Nat.zero_le _
  | [x], h => by
    rw [List.map_singleton, joined, List.intercalate_singleton]
    exact List.length_pos_iff.mpr (h x (by simp))
  | x :: y :: xs, h => by
    have hmore : (y :: xs).length ≤ (joined sep ((y :: xs).map written)).length :=
      length_le_joined fun z hz => h z (List.mem_cons_of_mem x hz)
    rw [List.map_cons, joined] at hmore
    rw [List.map_cons, List.map_cons, joined, List.intercalate_cons_cons, List.length_append,
      List.length_append, List.length_cons]
    simp only [List.length_cons, List.length_nil] at hmore ⊢
    omega

/-- The length of what was written is fuel enough. -/
theorem separated_written {α : Type} {item : List Piece → Option (α × List Piece)} {sep : Piece}
    {written : α → List Piece} {rest : List Piece} {xs : List α} (hxs : xs ≠ [])
    (hrest : rest.head? ≠ some sep) (hne : ∀ x ∈ xs, written x ≠ [])
    (hitem : ∀ x ∈ xs, ∀ rest, item (written x ++ rest) = some (x, rest)) :
    separated item sep (joined sep (xs.map written) ++ rest).length
      (joined sep (xs.map written) ++ rest) = some (xs, rest) := by
  refine separated_joined hrest hxs ?_ hitem
  have hlength : xs.length ≤ (joined sep (xs.map written)).length := length_le_joined hne
  rw [List.length_append]
  omega

/-! ### Conditions -/

/-- The column of that name. -/
def column? (name : String) : Option Column :=
  [Column.creator, .visibility, .state, .pinned, .hasLink, .hasTaskList, .hasCode,
    .hasIncompleteTasks, .updated].find? (·.name == name)

/-- Reads a hole. -/
def hole? : List Piece → Option (Unit × List Piece)
  | .mark '?' :: rest => some ((), rest)
  | _ => none

/-- Reads a test of a tag. -/
def test? : List Piece → Option (TagTest × List Piece)
  | .word "jt.value" :: .mark '=' :: .mark '?' :: rest => some (.equals, rest)
  | .word "substr" :: .mark '(' :: .word "jt.value" :: .mark ',' :: .word "1" :: .mark ','
      :: .word "length" :: .mark '(' :: .mark '?' :: .mark ')' :: .mark ')' :: .mark '='
      :: .mark '?' :: rest => some (.startsWith, rest)
  | _ => none

/-- Reads the bracket behind a condition. -/
def closing? (c : Condition) : List Piece → Option (Condition × List Piece)
  | .mark ')' :: rest => some (c, rest)
  | _ => none

/-- Reads the alternatives of a subquery, and the bracket behind them. -/
def alternatives? (ts : List Piece) : Option (Condition × List Piece) :=
  match separated test? (.word "OR") ts.length ts with
  | some (tests, rest) => closing? (.anyTag tests) rest
  | none =>
    match ts with
    | .word "0" :: rest => closing? (.anyTag []) rest
    | _ => none

/-- Reads what a column is compared with. -/
def comparison? (c : Column) : List Piece → Option (Condition × List Piece)
  | .mark '=' :: .mark '?' :: rest => some (.equals c, rest)
  | .word "IN" :: .mark '(' :: rest =>
    match separated hole? (.mark ',') rest.length rest with
    | some (holes, rest) => closing? (.among c holes.length) rest
    | none => none
  | _ => none

/-- Reads a condition without an operator in front of it. -/
def atom? : List Piece → Option (Condition × List Piece)
  | .word "0" :: rest => some (.never, rest)
  | .word "1" :: rest => some (.always, rest)
  | .word "EXISTS" :: .mark '(' :: .word "SELECT" :: .word "1" :: .word "FROM"
      :: .word "json_each" :: .mark '(' :: .word "m.tags" :: .mark ')' :: .word "jt"
      :: .word "WHERE" :: rest => alternatives? rest
  | .word name :: rest => (column? name).bind fun c => comparison? c rest
  | _ => none

/-- Reads a condition with the negations in front of it. -/
def literal? : List Piece → Option (Condition × List Piece)
  | .word "NOT" :: rest => (literal? rest).map fun (c, rest) => (.not c, rest)
  | ts => atom? ts

/-- The condition that a text says. -/
def read? (text : String) : Option Condition :=
  let ts := pieces text.toList
  match separated literal? (.word "AND") ts.length ts with
  | some (cs, []) => some (.all cs)
  | _ => none

/-! ### Clauses are read back -/

/-- Is the condition read back from its text, whatever follows? -/
def IsReadable (c : Condition) : Prop :=
  ∀ rest, literal? (pieces c.sql.toList ++ rest) = some (c, rest)

theorem pieces_name (c : Column) : pieces c.name.toList = [.word c.name] := by
  cases c <;> decide

theorem column?_name (c : Column) : column? c.name = some c := by
  cases c <;> decide

theorem test?_written (t : TagTest) (rest : List Piece) :
    test? (pieces t.sql.toList ++ rest) = some (t, rest) := by
  cases t with
  | equals =>
    have hpieces : pieces TagTest.equals.sql.toList
        = [.word "jt.value", .mark '=', .mark '?'] := by
      decide
    rw [hpieces]
    rfl
  | startsWith =>
    have hpieces : pieces TagTest.startsWith.sql.toList
        = [.word "substr", .mark '(', .word "jt.value", .mark ',', .word "1", .mark ',',
          .word "length", .mark '(', .mark '?', .mark ')', .mark ')', .mark '=', .mark '?'] := by
      decide
    rw [hpieces]
    rfl

/-- A comparison of a column is read by what follows its name. -/
theorem literal?_comparison {c : Column} {ts rest : List Piece} {p : Condition}
    (h : comparison? c ts = some (p, rest)) : literal? (.word c.name :: ts) = some (p, rest) := by
  have hatom : literal? (.word c.name :: ts) = (column? c.name).bind fun c => comparison? c ts := by
    cases c <;> rfl
  rw [hatom, column?_name]
  exact h

theorem isReadable_equals (c : Column) : IsReadable (.equals c) := by
  intro rest
  have hhole : pieces " = ?".toList = [.mark '=', .mark '?'] := by decide
  rw [Condition.sql_equals, String.toList_append,
    pieces_append_right (b := " = ?".toList) (by decide), pieces_name, hhole]
  have hcompare : comparison? c (.mark '=' :: .mark '?' :: rest) = some (.equals c, rest) := rfl
  exact literal?_comparison hcompare

theorem pieces_holes (n : Nat) : pieces (", ".intercalate (List.replicate n "?")).toList
    = joined (.mark ',') ((List.replicate n ()).map fun _ => [.mark '?']) := by
  have hcomma : pieces ", ".toList = [.mark ','] := by decide
  have hhole : pieces "?".toList = [.mark '?'] := by decide
  rw [String.toList_intercalate, pieces_intercalate (by decide) (by decide), hcomma,
    List.map_replicate, List.map_replicate, List.map_replicate, hhole]
  rfl

theorem isReadable_among (c : Column) {n : Nat} (hn : n ≠ 0) : IsReadable (.among c n) := by
  intro rest
  have hopen : pieces " IN (".toList = [.word "IN", .mark '('] := by decide
  have hclose : pieces ")".toList = [.mark ')'] := by decide
  have htext : pieces (Condition.among c n).sql.toList = .word c.name :: .word "IN" :: .mark '(' ::
      (joined (.mark ',') ((List.replicate n ()).map fun _ => [.mark '?']) ++ [.mark ')']) := by
    rw [Condition.sql_among, String.toList_append, String.toList_append, String.toList_append,
      pieces_append_right (b := ")".toList) (by decide), List.append_assoc,
      pieces_append_right (by rfl), pieces_append_left (a := " IN (".toList) (by decide),
      pieces_name, hopen, pieces_holes, hclose]
    rfl
  have hholes : separated hole? (.mark ',')
      (joined (.mark ',') ((List.replicate n ()).map fun _ => [Piece.mark '?'])
        ++ .mark ')' :: rest).length
      (joined (.mark ',') ((List.replicate n ()).map fun _ => [Piece.mark '?'])
        ++ .mark ')' :: rest) = some (List.replicate n (), .mark ')' :: rest) :=
    separated_written (by simpa using hn) (by simp) (by simp) fun _ _ _ => rfl
  have hcompare : comparison? c (.word "IN" :: .mark '(' ::
      (joined (.mark ',') ((List.replicate n ()).map fun _ => [Piece.mark '?'])
        ++ .mark ')' :: rest)) = some (.among c n, rest) := by
    rw [comparison?, hholes]
    simp [closing?]
  rw [htext, List.cons_append, List.cons_append, List.cons_append, List.append_assoc,
    List.singleton_append]
  exact literal?_comparison hcompare

/-- The pieces of a subquery up to its alternatives. -/
def subquery : List Piece :=
  [.word "EXISTS", .mark '(', .word "SELECT", .word "1", .word "FROM", .word "json_each",
    .mark '(', .word "m.tags", .mark ')', .word "jt", .word "WHERE"]

theorem literal?_subquery (ts : List Piece) : literal? (subquery ++ ts) = alternatives? ts := rfl

theorem pieces_alternatives (tests : List TagTest) :
    pieces (if tests.isEmpty then "0" else " OR ".intercalate (tests.map TagTest.sql)).toList
      = if tests.isEmpty then [.word "0"]
        else joined (.word "OR") (tests.map fun t => pieces t.sql.toList) := by
  have hor : pieces " OR ".toList = [.word "OR"] := by decide
  split
  · decide
  · rw [String.toList_intercalate, pieces_intercalate (by decide) (by decide), hor, List.map_map,
      List.map_map]
    rfl

/-- The alternatives of a subquery are read up to its bracket. -/
theorem alternatives?_written (tests : List TagTest) (rest : List Piece) :
    alternatives? ((if tests.isEmpty then [.word "0"]
        else joined (.word "OR") (tests.map fun t => pieces t.sql.toList))
      ++ .mark ')' :: rest) = some (.anyTag tests, rest) := by
  cases tests with
  | nil => rfl
  | cons t ts =>
    have hne : ∀ t : TagTest, pieces t.sql.toList ≠ [] := by
      intro t hempty
      have hread := test?_written t []
      rw [hempty] at hread
      cases hread
    have hread : separated test? (.word "OR")
        (joined (.word "OR") ((t :: ts).map fun t : TagTest => pieces t.sql.toList)
          ++ .mark ')' :: rest).length
        (joined (.word "OR") ((t :: ts).map fun t : TagTest => pieces t.sql.toList)
          ++ .mark ')' :: rest) = some (t :: ts, .mark ')' :: rest) :=
      separated_written (by simp) (by simp) (fun t _ => hne t) fun t _ => test?_written t
    rw [List.isEmpty_cons, if_neg (by simp), alternatives?.eq_def, hread]
    rfl

theorem isReadable_anyTag (tests : List TagTest) : IsReadable (.anyTag tests) := by
  intro rest
  have hopen : pieces "EXISTS (SELECT 1 FROM json_each(m.tags) jt WHERE ".toList = subquery := by
    decide
  have hclose : pieces ")".toList = [.mark ')'] := by decide
  rw [Condition.sql_anyTag, String.toList_append, String.toList_append,
    pieces_append_right (b := ")".toList) (by decide),
    pieces_append_left (a := "EXISTS (SELECT 1 FROM json_each(m.tags) jt WHERE ".toList)
      (by decide), hopen, hclose, pieces_alternatives, List.append_assoc, List.append_assoc,
    List.singleton_append, literal?_subquery]
  exact alternatives?_written tests rest

theorem literal?_not (ts : List Piece) :
    literal? (.word "NOT" :: ts) = (literal? ts).map fun (c, rest) => (.not c, rest) := by
  rw [literal?]

theorem IsReadable.not {p : Condition} (h : IsReadable p) : IsReadable (.not p) := by
  intro rest
  have hnot : pieces "NOT ".toList = [.word "NOT"] := by decide
  rw [Condition.sql_not, String.toList_append, pieces_append_left (a := "NOT ".toList) (by decide),
    hnot]
  rw [List.append_assoc, List.singleton_append, literal?_not, h rest]
  rfl

/-- **The clauses of a conjunction are read back as they were.** -/
theorem read?_all {cs : List Condition} (hcs : cs ≠ []) (h : ∀ c ∈ cs, IsReadable c) :
    read? (Condition.all cs).sql = some (.all cs) := by
  have hand : pieces " AND ".toList = [.word "AND"] := by decide
  have htext : pieces (Condition.all cs).sql.toList
      = joined (.word "AND") (cs.map fun c => pieces c.sql.toList) := by
    rw [Condition.sql_all, if_neg (by simpa using hcs), String.toList_intercalate,
      pieces_intercalate (by decide) (by decide), hand, List.map_map, List.map_map]
    rfl
  have hne : ∀ c ∈ cs, pieces c.sql.toList ≠ [] := by
    intro c hc hempty
    have hread := h c hc []
    rw [hempty] at hread
    cases hread
  have hread : separated literal? (.word "AND")
      (joined (.word "AND") (cs.map fun c : Condition => pieces c.sql.toList) ++ []).length
      (joined (.word "AND") (cs.map fun c : Condition => pieces c.sql.toList) ++ [])
        = some (cs, []) :=
    separated_written hcs (by simp) hne h
  rw [List.append_nil] at hread
  rw [read?, htext, hread]

end Sql

end SharedMemos.Query
