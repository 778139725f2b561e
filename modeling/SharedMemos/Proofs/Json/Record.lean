import SharedMemos.Proofs.Json.Number
import SharedMemos.Proofs.Json.Quote

/-!
# Records in JSON

A record is written as an object, one entry after the other. The reader notes where the value of
each field starts, passes over it, and reads it there a second time, once all entries have been
seen. A value is followed by the comma or the brace that ends its entry (`IsStop`), and a reader
that leaves this sign where it is reads the value at either time (`Reads`).

So a record is read back if each of its entries has a field that passes over the value, and if the
record is made of values read at such places. What is read of texts that were written otherwise is
known only backwards (`of_readEntries_quote`).

## Main results

* `readInt64_showInt` — an integer that is written and read back
* `Record.exists_readEntries` — the places of the entries of an object
* `Record.readText_object` — a record that is written and read back
* `Record.of_readText`, `Record.of_readEntries_quote` — records, read backwards
-/

namespace SharedMemos.Json

open SharedMemos.Text SharedMemos.Decimal

/-! ### Integers -/

section

variable {c : Char} {rest : List Sign}

/-- Digits of a number that fits are read as this number. -/
theorem unsigned?_toDigits (negative : Bool) {k : Nat} (hk : k ≤ maxNat64) (hc : IsStop c)
    (rest : List Sign) :
    unsigned? negative ((Nat.toDigits 10 k).map some ++ some c :: rest)
      = some (ofWhole negative k [], some c :: rest) := by
  have hdigits : ∀ d ∈ Nat.toDigits 10 k, d.isDigit = true := fun d hd =>
    Nat.isDigit_of_mem_toDigits (by decide) (by decide) hd
  have htaken : takeDigits 0 (Nat.toDigits 10 k) = (k, []) := by
    rw [takeDigits_of_le, Nat.ofDigitChars_ten_toDigits]
    rwa [Nat.ofDigitChars_ten_toDigits]
  rw [unsigned?, spanDigits_append hdigits hc.isDigit]
  dsimp only
  split
  · rename_i hnil
    exact absurd hnil Nat.toDigits_ne_nil
  · rename_i d ds hzero
    rcases Nat.eq_zero_or_pos k with rfl | hpos
    · cases hzero
    · exact absurd (congrArg List.head? hzero) (head?_toDigits_ne_zero (Nat.ne_of_gt hpos))
  · rw [htaken]
    dsimp only
    split
    · rename_i hpoint
      rcases hc with rfl | rfl <;> cases hpoint
    · rw [hc.exponent?]

/-- The value of a written integer. Without its sign, the least one is one beyond the greatest. -/
theorem scalar?_showInt {n : Int} (hlow : minInt64 ≤ n) (hhigh : n ≤ maxInt64) (hc : IsStop c) :
    scalar? (skipSpace (signsOf (showInt n) ++ some c :: rest))
      = some (some (.int n), some c :: rest) := by
  cases n with
  | ofNat k =>
    obtain ⟨d, ds, hds, -, hminus⟩ := exists_toDigits_eq_cons k
    have hk : k ≤ maxNat64 := (Int.ofNat_le.mp hhigh).trans (by decide)
    have hread := unsigned?_toDigits false hk hc rest
    have hdigit : d.isDigit = true :=
      Nat.isDigit_of_mem_toDigits (n := k) (b := 10) (by decide) (by decide) (by simp [hds])
    rw [signsOf, showInt, String.toList_ofList]
    rw [hds, List.map_cons, List.cons_append] at hread ⊢
    rw [(scalar?_eq_number? (.inl hdigit)).1, (scalar?_eq_number? (.inl hdigit)).2]
    simp [number?, hminus, hread, ofWhole]
  | negSucc k =>
    have hk : k + 1 ≤ maxInt64 + 1 := by
      simp only [minInt64, maxInt64] at hlow ⊢
      omega
    have hread := unsigned?_toDigits true (hk.trans (by decide)) hc rest
    have hvalue : ofWhole true (k + 1) [] = some (.int (Int.negSucc k)) := by
      rw [ofWhole, if_neg (by decide), if_neg (by decide), if_neg (Nat.succ_ne_zero k), if_pos hk]
      rfl
    rw [signsOf, showInt, String.toList_ofList, List.map_cons, List.cons_append,
      (scalar?_eq_number? (.inr rfl)).1, (scalar?_eq_number? (.inr rfl)).2, number?, hread, hvalue]

/-- **An integer that is written is read back**, and what ends its entry is left. -/
theorem readInt64_showInt {n : Int} (hlow : minInt64 ≤ n) (hhigh : n ≤ maxInt64) (hc : IsStop c) :
    readInt64 (signsOf (showInt n) ++ some c :: rest) = .ok (n, some c :: rest) := by
  simp only [readInt64, readInt, readScalar, scalar?_showInt hlow hhigh hc]
  rw [if_pos ⟨hlow, hhigh⟩]
  rfl

end

/-! ### Values in entries -/

/-- Is the value read where it is written in an entry? What ends the entry is left. -/
def Reads {α : Type} (read : Reader α) (j : Json) (a : α) : Prop :=
  ∀ (c : Char) (rest : List Sign), IsStop c →
    read (signsOf j.compress ++ some c :: rest) = .ok (a, some c :: rest)

theorem reads_string (s : String) : Reads readString (.string s) s :=
  fun _ _ _ => readString_quote s _

theorem reads_int64 {n : Int} (hlow : minInt64 ≤ n) (hhigh : n ≤ maxInt64) :
    Reads readInt64 (.int n) n :=
  fun _ _ hc => readInt64_showInt hlow hhigh hc

/-- Does the field pass over the value? -/
def Field.Passes (field : Field) (j : Json) : Prop :=
  ∀ (c : Char) (rest : List Sign), IsStop c →
    field.check (signsOf j.compress ++ some c :: rest) = .ok (some c :: rest)

theorem Reads.passes {α : Type} {read : Reader α} {j : Json} {a : α} (h : Reads read j a)
    (name : String) (omissible : Bool) :
    Field.Passes ⟨name, fun cs => (read cs).map (·.2), omissible⟩ j := by
  intro c rest hc
  dsimp only
  rw [h c rest hc]
  rfl

/-- Do the places hold the values of the entries? -/
def Places.Hold (given : Places) (entries : List (String × Json)) : Prop :=
  ∀ entry ∈ entries, ∃ c rest, IsStop c
    ∧ given.lookup entry.1 = some (signsOf entry.2.compress ++ some c :: rest)

/-- Has each of the entries a field of its own, which passes over its value? -/
structure Covers (fields : List Field) (entries : List (String × Json)) : Prop where
  nodup : (entries.map Prod.fst).Nodup
  passes : ∀ entry ∈ entries, ∃ field, fields.find? (·.name == entry.1) = some field
    ∧ field.Passes entry.2

theorem Covers.tail {fields : List Field} {entry : String × Json} {entries : List (String × Json)}
    (h : Covers fields (entry :: entries)) : Covers fields entries :=
  ⟨(List.nodup_cons.mp h.nodup).2, (List.forall_mem_cons.mp h.passes).2⟩

namespace Record

variable {fields : List Field} {field : Field} {name : String} {budget : List Sign}
  {given given' : Places} {place rest rest' : List Sign} {c : Char}

theorem ok_bind {α β : Type} (a : α) (f : α → Except Fault β) : (Except.ok a >>= f) = f a := rfl

/-- Where an object is read whose first entry ends where it should, the other entries are read after
it, if there are any. -/
theorem of_readEntries_quote (hfield : fields.find? (·.name == name) = some field)
    (hc : IsStop c) (hvalue : ∀ r, field.check place = .ok r → r = some c :: rest)
    (hread : readEntries fields budget given (signsOf (quote name) ++ some ':' :: place)
      = .ok (given', rest')) :
    (c = ',' ∧ ∃ budget', readEntries fields budget' ((name, place) :: given) rest
        = .ok (given', rest'))
      ∨ c = '\x7d' ∧ given' = (name, place) :: given := by
  cases budget with
  | nil => cases hread
  | cons b budget =>
    have hcolon : after? ':' (some ':' :: place) = some place := rfl
    simp only [readEntries, text?_quote, wellFormed, Option.elim_some, ok_bind, hfield, hcolon]
      at hread
    split at hread
    · cases hread
    · cases hcheck : field.check place with
      | error fault =>
        rw [hcheck] at hread
        cases hread
      | ok r =>
        rw [hcheck, hvalue r hcheck] at hread
        rcases hc with rfl | rfl
        · exact .inl ⟨rfl, budget, hread⟩
        · cases hread
          exact .inr ⟨rfl, rfl⟩

theorem readPlaces_quote (fields : List Field) (name : String) (rest : List Sign) :
    readPlaces fields (some '\x7b' :: (signsOf (quote name) ++ rest))
      = readEntries fields (signsOf (quote name) ++ rest) [] (signsOf (quote name) ++ rest) := by
  have hsome : after? '\x7d' (signsOf (quote name) ++ rest) = none := by
    rw [signsOf_quote]
    rfl
  simp [readPlaces, skipSpace, isSpace, hsome]

/-- An entry gives the place of its value, and what ends it decides whether others follow. -/
theorem readEntries_quote (hfield : fields.find? (·.name == name) = some field)
    (hnew : given.lookup name = none) (hcheck : field.check place = .ok (some c :: rest))
    (b : Sign) :
    (c = ',' → readEntries fields (b :: budget) given (signsOf (quote name) ++ some ':' :: place)
        = readEntries fields budget ((name, place) :: given) rest)
      ∧ (c = '\x7d' → readEntries fields (b :: budget) given
          (signsOf (quote name) ++ some ':' :: place) = .ok ((name, place) :: given, rest)) := by
  have hcolon : after? ':' (some ':' :: place) = some place := rfl
  simp only [readEntries, text?_quote, wellFormed, Option.elim_some, ok_bind, hfield, hcolon,
    hnew, hcheck]
  constructor
  · rintro rfl
    rfl
  · rintro rfl
    rfl

theorem signsOf_compressEntries_singleton (name : String) (j : Json) (rest : List Sign) :
    signsOf (compressEntries [(name, j)]) ++ rest
      = signsOf (quote name) ++ some ':' :: (signsOf j.compress ++ rest) := by
  simp [compressEntries, signsOf]

theorem signsOf_compressEntries_cons (name : String) (j : Json) {entries : List (String × Json)}
    (hmore : entries ≠ []) (rest : List Sign) :
    signsOf (compressEntries ((name, j) :: entries)) ++ rest
      = signsOf (quote name) ++ some ':' :: (signsOf j.compress
        ++ some ',' :: (signsOf (compressEntries entries) ++ rest)) := by
  cases entries with
  | nil => exact absurd rfl hmore
  | cons entry entries => simp [compressEntries, signsOf]

theorem exists_signsOf_compressEntries (name : String) (j : Json)
    (entries : List (String × Json)) (rest : List Sign) :
    ∃ place, signsOf (compressEntries ((name, j) :: entries)) ++ rest
      = signsOf (quote name) ++ some ':' :: place := by
  rcases eq_or_ne entries [] with rfl | hmore
  · exact ⟨_, signsOf_compressEntries_singleton name j rest⟩
  · exact ⟨_, signsOf_compressEntries_cons name j hmore rest⟩

/-- Every entry takes up a sign. -/
theorem length_le_compressEntries (entries : List (String × Json)) :
    entries.length ≤ (signsOf (compressEntries entries)).length := by
  induction entries with
  | nil => exact Nat.zero_le _
  | cons entry entries ih =>
    obtain ⟨name, j⟩ := entry
    rcases eq_or_ne entries [] with rfl | hmore
    · have hsigns := signsOf_compressEntries_singleton name j []
      rw [List.append_nil] at hsigns
      rw [hsigns]
      simp only [List.length_append, List.length_cons, List.length_nil]
      omega
    · have hsigns := signsOf_compressEntries_cons name j hmore []
      rw [List.append_nil] at hsigns
      rw [hsigns]
      simp only [List.length_append, List.length_cons, List.length_nil]
      omega

/-- A new place hides none. -/
theorem lookup_cons_of_new {other : String} {place' : List Sign} (hnew : given.lookup name = none)
    (h : given.lookup other = some place') :
    List.lookup other ((name, place) :: given) = some place' := by
  have hne : (other == name) = false := by
    refine beq_false_of_ne ?_
    rintro rfl
    rw [hnew] at h
    cases h
  rwa [List.lookup_cons, hne]

/-- **The entries of an object are found**, if each has a field of its own, and the places that are
known before stay. -/
theorem exists_readEntries {entries : List (String × Json)} (hsome : entries ≠ [])
    (hcovers : Covers fields entries) (hnew : ∀ entry ∈ entries, given.lookup entry.1 = none)
    (hbudget : entries.length ≤ budget.length) (rest : List Sign) :
    ∃ given', readEntries fields budget given
        (signsOf (compressEntries entries) ++ some '\x7d' :: rest) = .ok (given', rest)
      ∧ given'.Hold entries
      ∧ ∀ name place, given.lookup name = some place → given'.lookup name = some place := by
  induction entries generalizing budget given with
  | nil => exact absurd rfl hsome
  | cons entry entries ih =>
    obtain ⟨name, j⟩ := entry
    obtain ⟨⟨field, hfield, hpasses⟩, -⟩ := List.forall_mem_cons.mp hcovers.passes
    obtain ⟨hname, hothers⟩ := List.forall_mem_cons.mp hnew
    obtain ⟨hfresh, -⟩ := List.nodup_cons.mp hcovers.nodup
    cases budget with
    | nil => exact absurd hbudget (by simp)
    | cons b budget =>
      rcases eq_or_ne entries [] with rfl | hmore
      · rw [signsOf_compressEntries_singleton]
        refine ⟨_, (readEntries_quote hfield hname (hpasses _ _ (.inr rfl)) b).2 rfl, ?_, ?_⟩
        · rintro entry hentry
          rw [List.mem_singleton] at hentry
          subst hentry
          exact ⟨'\x7d', rest, .inr rfl, List.lookup_cons_self⟩
        · exact fun _ _ => lookup_cons_of_new hname
      · rw [signsOf_compressEntries_cons name j hmore,
          (readEntries_quote hfield hname (hpasses _ _ (.inl rfl)) b).1 rfl]
        have hstill : ∀ place, ∀ entry ∈ entries,
            List.lookup entry.1 ((name, place) :: given) = none := by
          intro place entry hentry
          have hne : (entry.1 == name) = false := by
            refine beq_false_of_ne ?_
            rintro rfl
            exact hfresh (List.mem_map.mpr ⟨entry, hentry, rfl⟩)
          rw [List.lookup_cons, hne]
          exact hothers entry hentry
        obtain ⟨given', hread, hhold, hkeep⟩ :=
          ih hmore hcovers.tail (hstill _) (Nat.le_of_succ_le_succ hbudget)
        refine ⟨given', hread, ?_, ?_⟩
        · refine List.forall_mem_cons.mpr ⟨?_, hhold⟩
          exact ⟨',', _, .inl rfl, hkeep _ _ List.lookup_cons_self⟩
        · exact fun other place hplace => hkeep _ _ (lookup_cons_of_new hname hplace)

/-- The places of the entries of an object, which may be empty. -/
theorem exists_readPlaces {entries : List (String × Json)} (hcovers : Covers fields entries)
    (rest : List Sign) :
    ∃ given, readPlaces fields (signsOf (Json.object entries).compress ++ rest) = .ok (given, rest)
      ∧ given.Hold entries := by
  have hsigns : signsOf (Json.object entries).compress ++ rest
      = some '\x7b' :: (signsOf (compressEntries entries) ++ some '\x7d' :: rest) := by
    simp [compress, signsOf]
  rw [hsigns]
  cases entries with
  | nil => exact ⟨[], rfl, List.forall_mem_nil _⟩
  | cons entry entries =>
    obtain ⟨name, j⟩ := entry
    obtain ⟨place, hplace⟩ :=
      exists_signsOf_compressEntries name j entries (some '\x7d' :: rest)
    have hbudget : (((name, j) :: entries : List (String × Json))).length
        ≤ (signsOf (compressEntries ((name, j) :: entries)) ++ some '\x7d' :: rest).length := by
      rw [List.length_append]
      exact (length_le_compressEntries _).trans (Nat.le_add_right _ _)
    rw [hplace, readPlaces_quote, ← hplace]
    obtain ⟨given, hread, hhold, -⟩ :=
      exists_readEntries (List.cons_ne_nil _ _) hcovers (fun _ _ => List.lookup_nil) hbudget rest
    exact ⟨given, hread, hhold⟩

/-- What is read of a text is made of the places of the fields in it. -/
theorem of_readText {α : Type} {r : Record α} {text : String} {a : α}
    (h : readText r.read text = .ok a) :
    ∃ given rest, readPlaces r.fields (signsOf text) = .ok (given, rest)
      ∧ r.build given = .ok a := by
  change ((readPlaces r.fields (signsOf text) >>= fun _ => r.build _ >>= _) >>= _) = _ at h
  cases hplaces : readPlaces r.fields (signsOf text) with
  | error fault =>
    rw [hplaces] at h
    cases h
  | ok places =>
    refine ⟨places.1, places.2, rfl, ?_⟩
    rw [hplaces] at h
    change ((r.build places.1 >>= _) >>= _) = _ at h
    cases hbuild : r.build places.1 with
    | error fault =>
      rw [hbuild] at h
      cases h
    | ok b =>
      rw [hbuild] at h
      change (if (skipSpace places.2).isEmpty then Except.ok b else _) = _ at h
      split at h
      · exact h
      · cases h

/-! ### Records made of places -/

section

variable {α β : Type} {r : Record α} {entries : List (String × Json)}

theorem build_map {x : Record α} {a : α} (g : α → β) (h : x.build given = .ok a) :
    (g <$> x).build given = .ok (g a) := by
  change (Except.ok g >>= fun g => x.build given >>= fun a => pure (g a)) = _
  rw [ok_bind, h]
  rfl

theorem build_seq {f : Record (α → β)} {x : Record α} {g : α → β} {a : α}
    (hf : f.build given = .ok g) (hx : x.build given = .ok a) :
    (f <*> x).build given = .ok (g a) := by
  change (f.build given >>= fun g => x.build given >>= fun a => pure (g a)) = _
  rw [hf, ok_bind, hx]
  rfl

theorem of_build_map {x : Record α} {g : α → β} {b : β} (h : (g <$> x).build given = .ok b) :
    ∃ a, b = g a := by
  change (Except.ok g >>= fun g => x.build given >>= fun a => pure (g a)) = _ at h
  rw [ok_bind] at h
  cases hx : x.build given with
  | error fault =>
    rw [hx] at h
    cases h
  | ok a =>
    rw [hx] at h
    cases h
    exact ⟨a, rfl⟩

theorem of_build_seq {f : Record (α → β)} {x : Record α} {b : β}
    (h : (f <*> x).build given = .ok b) : ∃ g a, f.build given = .ok g ∧ b = g a := by
  change (f.build given >>= fun g => x.build given >>= fun a => pure (g a)) = _ at h
  cases hf : f.build given with
  | error fault =>
    rw [hf] at h
    cases h
  | ok g =>
    rw [hf, ok_bind] at h
    cases hx : x.build given with
    | error fault =>
      rw [hx] at h
      cases h
    | ok a =>
      rw [hx] at h
      cases h
      exact ⟨g, a, rfl, rfl⟩

/-- A field that is given is read where its value stands. -/
theorem build_single {read : Reader α} {j : Json} {a : α} {omissible : Bool}
    {missing : Except Fault α} (hhold : given.Hold entries) (hmem : (name, j) ∈ entries)
    (hread : Reads read j a) : (single name read omissible missing).build given = .ok a := by
  obtain ⟨c, rest, hc, hplace⟩ := hhold _ hmem
  change (given.lookup name).elim missing (fun cs => (read cs).map (·.1)) = _
  rw [hplace, Option.elim_some, hread c rest hc]
  rfl

/-- **A record is read back from the object of its fields**, if each entry has a field of its own,
and the record is made of the values at their places. -/
theorem readText_object {a : α} (hcovers : Covers r.fields entries)
    (hbuild : ∀ given : Places, given.Hold entries → r.build given = .ok a) :
    readText r.read (Json.object entries).compress = .ok a := by
  obtain ⟨given, hplaces, hhold⟩ := exists_readPlaces hcovers []
  rw [List.append_nil] at hplaces
  change ((readPlaces r.fields _ >>= fun places => r.build places.1 >>= fun a =>
    pure (a, places.2)) >>= _) = _
  rw [hplaces, ok_bind, hbuild given hhold]
  rfl

end

end Record

end SharedMemos.Json
