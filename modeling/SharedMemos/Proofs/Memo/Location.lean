import SharedMemos.Memo.Name
import SharedMemos.Proofs.Json.Record

/-!
# Locations read back

The store keeps a location as text, and what is read back need not be what was written: a reader of
numbers may be off by a rounding. But a location on the globe stays on the globe, since neither of
its numbers is read as one beyond its bound. Nothing is said of whether a text can be read: one that
cannot leaves the location as it was.

## Main results

* `Location.atMost_of_read` — what is read of the text of a location
* `Location.stored_validate` — a location that has been written and read back
-/

namespace SharedMemos

open SharedMemos.Text SharedMemos.Decimal SharedMemos.Json Binary64

namespace Location

variable {l : Location}

/-- The text of a location. -/
theorem signsOf_compress (l : Location) : signsOf l.toJson.compress
    = some '\x7b' :: (signsOf (quote "placeholder") ++ some ':' ::
        (signsOf (quote l.placeholder) ++ some ',' :: (signsOf (quote "latitude") ++ some ':' ::
          (signsOf (floatText l.latitude) ++ some ',' :: (signsOf (quote "longitude") ++ some ':' ::
            (signsOf (floatText l.longitude) ++ [some '\x7d'])))))) := by
  simp [toJson, compress, compressEntries, signsOf]

theorem validate_eq_ok_iff :
    l.validate = .ok () ↔ l.latitude.AtMost 90 ∧ l.longitude.AtMost 180 := by
  have hlatitude := isWithin_iff 90 l.latitude
  have hlongitude := isWithin_iff 180 l.longitude
  rw [Nat.cast_ofNat] at hlatitude hlongitude
  rw [← hlatitude, ← hlongitude, validate]
  cases l.latitude.isWithin 90 <;> cases l.longitude.isWithin 180 <;> simp

/-- A point is made of what is written at the places of its fields. -/
theorem build_record {first second third : List Sign} {l' : Location}
    (h : record.build [("longitude", third), ("latitude", second), ("placeholder", first)]
      = .ok l') :
    (∃ rest, readFloat second = .ok (l'.latitude, rest))
      ∧ ∃ rest, readFloat third = .ok (l'.longitude, rest) := by
  change ((((Except.ok _ >>= fun _ => (readString first).map _ >>= _) >>= fun _ =>
    (readFloat second).map _ >>= _) >>= fun _ => (readFloat third).map _ >>= _) = _) at h
  cases hfirst : readString first with
  | error fault =>
    rw [hfirst] at h
    cases h
  | ok placeholder =>
    cases hsecond : readFloat second with
    | error fault =>
      rw [hfirst, hsecond] at h
      cases h
    | ok latitude =>
      cases hthird : readFloat third with
      | error fault =>
        rw [hfirst, hsecond, hthird] at h
        cases h
      | ok longitude =>
        rw [hfirst, hsecond, hthird] at h
        cases h
        exact ⟨⟨_, rfl⟩, _, rfl⟩

theorem find?_placeholder : record.fields.find? (·.name == "placeholder")
    = some ⟨"placeholder", fun cs => (readString cs).map (·.2), true⟩ := rfl

theorem find?_latitude : record.fields.find? (·.name == "latitude")
    = some ⟨"latitude", fun cs => (readFloat cs).map (·.2), false⟩ := rfl

theorem find?_longitude : record.fields.find? (·.name == "longitude")
    = some ⟨"longitude", fun cs => (readFloat cs).map (·.2), false⟩ := rfl

/-- The value of a field that holds a number of degrees ends where it should. -/
theorem check_floatText {bound : ℚ} (hbound : bound = 90 ∨ bound = 180) {x : Binary64}
    (hx : x.AtMost bound) {c : Char} (hc : IsStop c) {rest r : List Sign}
    (h : (readFloat (signsOf (floatText x) ++ some c :: rest)).map (·.2) = .ok r) :
    r = some c :: rest := by
  cases hread : readFloat (signsOf (floatText x) ++ some c :: rest) with
  | error fault =>
    rw [hread] at h
    cases h
  | ok read =>
    rw [hread] at h
    cases h
    exact (readFloat_floatText hbound hx hc hread).1

/-- **What is read back of a location on the globe is on the globe**: where the text can be read,
the places of its fields are those where they were written. -/
theorem atMost_of_read (hlatitude : l.latitude.AtMost 90) (hlongitude : l.longitude.AtMost 180)
    {l' : Location} (hread : readText record.read l.toJson.compress = .ok l') :
    l'.latitude.AtMost 90 ∧ l'.longitude.AtMost 180 := by
  have hcomma : IsStop ',' := .inl rfl
  have hbrace : IsStop '\x7d' := .inr rfl
  have hfirst : ∀ rest r, (readString (signsOf (quote l.placeholder) ++ some ',' :: rest)).map (·.2)
      = .ok r → r = some ',' :: rest := by
    intro rest r hr
    rw [readString_quote] at hr
    cases hr
    rfl
  have hlast : ∀ r, (readFloat (signsOf (floatText l.longitude) ++ [some '\x7d'])).map (·.2)
      = .ok r → r = [some '\x7d'] :=
    fun _ => check_floatText (.inr rfl) hlongitude hbrace
  obtain ⟨given, rest, hplaces, hbuild⟩ := Record.of_readText hread
  rw [signsOf_compress, Record.readPlaces_quote] at hplaces
  obtain ⟨-, _, hplaces⟩ | ⟨hend, -⟩ :=
    Record.of_readEntries_quote find?_placeholder hcomma (hfirst _) hplaces
  · obtain ⟨-, _, hplaces⟩ | ⟨hend, -⟩ :=
      Record.of_readEntries_quote find?_latitude hcomma
        (fun _ => check_floatText (.inl rfl) hlatitude hcomma) hplaces
    · obtain ⟨hmore, -⟩ | ⟨-, rfl⟩ :=
        Record.of_readEntries_quote find?_longitude hbrace hlast hplaces
      · cases hmore
      · obtain ⟨⟨_, hlatitude'⟩, _, hlongitude'⟩ := build_record hbuild
        exact ⟨(readFloat_floatText (.inl rfl) hlatitude hcomma hlatitude').2,
          (readFloat_floatText (.inr rfl) hlongitude hbrace hlongitude').2⟩
    · cases hend
  · cases hend

/-- **A location on the globe that is written and read back is on the globe.** -/
theorem stored_validate (h : l.validate = .ok ()) : l.stored.validate = .ok () := by
  rw [stored]
  split
  · rename_i l' hread
    obtain ⟨hlatitude, hlongitude⟩ := validate_eq_ok_iff.mp h
    exact validate_eq_ok_iff.mpr (atMost_of_read hlatitude hlongitude hread)
  · exact h

end Location

end SharedMemos
