import SharedMemos.Json.Reader
import SharedMemos.Json.Printer

/-!
# Locations

A point on the globe. The store keeps a location as JSON text, so that a location read back is the
one that its text stands for.
-/

namespace SharedMemos

open SharedMemos.Decimal

/-- A point on the globe, in degrees, with a name. -/
structure Location where
  placeholder : String
  latitude : Binary64
  longitude : Binary64
deriving Repr, DecidableEq

namespace Location

/-- A location as a JSON object. -/
def toJson (l : Location) : Json :=
  .object [("placeholder", .string l.placeholder), ("latitude", .float l.latitude),
    ("longitude", .float l.longitude)]

/-- The fields of a location. -/
def record : Json.Record Location :=
  (fun placeholder latitude longitude => ⟨placeholder, latitude, longitude⟩)
    <$> .withDefault "placeholder" Json.readString ""
    <*> .required "latitude" Json.readFloat
    <*> .required "longitude" Json.readFloat

/-- A location that has been written and read back. -/
def stored (l : Location) : Location :=
  match Json.readText record.read l.toJson.compress with
  | .ok read => read
  | .error _ => l

end Location

end SharedMemos
