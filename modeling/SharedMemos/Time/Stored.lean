import SharedMemos.Error
import SharedMemos.Time.Basic

/-!
# Stored times
-/

namespace SharedMemos

open SharedMemos.Text

/-- The instant that a stored number of microseconds stands for. -/
def Instant.ofStored (n : Int) : Except Error Instant :=
  match Instant.ofMicros? n with
  | some t => .ok t
  | none => .error (.internal ("timestamp out of range: " ++ showInt n))

end SharedMemos
