import SharedMemos.Error
import SharedMemos.Http.Message

/-!
# Failures

How an error is told to a client: its status, its words, and where an upload stands.
-/

namespace SharedMemos.Http

open SharedMemos.Text

/-- The header that says how much of an upload has been received. -/
def offsetHeader : String := "upload-offset"

/-- A body that tells what is wrong. -/
def failureBody (message : String) : Json :=
  .object [("error", .string message)]

/-- A conflict with the state of an upload. -/
def conflict (e : Error) (current : Int) (size : Option Int) : Response :=
  let entries := [("error", Json.string e.message), ("current_offset", .int current)]
    ++ size.toList.map fun n => ("size", .int n)
  (Response.ofJson 409 (.object entries)).withHeader offsetHeader (showInt current)

/-- The response to a request that fails. -/
def failure (e : Error) : Response :=
  if e.isValidation then .ofJson 400 (failureBody e.message)
  else
    match e with
    | .notFound what => .ofJson 404 (failureBody what)
    | .unauthenticated reason => .ofJson 401 (failureBody reason)
    | .offsetMismatch _ current => conflict e current none
    | .uploadIncomplete received size => conflict e received (some size)
    | _ => .ofJson 500 (failureBody e.message)

/-- The response to a request that has a header or a query that makes no sense. -/
def badRequest (message : String) : Response :=
  .ofJson 400 (failureBody message)

end SharedMemos.Http
