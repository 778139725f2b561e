import SharedMemos.Bytes.Blob
import SharedMemos.Json.Basic

/-!
# Requests and responses
-/

namespace SharedMemos.Http

/-- A request. -/
structure Request where
  method : String
  /-- The path as sent, with percent signs. -/
  path : String
  /-- The query as sent, without the question mark. -/
  query : String
  /-- Headers; their names are in lower case. -/
  headers : List (String × String)
  body : ByteArray

namespace Request

/-- The value of a header. -/
def header? (r : Request) (name : String) : Option String :=
  (r.headers.find? (·.1 == name)).map (·.2)

end Request

/-- The body of a response. -/
inductive Body where
  | empty
  | json (value : Json)
  | file (content : Blob)
  /-- Words for a person, from the layer below the handlers. -/
  | plain

/-- A response. -/
structure Response where
  status : Nat
  headers : List (String × String)
  body : Body

namespace Response

/-- A response with a JSON body. -/
def ofJson (status : Nat) (value : Json) : Response :=
  ⟨status, [], .json value⟩

/-- A response without a body. -/
def ofStatus (status : Nat) : Response :=
  ⟨status, [], .empty⟩

/-- A refusal of a request that is not understood. -/
def refusal (status : Nat) : Response :=
  ⟨status, [], .plain⟩

/-- The response with a header added. -/
def withHeader (r : Response) (name value : String) : Response :=
  { r with headers := r.headers ++ [(name, value)] }

end Response

end SharedMemos.Http
