import CastReceiver.Http.MediaType
import CastReceiver.Json.Record

/-!
# Requests and responses

What of the hypertext transfer protocol the service looks at.
-/
namespace CastReceiver.Http

inductive Method where
  | get
  | head
  | post
  | options
  | other (name : String)
  deriving DecidableEq

/-- Methods are written in capital letters. -/
def Method.ofName (name : String) : Method :=
  match name with
  | "GET" => .get
  | "HEAD" => .head
  | "POST" => .post
  | "OPTIONS" => .options
  | _ => .other name

structure Request where
  method : Method
  /-- The path, after which a query may follow. -/
  target : String
  contentType : Option String := none
  body : String := ""
  deriving DecidableEq

structure Response where
  status : Nat
  body : Option Json := none

namespace Request

/-- The path without the query. -/
def path (r : Request) : String :=
  String.ofList (r.target.toList.takeWhile fun c => c ≠ '?' && c ≠ '#')

/-- The value that the body stands for, or else the status of the response that says that it is not
JSON by its type (415), by its text (400), or not the JSON that was asked for (422). -/
def entity (r : Request) (parse : String → Except Json.Fault α) : Except Nat α :=
  if r.contentType.any isJsonType then
    match parse r.body with
    | .ok a => .ok a
    | .error .malformed => .error 400
    | .error .unfit => .error 422
  else .error 415

end Request

namespace Response

def ok (body : Json) : Response where
  status := 200
  body := some body

def withoutBody (r : Response) : Response :=
  { r with body := none }

end Response

end CastReceiver.Http
