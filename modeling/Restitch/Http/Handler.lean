import Restitch.Http.Header

/-!
# Handlers and middleware (`net/http`)

A handler answers a request in a context. What the innermost handler does is a
parameter: middleware either writes a reply itself or calls the next handler, maybe
with values added to the context.
-/

namespace Restitch.Http

open Restitch.Std

/-- The body of a request as the connection delivers it. -/
inductive RequestBody where
  /-- No body, or a `Content-Length` of 0. -/
  | absent
  /-- The bytes up to the end of the body, or up to a broken connection. -/
  | bytes (bytes : List UInt8) (complete : Bool)

/-- What the gateway reads of an `http.Request`. -/
structure HttpRequest where
  method : String
  /-- `URL.Path` -/
  path : String
  query : GoMap String (List String)
  header : Header
  /-- The host of `RemoteAddr`. -/
  remoteIP : String
  body : RequestBody

/-- The values that the gateway keeps in the context of a request. A nil map of
claims is `some none`. -/
structure Context (Value : Type) where
  requestID : Option String
  claims : Option (Option (GoMap String Value))

/-- The context of a request as the server starts it. -/
def Context.background {Value : Type} : Context Value := ⟨none, none⟩

/-- A reply with an `error` text, as middleware writes it. -/
structure ErrorReply where
  status : Nat
  header : List (String × String)
  error : String
deriving DecidableEq

/-- What becomes of a request: a reply by middleware, or what the innermost handler does. -/
inductive Outcome (Served : Type) where
  | replied (reply : ErrorReply)
  | served (served : Served)

abbrev Handler (Value Served : Type) := HttpRequest → Context Value → Outcome Served

end Restitch.Http
