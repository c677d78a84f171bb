import Restitch.Http.Header
import Restitch.Http.UrlParse

/-!
# Request records (`internal/reqlog/reqlog.go`)

What the gateway reports about a request, and how secrets are kept out of it. Times and
durations are whole numbers of a small unit.
-/

namespace Restitch.Reqlog

open Restitch.Http Restitch.Std

/-- `Redacted`. -/
def redacted : String := "[redacted]"

/-- `StepRecord`. -/
structure StepRecord where
  name : String
  status : String
  wave : Nat
  duration : Nat
  httpStatus : Nat
  upstream : String
  url : String
  startOffset : Nat
  bodySize : Nat
  error : String
  cached : Bool
  retries : Nat
deriving DecidableEq

/-- `Record`. -/
structure Record where
  id : String
  traceID : String
  time : Nat
  composition : String
  method : String
  path : String
  status : Int
  duration : Nat
  isPartial : Bool
  headers : GoMap String String
  steps : List StepRecord

/-- `secretHeader`. -/
def secretHeader (name : String) : Bool :=
  let n := GoStrings.toLower name.toList
  (["authorization", "proxy-authorization", "cookie", "set-cookie"].map String.toList).contains n ||
    ["token", "secret", "key", "password", "auth", "session"].any fun part =>
      n.tails.any fun rest => part.toList.isPrefixOf rest

/-- `RedactHeaders`. -/
def redactHeaders (header : Header) : GoMap String String :=
  header.mapWithKey fun name values =>
    if secretHeader name then redacted else ", ".intercalate values

/-- The keys of a query, each once, in order. -/
def queryKeys (query : List Char) : List (List UInt8) :=
  ((parseQuery query).map Prod.fst).dedup.insertionSort (· ≤ ·)

/-- A query with these keys and no value. -/
def redactedQuery (keys : List (List UInt8)) : List Char :=
  ['&'].intercalate (keys.map fun key => queryEscapeBytes key ++ '=' :: redacted.toList)

section

variable (parseHost : List Char → Option (List Char))

/-- `RedactURL`. -/
def redactURL (raw : String) : String :=
  match parseURL parseHost raw.toList with
  | none => redacted
  | some url =>
      let url := if url.user.isSome then
        { url with user := some (utf8 redacted.toList, none) } else url
      let keys := queryKeys url.rawQuery
      if keys = [] then .ofList url.text
      else .ofList { url with rawQuery := redactedQuery keys }.text

/-- `Record.Redact`. -/
def Record.redact (record : Record) : Record :=
  { record with
    headers := record.headers.mapWithKey fun name value =>
      if secretHeader name then redacted else value
    steps := record.steps.map fun step => { step with url := redactURL parseHost step.url } }

end

end Restitch.Reqlog
