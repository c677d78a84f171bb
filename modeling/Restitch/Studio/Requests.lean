import Restitch.Composition.Handler
import Restitch.Composition.JsonValues
import Restitch.Reqlog.Record
import Restitch.Semantics.Transition
import Restitch.Std.GoTime
import Restitch.Std.KeyedTable

/-!
# Sampled requests in Studio (`internal/studio/requests.go`)

Gateways serve requests and push the records of some of them, in any batches and any number
of times. A gateway keeps the id of a request as the bytes that the client sent; a push is
JSON, and Studio reads a text.
-/

namespace Restitch.Studio

open Restitch.Composition Restitch.Http Restitch.Reqlog Restitch.Semantics Restitch.Std
open Restitch.Std.GoTime

/-- The number of a request, in the order in which requests are served. -/
abbrev RequestNumber := Nat

/-- The id of a request on the gateway: what the client sent as X-Request-ID, or a new one if
that is empty. -/
def requestIDBytes (sent made : List UInt8) : List UInt8 := if sent = [] then made else sent

/-- The id in a push: `json.Marshal` replaces every byte that is no UTF-8 by U+FFFD. -/
def pushedID (id : List UInt8) : String := .ofList (runes id)

/-- A request that an instance served, with its id and what else is in its record. -/
structure ServedRequest where
  instanceID : String
  requestID : List UInt8
  record : Record

/-- The record that Studio decodes. -/
def ServedRequest.pushed (served : ServedRequest) : Record :=
  { served.record with id := pushedID served.requestID }

/-- A row of `studio_requests`. The columns that repeat the record are left out; the last
field says which request the row is about, and no code reads it. -/
structure RequestRow where
  environment : String
  instanceID : String
  requestID : String
  at_ : Nat
  minute : Nat
  failed : Bool
  record : Record
  request : RequestNumber

/-- `PRIMARY KEY (environment, instance_id, request_id)`. -/
def RequestRow.key (row : RequestRow) : String × String × String :=
  (row.environment, row.instanceID, row.requestID)

/-- `failedRequest`. -/
def failedRequest (record : Record) : Bool :=
  500 ≤ record.status || record.isPartial

/-- The successful requests kept for a minute. -/
def keptIn (rows : List RequestRow) (environment : String) (minute : Nat) : Nat :=
  rows.countP fun row => row.environment = environment && row.minute = minute && !row.failed

section

variable (parseHost : List Char → Option (List Char))

/-- The row of a record. -/
def requestRow (environment instanceID : String) (request : RequestNumber × Record) :
    RequestRow where
  environment := environment
  instanceID := instanceID
  requestID := request.2.id
  at_ := request.2.time
  minute := minuteOf request.2.time
  failed := failedRequest request.2
  record := request.2.redact parseHost
  request := request.1

/-- One record of a push. -/
def storeRecord (capPerMinute : Nat) (environment instanceID : String) (rows : List RequestRow)
    (request : RequestNumber × Record) : List RequestRow :=
  let row := requestRow parseHost environment instanceID request
  if row.requestID = "" then rows
  else if !row.failed ∧ capPerMinute ≤ keptIn rows environment row.minute then rows
  else KeyedTable.insertNew RequestRow.key row rows

/-- The rows of an environment that a push keeps. -/
def afterCutoff (environment : String) (cutoff : Nat) (row : RequestRow) : Bool :=
  row.environment ≠ environment || cutoff ≤ row.at_

/-- `storeRequests`. -/
def storeRequests (capPerMinute : Nat) (cutoff : Nat) (environment instanceID : String)
    (batch : List (RequestNumber × Record)) (rows : List RequestRow) : List RequestRow :=
  (batch.foldl (storeRecord parseHost capPerMinute environment instanceID) rows).filter
    (afterCutoff environment cutoff)

end

/-- The gateways and Studio. `due` lists the records that were delivered to an environment and
are not older than its last cutoff. -/
structure RequestsState where
  served : List ServedRequest
  rows : List RequestRow
  due : List (String × RequestNumber)

inductive RequestsEvent where
  /-- An instance serves a request with this X-Request-ID, and makes a record of it. -/
  | serve (instanceID : String) (sent newRequestID : List UInt8) (record : Record)
  /-- A push of records of one instance is stored, when records older than some days go. -/
  | push (environment instanceID : String) (batch : List RequestNumber) (now retentionDays : Nat)

/-- The retention cutoff. -/
def cutoffAt (now retentionDays : Nat) : Nat := now - days retentionDays

/-- The records of a batch, if they are all of requests that the instance served. -/
def batchRecords (served : List ServedRequest) (instanceID : String) :
    List RequestNumber → Option (List (RequestNumber × Record))
  | [] => some []
  | request :: rest =>
      match served[request]? with
      | some found =>
          if found.instanceID = instanceID then
            (batchRecords served instanceID rest).map ((request, found.pushed) :: ·)
          else none
      | none => none

/-- What is due after a push. -/
def dueAfter (served : List ServedRequest) (environment : String) (cutoff : Nat)
    (batch : List RequestNumber) (due : List (String × RequestNumber)) :
    List (String × RequestNumber) :=
  (due ++ batch.map fun request => (environment, request)).filter fun entry =>
    entry.1 ≠ environment || (served[entry.2]?).any fun found => cutoff ≤ found.record.time

section

variable (parseHost : List Char → Option (List Char)) (capPerMinute : String → Nat)

/-- One event. An id that `NewRequestID` makes is a text of 26 letters and digits. -/
def requestsStep (state : RequestsState) : RequestsEvent → Option RequestsState
  | .serve instanceID sent newRequestID record =>
      if newRequestID = [] then none
      else some { state with
        served := state.served ++ [⟨instanceID, requestIDBytes sent newRequestID, record⟩] }
  | .push environment instanceID batch now retentionDays =>
      let cutoff := cutoffAt now retentionDays
      (batchRecords state.served instanceID batch).map fun records =>
        { state with
          rows := storeRequests parseHost (capPerMinute environment) cutoff environment instanceID
            records state.rows
          due := dueAfter state.served environment cutoff batch state.due }

/-- Any requests on any gateways and any pushes of their records. -/
def requestsSystem : System RequestsState RequestsEvent :=
  .ofStep (· = ⟨[], [], []⟩) (requestsStep parseHost capPerMinute)

end

/-- A request gets an id that differs in a push from those of all earlier requests of its
instance. -/
def NewID (state : RequestsState) : RequestsEvent → Prop
  | .serve instanceID sent newRequestID _ => ∀ earlier ∈ state.served,
      earlier.instanceID = instanceID →
        pushedID earlier.requestID ≠ pushedID (requestIDBytes sent newRequestID)
  | .push _ _ _ _ _ => True

/-- The rows of a request in an environment. -/
def rowsOf (state : RequestsState) (environment : String) (request : RequestNumber) :
    List RequestRow :=
  state.rows.filter fun row => row.environment = environment && row.request = request

/-- An id that is UTF-8 arrives in Studio as the text that the gateway works with. -/
theorem pushedID_requestIDOf (arrival : Arrival) (request : HttpRequest) :
    pushedID (requestIDBytes (utf8 (request.header.get "X-Request-ID").toList)
      (utf8 arrival.newRequestID.toList)) = requestIDOf arrival request := by
  rw [requestIDBytes, requestIDOf]
  by_cases absent : request.header.get "X-Request-ID" = ""
  · have none_ : utf8 "".toList = [] := rfl
    rw [absent, none_, if_pos rfl, if_pos rfl, pushedID, runes_utf8, String.ofList_toList]
  · have sent : utf8 (request.header.get "X-Request-ID").toList ≠ [] := by
      intro empty
      refine absent (String.toList_inj.mp (utf8_injective ?_))
      rw [empty]
      rfl
    rw [if_neg sent, if_neg absent, pushedID, runes_utf8, String.ofList_toList]

-- Two ids of one byte each, which are one id in Studio.
example : pushedID [0xff] = pushedID [0xfe] := by decide +kernel

end Restitch.Studio
