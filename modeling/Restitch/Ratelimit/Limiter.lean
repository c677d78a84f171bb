import Restitch.Http.Handler

/-!
# Rate limits (`internal/ratelimit/ratelimit.go`)

Which key a request counts for, and the middleware. Whether the token bucket of a key
has a token left is a parameter.
-/

namespace Restitch.Ratelimit

open Restitch.Http

/-- `Config`. The rate is kept as the text of its number. -/
structure RateLimitConfig where
  requestsPerSecond : String
  burst : Int
  key : String
deriving DecidableEq

/-- The name of the header in a key `header:name`. -/
def headerName? (key : String) : Option String :=
  if "header:".toList.isPrefixOf key.toList then some (.ofList (key.toList.drop 7)) else none

/-- The `keyFunc` that `New` chooses. -/
def RateLimitConfig.keyFunc (config : RateLimitConfig) (request : HttpRequest) : String :=
  let key := if config.key = "" then "ip" else config.key
  if key = "ip" then request.remoteIP
  else if key = "api-key" then request.header.get "X-API-Key"
  else
    match headerName? key with
    | some name => request.header.get name
    | none => request.remoteIP

/-- The key of the bucket that `Allow` asks. -/
def RateLimitConfig.bucketKey (config : RateLimitConfig) (request : HttpRequest) : String :=
  let key := config.keyFunc request
  if key = "" then "__empty__" else key

/-- The reply to a request over the limit. -/
def tooManyRequests : ErrorReply :=
  ⟨429, [("Content-Type", "application/json"), ("Retry-After", "1")], "rate limit exceeded"⟩

/-- `Limiter.Middleware`; `allow` says whether the bucket of a key has a token. -/
def RateLimitConfig.middleware {Value Served : Type} (config : RateLimitConfig)
    (allow : String → Bool) (next : Handler Value Served) : Handler Value Served :=
  fun request context =>
    if allow (config.bucketKey request) then next request context else .replied tooManyRequests

/-- The middleware of a limiter, if there is one. -/
def limited {Value Served : Type} (config : Option RateLimitConfig) (allow : String → Bool)
    (next : Handler Value Served) : Handler Value Served :=
  match config with
  | some config => config.middleware allow next
  | none => next

/-- A limiter only ever refuses. -/
theorem limited_served {Value Served : Type} {config : Option RateLimitConfig}
    {allow : String → Bool} {next : Handler Value Served} {request : HttpRequest}
    {context : Context Value} {served : Served}
    (passed : limited config allow next request context = .served served) :
    next request context = .served served := by
  cases config with
  | none => exact passed
  | some config =>
      rw [limited, RateLimitConfig.middleware] at passed
      split at passed
      · exact passed
      · cases passed

end Restitch.Ratelimit
