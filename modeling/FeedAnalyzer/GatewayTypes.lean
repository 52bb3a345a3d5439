import FeedAnalyzer.TransactionProc

/-!
# Results, failures and identifiers of the browser gateway

The records that pass between the parts of the gateway.  The flag `submitted` is
`True`, `False`, or `None` for a submission whose fate is unknown.
-/

namespace Gateway

/-- What an adapter or the extension reports. -/
inductive Status where
  | success
  | rateLimited
  | loginRequired
  | verificationRequired
  | disconnected
  | uiChanged
  | temporary
  | invalidOutput
  | unknown
  | invalidRequest
  | refused
deriving DecidableEq

/-- The text of a status on the wire and in the tables. -/
def Status.value : Status → String
  | .success => "success"
  | .rateLimited => "rate_limited"
  | .loginRequired => "login_required"
  | .verificationRequired => "verification_required"
  | .disconnected => "browser_disconnected"
  | .uiChanged => "ui_changed"
  | .temporary => "temporary_unavailable"
  | .invalidOutput => "invalid_output"
  | .unknown => "submission_unknown"
  | .invalidRequest => "invalid_request"
  | .refused => "refused"

/-- Failures that belong to the request and not to the provider. -/
def requestFailures : List Status :=
  [.invalidOutput, .invalidRequest]

/-- A drawn identifier. -/
abbrev Uuid := Nat

/-- `<hex>`, `<hex>-repair` and `probe-<hex>`: the three never meet, and no other text is
the identifier of a row. -/
inductive CommandId where
  | first (attempt : Uuid)
  | repair (attempt : Uuid)
  | probe (draw : Uuid)
  | other (text : String)
deriving DecidableEq

/-- The row of a command: `attempt.removesuffix("-repair")`. -/
def CommandId.row? : CommandId → Option Uuid
  | .first attempt => some attempt
  | .repair attempt => some attempt
  | .probe _ => none
  | .other _ => none

/-- The request.  Times are in microseconds of the event loop's clock. -/
structure Context where
  requestId : String
  deadline : Int
  profileId : String
  required : List String := []
  slot : Nat := 0

/-- What a browser command reports. -/
structure BrowserResult where
  status : Status
  text : String := ""
  submitted : Option Bool := some false
  resetAt : Option Int := none
  observedModel : Option String := none
deriving DecidableEq

/-- An error answered to the caller. -/
structure GatewayError where
  message : String
  httpStatus : Nat := 400
  code : String := "invalid_request"
  param : Option String := none
deriving DecidableEq

/-- What an awaited operation can raise. -/
inductive Raised where
  | cancelled
  | timeout
  | connection
  | runtime
  | gateway (error : GatewayError)
  | other (description : String)
deriving DecidableEq

/-- An error, or a completion with an assistant message of type `M`. -/
inductive ResponseBody (M : Type) where
  | error (message type : String) (param : Option String) (code : String)
  | completion (model : String) (message : M)
deriving DecidableEq

/-- The result of a request. -/
structure Result (M : Type) where
  body : ResponseBody M
  httpStatus : Nat
  status : Status
  submitted : Option Bool := some false
  retrySafe : Bool := true
  resetAt : Option Int := none

def errorBody {M : Type} (message code : String) (param : Option String := none) : ResponseBody M :=
  .error message code param code

def failureHttp : Status → Nat
  | .rateLimited => 429
  | .invalidRequest => 400
  | .invalidOutput => 502
  | _ => 503

/-- The result of a request that got no completion. -/
def failure {M : Type} (status : Status) (submitted : Option Bool := some false) : Result M :=
  { body := errorBody ("Browser adapter reported " ++ status.value) status.value
    httpStatus := failureHttp status
    status := status
    submitted := submitted
    retrySafe := submitted.isSome && status != .unknown }

variable {M : Type} (status : Status) (submitted : Option Bool)

@[simp] theorem failure_status : (failure status submitted : Result M).status = status := rfl

@[simp] theorem failure_submitted :
    (failure status submitted : Result M).submitted = submitted := rfl

end Gateway
