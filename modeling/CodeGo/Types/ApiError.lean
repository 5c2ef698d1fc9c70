import CodeGo.Billing.Schema
import Mathlib.Data.List.Infix

/-!
# Errors of the relay

`types/error.go`: the error that a relay request ends with, and how it is classified for
retries (`internal/gateway/store/status_code_policy.go`,
`internal/gateway/execution/app/upstream_failure_classification.go`).
-/

namespace CodeGo.Types.ApiError

structure NewAPIError where
  /-- the text of the underlying error, where there is one -/
  err : Option String := none
  /-- the message of `ToOpenAIError`, which masking may have changed -/
  openAIMessage : String := ""
  errorCode : String
  statusCode : Int := 500
  skipRetry : Bool := false
  deriving DecidableEq, Repr

namespace NewAPIError

def error (e : NewAPIError) : String := e.err.getD e.errorCode

def withSkipRetry (e : NewAPIError) : NewAPIError := { e with skipRetry := true }

end NewAPIError

def newError (err : Option String) (errorCode : String) : NewAPIError :=
  { err, openAIMessage := err.getD errorCode, errorCode }

def newErrorWithStatusCode (err : Option String) (errorCode : String) (statusCode : Int) :
    NewAPIError := { newError err errorCode with statusCode }

def errorCodeInvalidRequest := "invalid_request"
def errorCodeSensitiveWordsDetected := "sensitive_words_detected"
def errorCodeViolationFeeGrokCSAM := "violation_fee.grok.csam"
def errorCodeCountTokenFailed := "count_token_failed"
def errorCodeModelPriceError := "model_price_error"
def errorCodeGetChannelFailed := "get_channel_failed"
def errorCodeGenRelayInfoFailed := "gen_relay_info_failed"
def errorCodeChannelResponseTimeExceeded := "channel:response_time_exceeded"
def errorCodeReadRequestBodyFailed := "read_request_body_failed"
def errorCodeAccessDenied := "access_denied"
def errorCodeBadResponseBody := "bad_response_body"
def errorCodeModelNotFound := "model_not_found"
def errorCodeQueryDataError := "query_data_error"
def errorCodeUpdateDataError := "update_data_error"
def errorCodeInsufficientUserQuota := "insufficient_user_quota"
def errorCodePreConsumeTokenQuotaFailed := "pre_consume_token_quota_failed"

/-- The text contains `part`. -/
def contains (text part : String) : Bool := decide (part.toList <:+: text.toList)

def containsAny (message : String) (terms : List String) : Bool := terms.any (contains message)

section Classes

variable (e : NewAPIError)

def isChannelError : Bool := "channel:".toList.isPrefixOf e.errorCode.toList

def isSkipRetryError : Bool := e.skipRetry

def isModelUnavailableError : Bool :=
  e.errorCode == errorCodeModelNotFound ||
    let message := e.error.toLower
    contains message "model" &&
      containsAny message ["not found", "not exist", "not support", "unavailable"]

inductive UpstreamFailureClass where
  | unknown | modelUnavailable | accountExhausted | transient
  deriving DecidableEq, Repr

def classifyUpstreamFailure : UpstreamFailureClass :=
  let message := e.error.toLower
  if isModelUnavailableError e || e.statusCode == 503 then .modelUnavailable
  else if containsAny message
        ["insufficient", "quota", "balance", "billing", "payment required"] ||
      e.statusCode == 402 then .accountExhausted
  else if e.errorCode == errorCodeChannelResponseTimeExceeded ||
      [408, 429, 502, 504, 524].contains e.statusCode ||
      containsAny message ["do request failed", "response header", "stream closed",
        "context deadline exceeded", "i/o timeout", "connection reset"] then .transient
  else .unknown

def isModelScopedUpstreamFailure : Bool :=
  classifyUpstreamFailure e == .modelUnavailable || classifyUpstreamFailure e == .accountExhausted

def isAlwaysSkipRetryCode (errorCode : String) : Bool := errorCode == errorCodeBadResponseBody

def isAlwaysSkipRetryStatusCode (code : Int) : Bool := code == 413

structure StatusCodeRange where
  first : Int
  last : Int
  deriving DecidableEq, Repr

def automaticRetryStatusCodeRanges : List StatusCodeRange :=
  [⟨100, 199⟩, ⟨300, 399⟩, ⟨401, 407⟩, ⟨409, 499⟩, ⟨500, 599⟩]

/-- The ranges are in ascending order. -/
def inRanges (code : Int) : List StatusCodeRange → Bool
  | [] => false
  | r :: ranges =>
    if code < r.first then false else if code ≤ r.last then true else inRanges code ranges

def shouldMatchStatusCodeRanges (ranges : List StatusCodeRange) (code : Int) : Bool :=
  if code < 100 ∨ code > 599 then false else inRanges code ranges

/-- `ranges` is the setting `AutomaticRetryStatusCodeRanges`. -/
def shouldRetryByStatusCode (ranges : List StatusCodeRange) (code : Int) : Bool :=
  if isAlwaysSkipRetryStatusCode code then false else shouldMatchStatusCodeRanges ranges code

end Classes

def violationFeeCodePrefix := "violation_fee."
def csamViolationMarker := "Failed check: SAFETY_CHECK_TYPE"
def contentViolatesUsageMarker := "Content violates usage guidelines"

def isViolationFeeCode (code : String) : Bool :=
  violationFeeCodePrefix.toList.isPrefixOf code.toList

def hasCSAMViolationMarker (e : NewAPIError) : Bool :=
  contains e.error csamViolationMarker || contains e.error contentViolatesUsageMarker ||
    contains e.openAIMessage csamViolationMarker

/-- `WithOpenAIError` on the message of `e`. -/
def rewrap (e : NewAPIError) (code : String) : NewAPIError :=
  { err := some e.openAIMessage
    openAIMessage := e.openAIMessage
    errorCode := code
    statusCode := e.statusCode
    skipRetry := true }

def normalizeViolationFeeError (e : NewAPIError) : NewAPIError :=
  if hasCSAMViolationMarker e then rewrap e errorCodeViolationFeeGrokCSAM
  else if isViolationFeeCode e.errorCode then rewrap e e.errorCode
  else e

def shouldChargeViolationFee (e : NewAPIError) : Bool :=
  e.errorCode == errorCodeViolationFeeGrokCSAM || hasCSAMViolationMarker e

end CodeGo.Types.ApiError
