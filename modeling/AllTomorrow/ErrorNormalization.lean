import AllTomorrow.DomainRecords
import Mathlib.Data.List.Infix

/-!
# Canonical errors

`CanonicalError` of `domain/errors.py` and `normalize_exception` of
`error_normalization.py`. An exception is modelled by what the normalization looks at:
the name of its class, the classes it is an instance of, its text, its cause and a
status code it may carry.
-/

namespace PyText

/-- `word in text.lower()`. -/
def mentions (word text : String) : Bool := word.toList <:+: text.toLower.toList

/-- `text or default`. -/
def orElse (text default : String) : String := if text = "" then default else text

end PyText

namespace AllTomorrow

inductive ErrorCategory where
  | notFound | unavailable | timeout | rateLimited | invalidInput | invalidState | conflict | permissionDenied
  | authenticationFailed | ambiguousEffect | retryExhausted | invariantViolation | versionIncompatible
  | resourceExhausted | unsupported
  deriving DecidableEq, Repr

structure CanonicalError where
  category : ErrorCategory
  code : String
  retryability : Bool
  ambiguity : Bool
  authoritySecurityRelevance : Bool := false
  safeMessage : String := ""
  externalRef : Option String := none
  evidenceRefs : List String := []
  causedBy : Option String := none
  details : PyDict := .empty
  code_nonempty : PyText.isBlank code = false := by decide

/-- The classes that `normalize_exception` asks for with `isinstance`. -/
inductive ExceptionClass where
  | terminalReviveError | workExecutionRefForbiddenError | activeRunLimitExceededError | invariantViolationError
  | invalidStateTransitionError | missingCompletionEvidenceError | timeoutError | connectionError | brokenPipeError
  | valueError | typeError | keyError
  deriving DecidableEq, Repr

/-- The class of an exception by name, and the classes of the list above that it is an instance of. -/
structure ExceptionType where
  name : String
  bases : List ExceptionClass

def ExceptionType.isInstance (t : ExceptionType) (classes : List ExceptionClass) : Bool := classes.any (· ∈ t.bases)

structure Raised where
  type : ExceptionType
  text : String
  /-- `exc.__cause__ or exc.__context__` -/
  cause : Option ExceptionType := none
  /-- `getattr(exc, "status_code", None) or getattr(exc, "http_status", None)` -/
  statusCode : Option ℤ := none

def Raised.valueError (text : String) : Raised := { type := ⟨"ValueError", [.valueError]⟩, text }

def connectionErrorNames : List String :=
  ["connecterror", "connectionerror", "connectionrefusederror", "connectionreseterror", "connectionabortederror",
    "connecttimeout", "networkerror", "transporterror"]

def ExceptionType.isConnectionError (t : ExceptionType) : Bool :=
  t.isInstance [.connectionError, .brokenPipeError] || t.name.toLower ∈ connectionErrorNames

def Raised.isConnectionFailure (exc : Raised) : Bool :=
  !exc.type.isInstance [.valueError, .typeError, .keyError] &&
    (exc.type.isConnectionError || exc.cause.any ExceptionType.isConnectionError)

/-- What an HTTP status says; the other codes are decided by class and text. -/
def statusCodeError (typeName : String) (statusCode : ℤ) : Option CanonicalError :=
  match statusCode with
  | 404 => some { category := .notFound, code := "http_not_found", retryability := false, ambiguity := false
                  safeMessage := "Target resource was not found", causedBy := some typeName }
  | 429 => some { category := .rateLimited, code := "rate_limited", retryability := true, ambiguity := false
                  safeMessage := "Upstream rate limit exceeded", causedBy := some typeName }
  | 401 => some { category := .authenticationFailed, code := "authentication_failed", retryability := false
                  ambiguity := false, authoritySecurityRelevance := true
                  safeMessage := "Authentication credentials invalid or missing", causedBy := some typeName }
  | 403 => some { category := .permissionDenied, code := "permission_denied", retryability := false, ambiguity := false
                  authoritySecurityRelevance := true, safeMessage := "Permission denied for requested action"
                  causedBy := some typeName }
  | 409 => some { category := .conflict, code := "resource_conflict", retryability := false, ambiguity := false
                  safeMessage := "Conflict with existing resource state", causedBy := some typeName }
  | 502 | 503 | 504 =>
    some { category := .unavailable, code := "service_unavailable", retryability := true
           ambiguity := statusCode = 504, safeMessage := "Upstream gateway or service unavailable"
           causedBy := some typeName }
  | _ => none

theorem invariantCode_nonempty (name : String) : PyText.isBlank ("invariant_" ++ name) = false := by
  rw [PyText.isBlank_append]
  exact Bool.and_eq_false_imp.mpr fun h => absurd h (by decide)

/-- `normalize_exception(exc)`. -/
def normalizeException (exc : Raised) : CanonicalError :=
  let typeName := exc.type.name
  if exc.type.isInstance [.terminalReviveError, .workExecutionRefForbiddenError, .activeRunLimitExceededError] then
    { category := .invariantViolation, code := "invariant_" ++ typeName.toLower, retryability := false
      ambiguity := false, safeMessage := PyText.orElse exc.text "Architectural invariant violation"
      causedBy := some typeName, code_nonempty := invariantCode_nonempty _ }
  else if exc.type.isInstance [.invariantViolationError] then
    { category := .invariantViolation, code := "invariant_violation", retryability := false, ambiguity := false
      safeMessage := PyText.orElse exc.text "Invariant violation", causedBy := some typeName }
  else if exc.type.isInstance [.invalidStateTransitionError] then
    { category := .invalidState, code := "invalid_state_transition", retryability := false, ambiguity := false
      safeMessage := PyText.orElse exc.text "Invalid state transition", causedBy := some typeName }
  else if exc.type.isInstance [.missingCompletionEvidenceError] then
    { category := .invalidState, code := "missing_completion_evidence", retryability := false, ambiguity := false
      safeMessage := PyText.orElse exc.text "Missing completion evidence", causedBy := some typeName }
  -- the effect may have been initiated before the deadline
  else if exc.type.isInstance [.timeoutError] || PyText.mentions "timeout" typeName then
    { category := .timeout, code := "operation_timeout", retryability := true, ambiguity := true
      safeMessage := "Operation timed out before confirmation", causedBy := some typeName }
  else if exc.isConnectionFailure then
    { category := .unavailable, code := "service_unavailable", retryability := true, ambiguity := false
      safeMessage := "External service connection failed", causedBy := some typeName }
  else
    match exc.statusCode.bind (statusCodeError typeName) with
    | some error => error
    | none =>
      if exc.type.isInstance [.keyError] || PyText.mentions "not found" exc.text then
        { category := .notFound, code := "resource_not_found", retryability := false, ambiguity := false
          safeMessage := PyText.orElse exc.text "Resource not found", causedBy := some typeName }
      else if exc.type.isInstance [.valueError, .typeError] then
        { category := .invalidInput, code := "invalid_input", retryability := false, ambiguity := false
          safeMessage := PyText.orElse exc.text "Invalid input or argument", causedBy := some typeName }
      else
        { category := .unavailable, code := "internal_error", retryability := false, ambiguity := true
          safeMessage := "Unhandled exception: " ++ typeName, causedBy := some typeName }

end AllTomorrow
