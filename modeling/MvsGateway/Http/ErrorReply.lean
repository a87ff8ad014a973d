import MvsGateway.Http.Status
import MvsGateway.Json.Basic
import MvsGateway.Request.Error

/-!
# Error replies

A failed request is answered with a status and a JSON object of two texts: the
error and its details. Where the caller is at fault both are the same.
-/

namespace MvsGateway.Http

structure ErrorReply where
  status : Nat
  error : String
  details : String
  deriving DecidableEq, Repr

namespace ErrorReply

def badRequest (message : String) : ErrorReply := ⟨400, message, message⟩

def notFound (message : String) : ErrorReply := ⟨404, "Not Found", message⟩

def internal (message details : String) : ErrorReply := ⟨500, message, details⟩

/-- A request that is rejected before it is looked at; the error is the reason
phrase of the status. -/
def rejection (status : Nat) (details : String) : ErrorReply :=
  ⟨status, (reason? status).getD "Bad Request", details⟩

def ofError : RequestError → ErrorReply
  | .invalid fault => badRequest fault.message
  | .mode cause => badRequest cause.message
  | .path cause => badRequest cause.message
  | .host message details => internal message details
  | .notFound message => notFound message

def body (e : ErrorReply) : Json :=
  .object <| Json.Fields.ofList [("error", .string e.error), ("details", .string e.details)]

/-- The status line and the error. -/
def text (e : ErrorReply) : String := statusText e.status ++ ": " ++ e.error

end ErrorReply

end MvsGateway.Http
