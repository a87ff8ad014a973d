import MvsGateway.Http.ErrorReply
import MvsGateway.Reply

/-!
# The pipeline

A request is planned, the host answers the call, and the answer becomes the
reply. A request that has no plan does not reach the host, and every other one
reaches it once.
-/

namespace MvsGateway

open Host (Backend Call Output)

/-- The host, with the calls that reach it noted in order behind its state. -/
def Host.Backend.noting {σ : Type} (b : Backend σ) : Backend (σ × List Call) where
  invoke call s :=
    let (answer, next) := b.invoke call s.1
    (answer, (next, s.2 ++ [call]))

variable {σ : Type}

namespace Request

/-- The host's output for a request, or the error in its place. -/
def execute (b : Backend σ) (r : Request) (s : σ) : Except RequestError Output × σ :=
  match r.plan with
  | .error e => (.error e, s)
  | .ok call =>
    match b.invoke call s with
    | (.ok output, s) => (.ok output, s)
    | (.error e, s) => (.error (r.hostError call e), s)

/-- The reply to a request at a second of Unix time. -/
def reply (b : Backend σ) (second : Int) (r : Request) (s : σ) :
    Except RequestError Reply × σ :=
  match r.execute b s with
  | (.ok output, s) => (Reply.build second r output, s)
  | (.error e, s) => (.error e, s)

end Request

/-- The reply to what an endpoint accepts or refuses. -/
def run (b : Backend σ) (second : Int) (accepted : Except RequestError Request) (s : σ) :
    Except RequestError Reply × σ :=
  match accepted with
  | .ok r => r.reply b second s
  | .error e => (.error e, s)

end MvsGateway
