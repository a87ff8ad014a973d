import MvsGateway.Http.Service
import MvsGateway.Proofs.Plan
import MvsGateway.Proofs.Reply

/-!
# One call for each request

A servable request has a plan, and an output that fits the planned call has a
reply. So an accepted request is one host call and never an unexpected output,
and a refused one is no call.
-/

namespace MvsGateway

open Host (Answer Backend Call Output Services)

variable {σ : Type}

namespace Request

variable {r : Request} {call : Call}

theorem reply_of_error (b : Backend σ) (second : Int) {s : σ} {e : Host.Error}
    (hplan : r.plan = .ok call) (h : (b.invoke call s).1 = .error e) :
    r.reply b second s = (.error (r.hostError call e), (b.invoke call s).2) := by
  have hpair : b.invoke call s = (.error e, (b.invoke call s).2) := by rw [← h]
  rw [reply, execute, hplan]
  simp only
  rw [hpair]

theorem reply_of_ok (b : Backend σ) (second : Int) {s : σ} {output : Output}
    (hplan : r.plan = .ok call) (h : (b.invoke call s).1 = .ok output) :
    r.reply b second s = (Reply.build second r output, (b.invoke call s).2) := by
  have hpair : b.invoke call s = (.ok output, (b.invoke call s).2) := by rw [← h]
  rw [reply, execute, hplan]
  simp only
  rw [hpair]

theorem reply_eq_ok {b : Backend σ} {second : Int} {s next : σ} {reply : Reply}
    (hplan : r.plan = .ok call) (h : r.reply b second s = (.ok reply, next)) :
    ∃ output, b.invoke call s = (.ok output, next) ∧ Reply.build second r output = .ok reply := by
  cases hanswer : (b.invoke call s).1 with
  | error e =>
    rw [reply_of_error b second hplan hanswer] at h
    cases h
  | ok output =>
    rw [reply_of_ok b second hplan hanswer] at h
    obtain ⟨hbuild, rfl⟩ := Prod.mk.inj h
    exact ⟨output, by rw [← hanswer], hbuild⟩

theorem reply_of_invoke {b : Backend σ} {second : Int} {s next : σ} {output : Output}
    {reply : Reply} (hplan : r.plan = .ok call) (hinvoke : b.invoke call s = (.ok output, next))
    (hbuild : Reply.build second r output = .ok reply) :
    r.reply b second s = (.ok reply, next) := by
  rw [reply_of_ok b second hplan (congrArg Prod.fst hinvoke), hinvoke, hbuild]

/-- A planned request succeeds exactly if the host accepts the call. -/
theorem reply_succeeds_iff (b : Services σ) (second : Int) (s : σ) (hplan : r.plan = .ok call) :
    (∃ reply, (r.reply b.backend second s).1 = .ok reply) ↔
      ∃ output, (b.invoke call s).1 = .ok output := by
  constructor
  · rintro ⟨reply, hreply⟩
    have hpair : r.reply b.backend second s = (.ok reply, (r.reply b.backend second s).2) := by
      rw [← hreply]
    obtain ⟨output, hinvoke, _⟩ := reply_eq_ok hplan hpair
    exact ⟨output, congrArg Prod.fst hinvoke⟩
  · rintro ⟨output, houtput⟩
    obtain ⟨reply, hreply, _⟩ := Reply.build_of_plan second hplan (b.invoke_fits call s houtput)
    refine ⟨reply, ?_⟩
    rw [reply_of_ok b.backend second hplan houtput]
    exact hreply

/-- A planned request reaches the host once, whatever the host answers. -/
theorem reply_snd (b : Backend σ) (second : Int) (s : σ) (hplan : r.plan = .ok call) :
    (r.reply b second s).2 = (b.invoke call s).2 := by
  cases h : (b.invoke call s).1 with
  | error e => rw [reply_of_error b second hplan h]
  | ok output => rw [reply_of_ok b second hplan h]

end Request

theorem run_eq_ok {b : Backend σ} {second : Int} {accepted : Except RequestError Request}
    {s next : σ} {reply : Reply} (h : run b second accepted s = (.ok reply, next)) :
    ∃ r, accepted = .ok r ∧ r.reply b second s = (.ok reply, next) := by
  cases accepted with
  | error e => cases h
  | ok r => exact ⟨r, rfl, h⟩

theorem Http.ErrorReply.ofError_of_isCallers {fault : RequestError} (h : fault.IsCallers) :
    ErrorReply.ofError fault = ⟨400, fault.message, fault.message⟩ := by
  cases fault with
  | host | notFound => cases h
  | _ => rfl

namespace Endpoint

open Http (Response)

/-- A refused request is answered 400 without a call. -/
theorem run_refused (b : Backend σ) (second : Int) {e : Endpoint} {raw : String} {q : Query}
    {body : Body} {fault : RequestError} (h : e.accept raw q body = .error fault) (s : σ) :
    (run b second (e.accept raw q body) s).2 = s ∧
      Response.ofResult (run b second (e.accept raw q body) s).1 =
        .ofErrorReply ⟨400, fault.message, fault.message⟩ := by
  have hreads := accept_reads e raw q body
  rw [h] at hreads ⊢
  refine ⟨rfl, ?_⟩
  show Response.ofErrorReply (.ofError fault) = _
  rw [Http.ErrorReply.ofError_of_isCallers hreads]

end Endpoint

end MvsGateway
