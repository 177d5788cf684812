/-
  SoapPipeline.Proofs.Client.Deadlines

  From the deadline of a call to the timeout of the server.

  A deadline is given to a call as a duration.  It becomes an integer property of each
  request, crosses to the server like everything on the wire, and is read there as a
  count of milliseconds.  The two ends agree on every duration, whatever the server's
  default is: one of zero milliseconds is no wish for the default, and one beyond all
  integers is as long as integers go.

  In between the client's handlers have the message in their hands and may change the
  property as they like.  What they are asked to leave alone they do leave alone, whether
  the chain ends well, compensates, or has its fault absorbed.

  Main results:
    * `deadline?_request`: what a request says;
    * `deadline?_of_dispatch`: a dispatch changes the deadline only through its handlers;
    * `sends_iff`, `sendsOnly_iff`: what crosses for a call with and without a response;
    * `timeoutOf_of_said`, `timeoutOf_eq_default_iff`: what the server makes of a message;
    * `deadline_reaches_server`: all of it in a row.
-/
import SoapPipeline.Proofs.Client.Loopback
import SoapPipeline.Proofs.Dispatch.Conservation
import SoapPipeline.Proofs.Middleware.Refinement

namespace SoapPipeline

open Program

/-! ## What a request says -/

/-- What a message says in its deadline property. -/
def Context.deadline? (ctx : Context) : Option Value := ctx.property? deadlineProperty

/-- The milliseconds that a deadline comes to: its whole ones, or as many as an integer holds. -/
def Duration.timeout (d : Duration) : Nat := min d.wholeMillis 0x7FFFFFFFFFFFFFFF

theorem deadlineValue_wholeMillis (d : Duration) :
    deadlineValue d.wholeMillis = .int (d.timeout : Int) := by
  unfold deadlineValue Duration.timeout Value.maxInt
  congr 1
  omega

theorem properties_foldl_addHeader (headers : List (QName × Bool)) (ctx : Context) :
    (headers.foldl (fun ctx (name, must) => ctx.addHeader name must) ctx).properties =
      ctx.properties := by
  induction headers generalizing ctx with
  | nil => rfl
  | cons header headers ih => rw [List.foldl_cons, ih]; rfl

/-- Every request of a call with a deadline says how many milliseconds that is. -/
theorem deadline?_request (c : CallSettings) (d : Duration) (engineId : String) (id : MessageId)
    (operation : QName) (payload : Payload) :
    ((c.withDeadline d).request engineId id operation payload).deadline? =
      some (.int (d.timeout : Int)) := by
  rw [← deadlineValue_wholeMillis]
  unfold CallSettings.request CallSettings.withDeadline Context.deadline? Context.property?
    Context.setProperty
  dsimp only
  rw [properties_foldl_addHeader]
  rfl

/-! ## What the client's handlers leave -/

/-- If this is a question to a handler, it leaves the deadline of the message as it finds it. -/
def LeavesDeadline : ExchangeEvent → Prop
  | ⟨.invoke _ ctx, answer⟩ => Context.deadline? (answer : Except Fault Verdict × Context).2 =
      ctx.deadline?
  | ⟨.undo _ ctx, answer⟩ => Context.deadline? answer = ctx.deadline?
  | _ => True

section Dispatch

variable {ctx left final : Context} {events : List ExchangeEvent} {handlers : List Handler}

theorem deadline?_of_proceeds (h : Chain.Proceeds handlers ctx events final)
    (hleave : ∀ e ∈ events, LeavesDeadline e) : final.deadline? = ctx.deadline? := by
  induction h with
  | nil => rfl
  | cons _ ih =>
    obtain ⟨hfirst, hrest⟩ := List.forall_mem_cons.mp hleave
    exact (ih hrest).trans hfirst

theorem deadline?_of_unwound (h : Chain.Unwound handlers ctx events final)
    (hleave : ∀ e ∈ events, LeavesDeadline e) : final.deadline? = ctx.deadline? := by
  induction h with
  | nil => rfl
  | cons _ ih =>
    obtain ⟨hfirst, hrest⟩ := List.forall_mem_cons.mp hleave
    exact (ih hrest).trans hfirst

/-- A chain leaves the deadline alone if its handlers do, however it ends. -/
theorem deadline?_of_execute {c : Chain} {result : Except ChainFault ChainOutcome}
    (hrun : Run (c.execute ctx) events (result, final))
    (hleave : ∀ e ∈ events, LeavesDeadline e) : final.deadline? = ctx.deadline? := by
  cases Chain.run_runSteps_iff.mp hrun with
  | completed hproceeds => exact deadline?_of_proceeds hproceeds hleave
  | shortCircuited _ hproceeds =>
    obtain ⟨hbefore, hlast⟩ := List.forall_mem_append.mp hleave
    exact Eq.trans (hlast _ List.mem_cons_self) (deadline?_of_proceeds hproceeds hbefore)
  | failed _ hproceeds hundone =>
    obtain ⟨hbefore, hafter⟩ := List.forall_mem_append.mp hleave
    obtain ⟨hfailed, hundoing⟩ := List.forall_mem_cons.mp hafter
    exact (deadline?_of_unwound hundone hundoing).trans
      (hfailed.trans (deadline?_of_proceeds hproceeds hbefore))

theorem deadline?_of_raisesOn {lease : Lease} {i : Incident} (h : RaisesOn lease ctx events i)
    (hleave : ∀ e ∈ events, LeavesDeadline e) : i.context.deadline? = ctx.deadline? := by
  cases h with
  | notOffered => rfl
  | chain _ hrun => exact deadline?_of_execute hrun hleave
  | mustUnderstand _ hrun => exact deadline?_of_execute hrun hleave

/-- Marking a message with its fault leaves the deadline alone. -/
theorem deadline?_of_handled {i : Incident} {result : Except Fault Outcome}
    (h : Handled i events result final) (hleave : ∀ e ∈ events, LeavesDeadline e) :
    final.deadline? = i.context.deadline? := by
  cases h with
  | absorbed => exact hleave _ List.mem_cons_self
  | replaced => exact hleave _ List.mem_cons_self
  | unregistered _ hrun =>
    show final.deadline? = i.marked.deadline?
    exact deadline?_of_execute hrun hleave

theorem deadline?_stamped (engineId : String) :
    (ctx.stamped engineId).deadline? = ctx.deadline? := by
  unfold Context.stamped
  split <;> rfl

/-- A dispatch leaves the deadline alone if the handlers that it asks do. -/
theorem deadline?_of_dispatch {engineId : String} {result : Except Fault Outcome}
    (hrun : Run (dispatch engineId ctx) events (result, final))
    (hleave : ∀ e ∈ events, LeavesDeadline e) : final.deadline? = ctx.deadline? := by
  rcases cases_of_dispatch hrun with ⟨before, i, handling, rfl, hraises, hhandled⟩ |
    ⟨lease, chainEvents, outcome, rfl, hsucceeds, -⟩
  · obtain ⟨hbefore, -⟩ := List.forall_mem_append.mp hleave
    obtain ⟨hbefore, hhandling⟩ := List.forall_mem_append.mp hbefore
    refine (deadline?_of_handled hhandled hhandling).trans ?_
    cases hraises with
    | notDeployed => exact deadline?_stamped engineId
    | deployed hraises =>
      refine (deadline?_of_raisesOn hraises (List.forall_mem_cons.mp hbefore).2).trans ?_
      exact deadline?_stamped engineId
  · obtain ⟨-, hleave⟩ := List.forall_mem_cons.mp hleave
    obtain ⟨hchain, -⟩ := List.forall_mem_append.mp hleave
    exact (deadline?_of_execute hsucceeds.run hchain).trans (deadline?_stamped engineId)

theorem deadline?_of_dispatchReport {engineId : String} {report : Report}
    (hrun : Run (dispatchReport engineId ctx) events (.ok report))
    (hleave : ∀ e ∈ events, LeavesDeadline e) : report.context.deadline? = ctx.deadline? := by
  obtain ⟨front, ⟨result, final⟩, back, rfl, hdispatch, hdone⟩ := Run.bind_iff.mp hrun
  cases result with
  | error fault => cases hdone
  | ok outcome =>
    obtain ⟨rfl, hreport⟩ := Run.pure_iff.mp hdone
    obtain rfl := Except.ok.inj hreport
    rw [List.append_nil] at hleave
    exact deadline?_of_dispatch hdispatch hleave

end Dispatch

/-! ## What crosses -/

namespace Remote

variable {engineId : String} {request message : Context} {out : List RemoteEvent}

/-- A dispatch on the pool that gives a result has not broken down. -/
theorem exists_run_of_onPool {α : Type} {program : Exchange (Except Fault α)} {a : α}
    (h : Run (onPool program) out (.ok a)) :
    ∃ events, out = events.map onClient ∧ Run program events (.ok a) := by
  induction program generalizing out with
  | done result =>
    rw [onPool] at h
    obtain ⟨rfl, hresult⟩ := Run.pure_iff.mp h
    cases result with
    | error fault => cases hresult
    | ok a' =>
      obtain rfl := Except.ok.inj hresult
      exact ⟨[], rfl, Run.done _⟩
  | ask q next ih =>
    rw [onPool] at h
    obtain ⟨reply, later, rfl, hlater⟩ := Run.ask_iff.mp h
    cases reply with
    | none => cases hlater
    | some answer =>
      obtain ⟨events, rfl, hrun⟩ := ih answer hlater
      exact ⟨⟨q, answer⟩ :: events, rfl, Run.ask hrun⟩

/-- So the client's engine leaves the deadline alone if its handlers do. -/
theorem deadline?_of_dispatch {sent : Report}
    (hsent : Run (dispatch engineId request) out (.ok sent))
    (hleave : ∀ e, onClient e ∈ out → LeavesDeadline e) :
    sent.context.deadline? = request.deadline? := by
  obtain ⟨events, rfl, hrun⟩ := exists_run_of_onPool hsent
  exact deadline?_of_dispatchReport hrun fun e he => hleave e (List.mem_map_of_mem he)

/-- After these events a call without a response sends this message to the other engine. -/
def SendsOnly (engineId : String) (request : Context) (out : List RemoteEvent)
    (message : Context) : Prop :=
  ∃ reply rest, Begun ((Errand.oneWay request).run (answer engineId))
    (out ++ [⟨.serve message, reply⟩]) rest

/-- How a call without a response goes on when the client's engine has dispatched the request. -/
def forwardOnly : Except DispatchError Report → Remote CallResult
  | .ok sent => .ask (.serve sent.context.crossing) fun reply =>
    .done ((crossingBack reply).map fun _ => sent.context)
  | .error e => .done (.error (.ofDispatch e))

theorem oneWay_eq :
    (Errand.oneWay request).run (answer engineId) = dispatch engineId request >>= forwardOnly := by
  show (dispatch engineId request >>= fun _ => _) = _
  congr 1
  funext dispatched
  cases dispatched with
  | error e => rfl
  | ok sent =>
    show Program.ask _ _ = _
    congr 1
    funext reply
    cases reply <;> rfl

/-- What a run of the outbound chain leaves decides what is sent, also when no response is
expected. -/
theorem sendsOnly_iff {sent : Report} (hsent : Run (dispatch engineId request) out (.ok sent)) :
    SendsOnly engineId request out message ↔ message = sent.context.crossing := by
  unfold SendsOnly
  rw [oneWay_eq]
  constructor
  · intro h
    obtain ⟨reply, rest, h⟩ := h
    obtain ⟨sent', hsent', hmessage, -⟩ :=
      (begun_forward_iff fun _ _ _ _ hbegun => atHome_done hbegun).mp h
    cases hsent.unique hsent'
    exact hmessage
  · intro hmessage
    refine ⟨.error .overloaded, .done (.error (.ofDispatch .overloaded)), ?_⟩
    exact (begun_forward_iff fun _ _ _ _ hbegun => atHome_done hbegun).mpr
      ⟨sent, hsent, hmessage, .here _⟩

end Remote

theorem deadline?_crossing (ctx : Context) : ctx.crossing.deadline? = ctx.deadline? := by
  show ctx.crossing.wire.deadline = ctx.wire.deadline
  rw [crossing_eq, wire_message]

/-! ## What the server makes of it -/

/-- The default counts exactly when a message says nothing, or no integer, or a negative one. -/
theorem timeoutOf_eq_default_iff {ctx : Context} :
    (∀ default, timeoutOf default ctx = default) ↔
      ctx.deadline? = none ∨
        ∃ value, ctx.deadline? = some value ∧ ∀ ms, value.int? = some ms → ms < 0 := by
  constructor
  · intro hdefault
    cases hsaid : ctx.deadline? with
    | none => exact Or.inl rfl
    | some value =>
      refine Or.inr ⟨value, rfl, fun ms hint => ?_⟩
      cases value with
      | int n =>
        obtain rfl := Option.some.inj hint
        -- A number that is said would have to be equal to every default.
        by_contra hnonnegative
        obtain ⟨k, rfl⟩ := Int.eq_ofNat_of_zero_le (Int.not_lt.mp hnonnegative)
        have hk := hdefault (k + 1)
        rw [timeoutOf_of_said hsaid] at hk
        omega
      | null | bool | float | string | bytes | array | map => cases hint
  · intro hsilent default
    refine timeoutOf_of_silent fun ms hsaid => ?_
    rcases hsilent with hnone | ⟨value, hvalue, hnegative⟩
    · exact absurd (hnone.symm.trans hsaid) (by simp)
    · obtain rfl := Option.some.inj (hvalue.symm.trans hsaid)
      have := hnegative ms rfl
      omega

/-- The deadline of a call reaches the server as it is.  Every request of the call says it; the
client's engine leaves it alone if the handlers do; it is what the other engine is sent, with or
without a response; and the layers of that engine give up after its milliseconds and report them,
whatever the default is.  The default counts for those messages only that say nothing, or no
integer, or a negative one. -/
theorem deadline_reaches_server (c : CallSettings) (d : Duration) (engineId : String)
    (id : MessageId) (operation : QName) (payload : Payload) :
    let request := (c.withDeadline d).request engineId id operation payload
    (∀ out sent, Run (Remote.dispatch engineId request) out (.ok sent) →
      (∀ e, Remote.onClient e ∈ out → LeavesDeadline e) →
      sent.context.deadline? = request.deadline?) ∧
    (∀ out sent, Run (Remote.dispatch engineId request) out (.ok sent) →
      sent.context.deadline? = request.deadline? →
      (∀ message, (Remote.Sends engineId request out message ↔ message = sent.context.crossing) ∧
        (Remote.SendsOnly engineId request out message ↔ message = sent.context.crossing)) ∧
      (∀ default, timeoutOf default sent.context.crossing = min d.wholeMillis 0x7FFFFFFFFFFFFFFF) ∧
      ∀ (config : Config) (permits : Permits), permits.taken < permits.limit → ∀ calls result,
        (∃ p, Run (Layer.pass sent.context.crossing Service.ask (Layer.around config permits)) calls
            p ∧ result = p.answer.result) ↔
          ∃ answer, calls = [⟨sent.context.crossing, answer⟩] ∧
            result = inTime (min d.wholeMillis 0x7FFFFFFFFFFFFFFF) answer) ∧
    ∀ message : Context,
      (∀ (ms : Nat) default, message.deadline? = some (.int ms) →
        timeoutOf default message = ms) ∧
      ((∀ default, timeoutOf default message = default) ↔
        message.deadline? = none ∨
          ∃ value, message.deadline? = some value ∧ ∀ ms, value.int? = some ms → ms < 0) := by
  intro request
  refine ⟨fun out sent hsent hleave => Remote.deadline?_of_dispatch hsent hleave, ?_,
    fun message => ⟨fun ms default hsaid => timeoutOf_of_said hsaid, timeoutOf_eq_default_iff⟩⟩
  intro out sent hsent hkept
  have hsaid : sent.context.crossing.deadline? = some (.int (d.timeout : Int)) := by
    rw [deadline?_crossing, hkept]
    exact deadline?_request c d engineId id operation payload
  have htimeout : ∀ default, timeoutOf default sent.context.crossing = d.timeout :=
    fun default => timeoutOf_of_said hsaid
  refine ⟨fun message => ⟨Remote.sends_iff hsent, Remote.sendsOnly_iff hsent⟩, htimeout, ?_⟩
  intro config permits hfree calls result
  rw [exists_around_iff hfree, htimeout]
  rfl

/-- A request to the service without handlers, with this deadline. -/
def clockRequest (d : Duration) : Context :=
  (CallSettings.withDeadline ⟨⟨"", "clock"⟩, [], none⟩ d).request "front" ⟨1⟩ ⟨"", "now"⟩ .empty

theorem run_clockRequest (d : Duration) :
    Run (Remote.dispatch "front" (clockRequest d)) (Remote.quietEvents.map Remote.onClient)
      (.ok ⟨clockRequest d, .completed, none⟩) :=
  have hrun : Run (dispatchReport "front" (clockRequest d)) Remote.quietEvents
      (.ok ⟨clockRequest d, .completed, none⟩) := .ask (.ask (.done _))
  Remote.run_onPool hrun

/-- No time at all, and more milliseconds than an integer holds. -/
theorem extreme_deadlines_reach :
    timeoutOf 30000 (clockRequest ⟨0, 0⟩).crossing = 0 ∧
      timeoutOf 30000 (clockRequest ⟨18446744073709551615, 999999999⟩).crossing =
        0x7FFFFFFFFFFFFFFF ∧
      ∃ p, Run (Layer.pass (clockRequest ⟨0, 0⟩).crossing Service.ask
          (Layer.around .standard ⟨1, 0⟩))
          [⟨(clockRequest ⟨0, 0⟩).crossing, ⟨.error .breakdown, ⟨1, false⟩⟩⟩] p ∧
        p.answer.result = .error (.deadlineExceeded 0) := by
  obtain ⟨hleft, hzero, -⟩ := deadline_reaches_server ⟨⟨"", "clock"⟩, [], none⟩ ⟨0, 0⟩ "front" ⟨1⟩
    ⟨"", "now"⟩ .empty
  obtain ⟨-, hlongest, -⟩ := deadline_reaches_server ⟨⟨"", "clock"⟩, [], none⟩
    ⟨18446744073709551615, 999999999⟩ "front" ⟨1⟩ ⟨"", "now"⟩ .empty
  have hquiet : ∀ e, Remote.onClient e ∈ Remote.quietEvents.map Remote.onClient →
      LeavesDeadline e := by
    intro e he
    obtain ⟨e', he', hsame⟩ := List.mem_map.mp he
    cases e
    cases e'
    cases hsame
    cases he' with
    | head => exact trivial
    | tail _ he' => cases he' with
      | head => exact trivial
      | tail _ he' => cases he'
  obtain ⟨-, htimeout, hlayers⟩ := hzero _ _ (run_clockRequest _)
    (hleft _ _ (run_clockRequest _) hquiet)
  have hmillis : min (Duration.wholeMillis ⟨0, 0⟩) 0x7FFFFFFFFFFFFFFF = 0 := by decide
  rw [hmillis] at htimeout hlayers
  obtain ⟨p, hrun, hresult⟩ := (hlayers .standard ⟨1, 0⟩ (by decide) _ _).mpr
    ⟨⟨.error .breakdown, ⟨1, false⟩⟩, rfl, rfl⟩
  have hlong := (hlongest _ _ (run_clockRequest _) rfl).2.1 30000
  exact ⟨htimeout 30000, hlong.trans (by decide), p, hrun, hresult.symm⟩

end SoapPipeline
