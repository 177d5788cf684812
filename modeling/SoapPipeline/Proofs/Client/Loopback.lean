/-
  SoapPipeline.Proofs.Client.Loopback

  What crosses between a client and an engine in the same process.

  The two share memory, so nothing but the program keeps the state of one from the
  other.  A request is built anew for the engine from what a wire would carry, and of
  the engine's answer the client gets the body or the error alone.  The response is
  then built from the client's own request.

  Whatever the handlers of the client do, and whatever the other engine answers, is
  left open; a handler may also break down, and an exchange need not have come to its
  end.  So what is proved holds of every client and of every server, at every point.

  Main results:
    * `crossing_eq_iff`: what is built for the engine, and for what it stands;
    * `begun_exchange_iff`: an exchange is cut where the engine is asked;
    * `only_wire_crosses`: two exchanges that cannot be told apart by what crosses go
      the same way.
-/
import SoapPipeline.Client
import SoapPipeline.Proofs.Ahead
import SoapPipeline.Proofs.Program.Runs

namespace SoapPipeline

open Program

/-! ## The wire -/

/-- What of a message a wire carries. -/
structure Wire where
  messageId : MessageId
  service : QName
  operation : QName
  payload : Payload
  /-- The names of the header blocks, and whether the receiver must understand them. -/
  headers : List (QName × Bool)
  /-- The deadline property. -/
  deadline : Option Value

/-- What of this message a wire carries. -/
def Context.wire (ctx : Context) : Wire where
  messageId := ctx.messageId
  service := ctx.service
  operation := ctx.operation
  payload := ctx.payload
  headers := ctx.headers.map fun h => (h.name, h.mustUnderstand)
  deadline := ctx.property? deadlineProperty

/-- The message that an engine builds from what came over a wire. -/
def Wire.message (w : Wire) : Context :=
  { Context.fresh w.messageId w.service w.operation .inbound w.payload with
    headers := w.headers.map fun (name, must) => ⟨name, must, false⟩
    properties := w.deadline.toList.map fun deadline => (deadlineProperty, deadline) }

theorem foldl_addHeader (headers : List Header) (ctx : Context) :
    headers.foldl (fun ctx h => ctx.addHeader h.name h.mustUnderstand) ctx =
      { ctx with
        headers := ctx.headers ++ headers.map fun h => ⟨h.name, h.mustUnderstand, false⟩ } := by
  induction headers generalizing ctx with
  | nil =>
    rw [List.map_nil, List.append_nil]
    rfl
  | cons h headers ih =>
    rw [List.foldl_cons, ih]
    unfold Context.addHeader
    rw [List.append_assoc]
    rfl

/-- What is handed over for a request is built from what a wire would carry. -/
theorem crossing_eq (ctx : Context) : ctx.crossing = ctx.wire.message := by
  unfold Context.crossing
  dsimp only
  rw [foldl_addHeader]
  unfold Context.wire Wire.message
  rw [List.map_map]
  cases ctx.property? deadlineProperty <;> rfl

theorem wire_message (w : Wire) : w.message.wire = w := by
  obtain ⟨id, service, operation, payload, headers, deadline⟩ := w
  have hheaders : (headers.map fun (name, must) => (⟨name, must, false⟩ : Header)).map
      (fun h => (h.name, h.mustUnderstand)) = headers := by
    rw [List.map_map]
    exact List.map_id headers
  unfold Context.wire Wire.message
  dsimp only
  rw [hheaders]
  cases deadline <;> rfl

/-- What is handed over tells apart what a wire tells apart, and no more. -/
theorem crossing_eq_iff {ctx ctx' : Context} :
    ctx.crossing = ctx'.crossing ↔ ctx.wire = ctx'.wire := by
  rw [crossing_eq, crossing_eq]
  constructor
  · intro h
    rw [← wire_message ctx.wire, h, wire_message]
  · exact congrArg Wire.message

/-! ## Exchanges -/

namespace Remote

/-- What an exchange asks for on both sides. -/
inductive Question where
  /-- A dispatch on the client's engine asks this. -/
  | client (question : Exchange.Question)
  /-- The pipeline of the other engine is sent a message. -/
  | serve (message : Context)
  /-- A message id is to be made that no other message has. -/
  | freshId

/-- What is asked of a handler of the client may break down. -/
abbrev Question.Answer : Question → Type
  | .client question => Option question.Answer
  | .serve _ => Except DispatchError Report
  | .freshId => MessageId

/-- The interface of exchanges. -/
abbrev interface : Interface := ⟨Question, Question.Answer⟩

end Remote

/-- A program that runs on the client and sends messages to the other engine. -/
abbrev Remote (α : Type) : Type := Program Remote.interface α

/-- A question of an exchange, and its answer. -/
abbrev RemoteEvent : Type := Event Remote.interface

namespace Remote

/-- Runs a message on the pool of the client's engine, where a breakdown ends it. -/
def onPool {α : Type} : Exchange (Except Fault α) → Remote (Except DispatchError α)
  | .done result => .done (DispatchError.ofEnd (some result))
  | .ask question next => .ask (.client question) fun
    | some answer => onPool (next answer)
    | none => .done (DispatchError.ofEnd none)

/-- A dispatch on the client's engine. -/
def dispatch (engineId : String) (message : Context) : Remote (Except DispatchError Report) :=
  onPool (dispatchReport engineId message)

def freshId : Remote MessageId :=
  question (I := interface) .freshId

/-- How the questions of an errand are answered over a loopback. -/
def answer (engineId : String) : (q : Errand.Question) → Remote q.Answer
  | .dispatch message => dispatch engineId message
  | .carry request => loopback (fun message => question (I := interface) (.serve message)) request
  | .freshId => freshId

/-- The exchange of a client with another engine, from the request to the response. -/
def exchange (engineId : String) (request : Context) : Remote CallResult :=
  (Errand.roundTrip request).run (answer engineId)

/-- What is left of an exchange when the answer of the other engine has crossed. -/
def onward (engineId : String) (request : Context) (crossed : Except CallError (Option Payload)) :
    Remote CallResult :=
  (Errand.takeResponse request crossed).run (answer engineId)

/-- Nothing is sent to the other engine. -/
def AtHome (events : List RemoteEvent) : Prop :=
  ∀ message reply, (⟨.serve message, reply⟩ : RemoteEvent) ∉ events

section AtHome

variable {engineId : String} {events : List RemoteEvent}

theorem atHome_nil : AtHome [] := fun _ _ => List.not_mem_nil

theorem AtHome.cons {e : RemoteEvent} (h : AtHome events)
    (he : ∀ message, e.question ≠ .serve message) : AtHome (e :: events) := by
  intro message reply hmem
  rcases List.mem_cons.mp hmem with heq | hmem
  · exact he message (heq ▸ rfl)
  · exact h message reply hmem

theorem AtHome.append {events' : List RemoteEvent} (h : AtHome events) (h' : AtHome events') :
    AtHome (events ++ events') := by
  intro message reply hmem
  exact (List.mem_append.mp hmem).elim (h message reply) (h' message reply)

/-- Nothing is asked by a program that is done. -/
theorem atHome_done {α : Type} {a : α} {rest : Remote α} (h : Begun (.done a) events rest) :
    AtHome events := by
  cases h with
  | here => exact atHome_nil

/-- The client's engine dispatches on its own. -/
theorem atHome_onPool {α : Type} {program : Exchange (Except Fault α)}
    {rest : Remote (Except DispatchError α)} (h : Begun (onPool program) events rest) :
    AtHome events := by
  induction program generalizing events with
  | done result =>
    rw [onPool] at h
    exact atHome_done h
  | ask q next ih =>
    rw [onPool] at h
    cases h with
    | here => exact atHome_nil
    | @ask _ _ reply _ _ h =>
      refine AtHome.cons ?_ fun message heq => Question.noConfusion heq
      cases reply with
      | some value => exact ih value h
      | none => exact atHome_done h

/-- What an exchange comes to when its last dispatch is over. -/
def finish (dispatched : Except DispatchError Report) : CallResult :=
  (dispatched.map Report.context).mapError CallError.ofDispatch

/-- With a body that has crossed, a message is dispatched that is built from it and from the
request. -/
theorem onward_body {request : Context} {body : Payload} :
    onward engineId request (.ok (some body)) =
      do
        let id ← freshId
        return finish (← dispatch engineId (request.received id body)) := by
  show (freshId >>= fun id => _) = _
  congr 1
  funext id
  show (dispatch engineId (request.received id body) >>= fun _ => _) = _
  congr 1
  funext dispatched
  cases dispatched <;> rfl

/-- Once the answer has crossed the other engine is not asked again. -/
theorem atHome_onward {request : Context} {crossed : Except CallError (Option Payload)}
    {rest : Remote CallResult} (h : Begun (onward engineId request crossed) events rest) :
    AtHome events := by
  rcases crossed with e | - | body
  · exact atHome_done h
  · exact atHome_done h
  · rw [onward_body] at h
    cases h with
    | here => exact atHome_nil
    | @ask _ _ id later _ h =>
      refine AtHome.cons ?_ fun message heq => Question.noConfusion heq
      change Begun (dispatch engineId (request.received id body) >>= _) later rest at h
      rcases Begun.bind_iff.mp h with ⟨left, hleft, -⟩ | ⟨front, _, back, rfl, hfront, hback⟩
      · exact atHome_onPool hleft
      · exact (atHome_onPool hfront.begun).append (atHome_done hback)

end AtHome

/-! ### Where the other engine is asked -/

variable {engineId : String} {request message message' : Context} {out back : List RemoteEvent}
  {rest : Remote CallResult}
  {reply reply' : Except DispatchError Report}

/-- The other engine is asked at one place only. -/
theorem AtHome.split {front later : List RemoteEvent} (hfront : AtHome front)
    (hlater : AtHome later)
    (h : front ++ ⟨.serve message', reply'⟩ :: later = out ++ ⟨.serve message, reply⟩ :: back) :
    front = out ∧ message' = message ∧ reply' = reply ∧ later = back := by
  rcases append_eq_append_cons_cases h with ⟨between, rfl, -⟩ | ⟨between, hout, htail⟩
  · exact absurd (List.mem_append_right out List.mem_cons_self) (hfront message reply)
  · cases between with
    | nil =>
      obtain ⟨hevent, rfl⟩ := List.cons_eq_cons.mp htail
      cases hevent
      exact ⟨(List.append_nil front ▸ hout).symm, rfl, rfl, rfl⟩
    | cons e between =>
      obtain ⟨-, rfl⟩ := List.cons_eq_cons.mp htail
      exact absurd (List.mem_append_right between List.mem_cons_self) (hlater message reply)

/-- What a dispatch has left is sent to the other engine at one place, when what is done with its
answer stays at home. -/
theorem begun_forward_iff {α : Type} {rest : Remote α}
    {next : Report → Except DispatchError Report → Remote α} {failed : DispatchError → α}
    (hnext : ∀ sent reply events rest, Begun (next sent reply) events rest → AtHome events) :
    Begun (dispatch engineId request >>= fun
        | .ok sent => .ask (.serve sent.context.crossing) (next sent)
        | .error e => .done (failed e))
      (out ++ ⟨.serve message, reply⟩ :: back) rest ↔
      ∃ sent : Report, Run (dispatch engineId request) out (.ok sent) ∧
        message = sent.context.crossing ∧ Begun (next sent reply) back rest := by
  rw [Begun.bind_iff]
  constructor
  · intro h
    have hmem : (⟨.serve message, reply⟩ : RemoteEvent) ∈ out ++ ⟨.serve message, reply⟩ :: back :=
      List.mem_append_right out List.mem_cons_self
    rcases h with ⟨left, hleft, -⟩ | ⟨front, dispatched, after, hevents, hfront, hafter⟩
    · exact absurd hmem (atHome_onPool hleft message reply)
    · have hhome : AtHome front := atHome_onPool hfront.begun
      cases dispatched with
      | error e =>
        rw [hevents] at hmem
        exact absurd hmem (hhome.append (atHome_done hafter) message reply)
      | ok sent =>
        cases hafter with
        | here =>
          rw [hevents, List.append_nil] at hmem
          exact absurd hmem (hhome message reply)
        | @ask _ _ answered later _ hlater =>
          obtain ⟨rfl, rfl, rfl, rfl⟩ := hhome.split (hnext _ _ _ _ hlater) hevents.symm
          exact ⟨sent, hfront, rfl, hlater⟩
  · intro h
    obtain ⟨sent, hout, rfl, hback⟩ := h
    exact Or.inr ⟨out, .ok sent, _, rfl, hout, .ask hback⟩

/-- How an exchange goes on when the client's engine has dispatched the request. -/
def forward (engineId : String) : Except DispatchError Report → Remote CallResult
  | .ok sent => .ask (.serve sent.context.crossing) fun reply =>
    onward engineId sent.context (crossingBack reply)
  | .error e => .done (.error (.ofDispatch e))

theorem exchange_eq :
    exchange engineId request = dispatch engineId request >>= forward engineId := by
  show (dispatch engineId request >>= fun _ => _) = _
  congr 1
  funext dispatched
  cases dispatched <;> rfl

/-- An exchange asks the other engine once, when the outbound chain has left something to
send. -/
theorem begun_exchange_iff :
    Begun (exchange engineId request) (out ++ ⟨.serve message, reply⟩ :: back) rest ↔
      ∃ sent : Report, Run (dispatch engineId request) out (.ok sent) ∧
        message = sent.context.crossing ∧
        Begun (onward engineId sent.context (crossingBack reply)) back rest := by
  rw [exchange_eq]
  exact begun_forward_iff fun _ _ _ _ hbegun => atHome_onward hbegun

/-- When the outbound chain has left this to send, nothing else is sent, and the exchange goes on
with it. -/
theorem begun_exchange_iff_of_run {sent : Report}
    (hsent : Run (dispatch engineId request) out (.ok sent)) :
    Begun (exchange engineId request) (out ++ ⟨.serve message, reply⟩ :: back) rest ↔
      message = sent.context.crossing ∧
        Begun (onward engineId sent.context (crossingBack reply)) back rest := by
  rw [begun_exchange_iff]
  constructor
  · intro h
    obtain ⟨sent', hsent', hmessage, hback⟩ := h
    cases hsent.unique hsent'
    exact ⟨hmessage, hback⟩
  · intro h
    exact ⟨sent, hsent, h.1, h.2⟩

/-! ### What crosses -/

/-- After these events the exchange sends this message to the other engine. -/
def Sends (engineId : String) (request : Context) (out : List RemoteEvent) (message : Context) :
    Prop :=
  ∃ reply rest, Begun (exchange engineId request) (out ++ [⟨.serve message, reply⟩]) rest

/-- Something is sent only when the client's engine has dispatched the request. -/
theorem Sends.exists_sent (h : Sends engineId request out message) :
    ∃ sent : Report, Run (dispatch engineId request) out (.ok sent) := by
  obtain ⟨reply, rest, h⟩ := h
  obtain ⟨sent, hsent, -⟩ := begun_exchange_iff.mp h
  exact ⟨sent, hsent⟩

/-- What a run of the outbound chain leaves decides what is sent. -/
theorem sends_iff {sent : Report} (hsent : Run (dispatch engineId request) out (.ok sent)) :
    Sends engineId request out message ↔ message = sent.context.crossing := by
  constructor
  · intro h
    obtain ⟨reply, rest, h⟩ := h
    exact ((begun_exchange_iff_of_run hsent).mp h).1
  · intro hmessage
    exact ⟨.error .overloaded, _, (begun_exchange_iff_of_run hsent).mpr ⟨hmessage, .here _⟩⟩

/-- The other engine answers with the same body, or with the same error. -/
def SameAnswer : Except DispatchError Report → Except DispatchError Report → Prop
  | .ok report, .ok report' =>
    report.response.map Context.payload = report'.response.map Context.payload
  | .error e, .error e' => e = e'
  | _, _ => False

theorem SameAnswer.crossingBack_eq (h : SameAnswer reply reply') :
    crossingBack reply = crossingBack reply' := by
  cases reply <;> cases reply'
  · exact congrArg (fun e => Except.error (CallError.ofDispatch e)) h
  · exact False.elim h
  · exact False.elim h
  · exact congrArg Except.ok h

/-- An exchange that was answered the same has come just as far. -/
theorem begun_exchange_iff_of_sameAnswer (h : SameAnswer reply reply') :
    Begun (exchange engineId request) (out ++ ⟨.serve message, reply⟩ :: back) rest ↔
      Begun (exchange engineId request) (out ++ ⟨.serve message, reply'⟩ :: back) rest := by
  rw [begun_exchange_iff, begun_exchange_iff, h.crossingBack_eq]

/-- With a response the exchange goes on as one dispatch of the client's engine. -/
theorem begun_exchange_iff_of_response {sent report : Report} {response : Context}
    (hsent : Run (dispatch engineId request) out (.ok sent))
    (hresponse : report.response = some response) :
    Begun (exchange engineId request)
        (out ++ ⟨.serve sent.context.crossing, .ok report⟩ :: back) rest ↔
      Begun (do
          let id ← freshId
          return finish (← dispatch engineId (sent.context.received id response.payload)))
        back rest := by
  have hcrossed : crossingBack (.ok report) = .ok (some response.payload) := by
    show Except.ok (report.response.map Context.payload) = _
    rw [hresponse]
    rfl
  rw [begun_exchange_iff_of_run hsent, hcrossed, onward_body]
  exact and_iff_right rfl

/-- Only what a wire carries crosses between a client and an engine in the same process.  Whatever
the client's handlers do and whatever the other engine is, requests that agree on the wire when
the outbound chain has run are the same message to the other engine, and to the client the other
engine is no more than the body, or the error, that comes back. -/
theorem only_wire_crosses :
    -- To the other engine.
    (∀ {engineId : String} {request : Context} {out : List RemoteEvent} {message : Context},
      Sends engineId request out message →
        ∃ sent : Report, Run (dispatch engineId request) out (.ok sent)) ∧
    (∀ {engineId engineId' : String} {request request' : Context} {out out' : List RemoteEvent}
        {sent sent' : Report},
      Run (dispatch engineId request) out (.ok sent) →
      Run (dispatch engineId' request') out' (.ok sent') →
      sent.context.wire = sent'.context.wire →
        ∃ received, ∀ message,
          (Sends engineId request out message ↔ message = received) ∧
            (Sends engineId' request' out' message ↔ message = received)) ∧
    -- Back to the client.
    (∀ {engineId : String} {request message : Context} {out back : List RemoteEvent}
        {reply reply' : Except DispatchError Report} {rest : Remote CallResult},
      SameAnswer reply reply' →
        (Begun (exchange engineId request) (out ++ ⟨.serve message, reply⟩ :: back) rest ↔
          Begun (exchange engineId request) (out ++ ⟨.serve message, reply'⟩ :: back) rest)) ∧
    ∀ {engineId : String} {request : Context} {out back : List RemoteEvent}
        {sent report : Report} {response : Context} {rest : Remote CallResult},
      Run (dispatch engineId request) out (.ok sent) →
      report.response = some response →
        (Begun (exchange engineId request)
            (out ++ ⟨.serve sent.context.crossing, .ok report⟩ :: back) rest ↔
          Begun (do
              let id ← freshId
              return finish (← dispatch engineId
                { messageId := id
                  relatesTo := some sent.context.messageId
                  engineId := sent.context.engineId
                  service := sent.context.service
                  operation := sent.context.operation
                  flow := .inbound
                  payload := response.payload
                  response := none
                  headers := []
                  fault := none
                  properties := sent.context.properties
                  extractor := sent.context.extractor }))
            back rest) := by
  refine ⟨Sends.exists_sent, ?_, begun_exchange_iff_of_sameAnswer, begun_exchange_iff_of_response⟩
  intro engineId engineId' request request' out out' sent sent' hsent hsent' hwire
  refine ⟨sent.context.crossing, fun message => ⟨sends_iff hsent, ?_⟩⟩
  rw [crossing_eq_iff.mpr hwire]
  exact sends_iff hsent'

/-! ## Secrets of either side -/

/-- A question of a dispatch on the client's engine that did not break down. -/
def onClient (e : Event Exchange.interface) : RemoteEvent := ⟨.client e.question, some e.answer⟩

/-- A dispatch in which nothing breaks down. -/
theorem run_onPool {α : Type} {program : Exchange (Except Fault α)}
    {events : List (Event Exchange.interface)} {result : Except Fault α}
    (h : Run program events result) :
    Run (onPool program) (events.map onClient) (DispatchError.ofEnd (some result)) := by
  induction h with
  | done result => exact .done _
  | ask _ ih =>
    rw [onPool, List.map_cons]
    exact Run.ask_iff.mpr ⟨_, _, rfl, ih⟩

/-- What a deployment without handlers holds for a message. -/
def quietLease : Lease where
  deployment := 0
  operations := []
  chains := ⟨⟨.inbound, .engine, []⟩, ⟨.outbound, .engine, []⟩, ⟨.fault, .engine, []⟩⟩

/-- What is asked for a message to the service without handlers. -/
def quietEvents : List (Event Exchange.interface) :=
  [⟨.lookup ⟨"", "clock"⟩, some quietLease⟩, ⟨.release 0, ()⟩]

def timeRequest : Context := Context.fresh ⟨1⟩ ⟨"", "clock"⟩ ⟨"", "now"⟩ .outbound .empty

/-- The same request with a property that is nobody else's business. -/
def secretRequest : Context := timeRequest.setProperty "secret" (.int 7)

/-- A report of the other engine, which has set these properties on the response. -/
def timeReport (properties : Table Value) : Report :=
  ⟨timeRequest, .completed, some { timeRequest with payload := .ofText "noon", properties }⟩

/-- What a client keeps in a property does not cross, and neither does what the other engine
keeps in one. -/
theorem secrets_stay_home :
    Sends "front" timeRequest (quietEvents.map onClient) timeRequest.crossing ∧
      Sends "desk" secretRequest (quietEvents.map onClient) timeRequest.crossing ∧
      ∃ result : Context, result.payload = .ofText "noon" ∧
        result.properties = secretRequest.properties ∧
        ∀ properties,
          Begun (exchange "desk" secretRequest)
            (quietEvents.map onClient ++
              ⟨.serve timeRequest.crossing, .ok (timeReport properties)⟩ ::
              ⟨.freshId, ⟨2⟩⟩ :: quietEvents.map onClient)
            (.done (.ok result)) := by
  obtain ⟨-, hsends, hback, hresponse⟩ := only_wire_crosses
  have hfront : Run (dispatchReport "front" timeRequest) quietEvents
      (.ok ⟨timeRequest.stamped "front", .completed, none⟩) := .ask (.ask (.done _))
  have hdesk : Run (dispatchReport "desk" secretRequest) quietEvents
      (.ok ⟨secretRequest.stamped "desk", .completed, none⟩) := .ask (.ask (.done _))
  let received : Context := (secretRequest.stamped "desk").received ⟨2⟩ (.ofText "noon")
  have hreceived : Run (dispatchReport "desk" received) quietEvents
      (.ok ⟨received, .completed, none⟩) := .ask (.ask (.done _))
  obtain ⟨message, hmessage⟩ := hsends (run_onPool hfront) (run_onPool hdesk) rfl
  have hsent : Sends "front" timeRequest (quietEvents.map onClient) timeRequest.crossing :=
    (sends_iff (run_onPool hfront)).mpr rfl
  refine ⟨hsent, (hmessage _).2.mpr ((hmessage _).1.mp hsent), received, rfl, rfl, ?_⟩
  intro properties
  have hsame : SameAnswer (.ok (timeReport [])) (.ok (timeReport properties)) := rfl
  have hlast : Begun (do return finish (← dispatch "desk" received)) (quietEvents.map onClient)
      (.done (.ok received)) :=
    Begun.bind_iff.mpr (.inr ⟨_, _, [], (List.append_nil _).symm, run_onPool hreceived, .here _⟩)
  have hnoon : (timeReport []).response =
      some { timeRequest with payload := .ofText "noon", properties := [] } := rfl
  exact (hback hsame).mp ((hresponse (run_onPool hdesk) hnoon).mpr (.ask hlast))

end Remote

end SoapPipeline
