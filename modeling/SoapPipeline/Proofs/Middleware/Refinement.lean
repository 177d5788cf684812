/-
  SoapPipeline.Proofs.Middleware.Refinement

  The layers around an engine add nothing to receiving.

  An engine behind its layers answers a request in one of four ways.  It has no permit
  left, and then nothing is done; or the time is up before the request has been received;
  or receiving it has broken down; or else its answer is what receiving the request gives,
  report or fault.  The request is received as it came in, and no layer asks the engine or
  its handlers for anything.

  Receiving a request that takes too long may still go on when the answer is given, and it
  may never end.  How much of it has been done by then is left open.

  Main results:
    * `patience_iff`: how long a request may take;
    * `exists_around_iff`: what the three layers make of an answer;
    * `pipeline_iff`, `pipeline_refines_receive`: the ways in which a request is answered.
-/
import SoapPipeline.Proofs.Chain.Compensation
import SoapPipeline.Proofs.Middleware.Passing

namespace SoapPipeline

open Program

/-! ## How long a request may take -/

/-- The milliseconds that a request may take: what its deadline property says, if that is a
non-negative integer, and else a default. -/
inductive Patience (default : Nat) (request : Context) : Nat → Prop
  | said {ms : Nat} (hsaid : request.property? deadlineProperty = some (.int ms)) :
      Patience default request ms
  | silent (hsilent : ∀ ms : Nat, request.property? deadlineProperty ≠ some (.int ms)) :
      Patience default request default

section Patience

variable {default timeout : Nat} {request : Context}

theorem timeoutOf_of_said {ms : Nat}
    (hsaid : request.property? deadlineProperty = some (.int ms)) :
    timeoutOf default request = ms := by
  simp [timeoutOf, hsaid]

theorem timeoutOf_of_silent
    (hsilent : ∀ ms : Nat, request.property? deadlineProperty ≠ some (.int ms)) :
    timeoutOf default request = default := by
  unfold timeoutOf
  split
  next n hsaid =>
    -- An integer that counts for nothing is negative.
    have hnegative : ¬ 0 ≤ n := by
      intro hnonnegative
      have hne := hsilent n.toNat
      rw [Int.toNat_of_nonneg hnonnegative] at hne
      exact hne hsaid
    rw [if_neg hnegative]
  next => rfl

theorem patience_iff : Patience default request timeout ↔ timeout = timeoutOf default request := by
  constructor
  · intro h
    cases h with
    | said hsaid => exact (timeoutOf_of_said hsaid).symm
    | silent hsilent => exact (timeoutOf_of_silent hsilent).symm
  · rintro rfl
    by_cases hsaid : ∃ ms : Nat, request.property? deadlineProperty = some (.int ms)
    · obtain ⟨ms, hsaid⟩ := hsaid
      rw [timeoutOf_of_said hsaid]
      exact .said hsaid
    · have hsilent := not_exists.mp hsaid
      rw [timeoutOf_of_silent hsilent]
      exact .silent hsilent

end Patience

/-! ## The engine as a service -/

/-- What an engine has done for a message when its time is up, and what it has answered by then, if
it has. -/
inductive Performs (engineId : String) (limit : Nat) (ctx : Context) :
    Answer → List ExchangeEvent → Prop
  /-- The message has been received. -/
  | ended {events : List ExchangeEvent} {result : Except Fault Report}
      (hrun : Run (receive engineId ctx) events result) (took : Span) :
      Performs engineId limit ctx ⟨DispatchError.ofEnd (some result), took⟩ events
  /-- Receiving it has broken down at the next thing that it was about to ask. -/
  | brokeDown {events : List ExchangeEvent} {question : Exchange.Question}
      {next : question.Answer → Exchange (Except Fault Report)}
      (hbegun : Begun (receive engineId ctx) events (.ask question next)) (took : Span) :
      Performs engineId limit ctx ⟨DispatchError.ofEnd none, took⟩ events
  /-- Receiving it goes on; there will be some answer later, or none. -/
  | running {events : List ExchangeEvent} {rest : Exchange (Except Fault Report)}
      (hbegun : Begun (receive engineId ctx) events rest) {answer : Answer}
      (hlate : answer.took.exceeds limit = true) : Performs engineId limit ctx answer events

/-- An engine is sent these messages, one after the other, and each takes it so long. -/
inductive Performed (engineId : String) (limit : Nat) (took : Span) :
    List ServiceEvent → List ExchangeEvent → Prop
  | nil : Performed engineId limit took [] []
  | cons {call : ServiceEvent} {calls : List ServiceEvent} {front back : List ExchangeEvent}
      (hperforms : Performs engineId limit call.question call.answer front)
      (htook : call.answer.took = took) (hrest : Performed engineId limit took calls back) :
      Performed engineId limit took (call :: calls) (front ++ back)

/-- An engine behind its layers, with the permits as they are, answers a request like this. -/
def Pipeline (config : Config) (permits : Permits) (request : Context) (took : Span)
    (events : List ExchangeEvent) (result : Except DispatchError Report) : Prop :=
  ∃ limit calls p, Patience config.defaultTimeout request limit ∧
    Performed config.engineId limit took calls events ∧
    Run (Layer.pass request Service.ask (Layer.around config permits)) calls p ∧
    result = p.answer.result

/-- How a request is answered that takes so long to be received. -/
inductive Returns (config : Config) (permits : Permits) (request : Context) (took : Span) :
    List ExchangeEvent → Except DispatchError Report → Prop
  /-- No permit is free. -/
  | overloaded (hfull : permits.limit ≤ permits.taken) :
      Returns config permits request took [] (.error .overloaded)
  /-- The time is up. -/
  | late {timeout : Nat} {events : List ExchangeEvent} {rest : Exchange (Except Fault Report)}
      (hfree : permits.taken < permits.limit)
      (hpatience : Patience config.defaultTimeout request timeout)
      (hlate : took.exceeds timeout = true)
      (hbegun : Begun (receive config.engineId request) events rest) :
      Returns config permits request took events (.error (.deadlineExceeded timeout))
  /-- Receiving the request has broken down. -/
  | brokeDown {timeout : Nat} {events : List ExchangeEvent} {question : Exchange.Question}
      {next : question.Answer → Exchange (Except Fault Report)}
      (hfree : permits.taken < permits.limit)
      (hpatience : Patience config.defaultTimeout request timeout)
      (hintime : took.exceeds timeout = false)
      (hbegun : Begun (receive config.engineId request) events (.ask question next)) :
      Returns config permits request took events (.error .breakdown)
  /-- The answer is that of receiving the request. -/
  | received {timeout : Nat} {events : List ExchangeEvent} {result : Except Fault Report}
      (hfree : permits.taken < permits.limit)
      (hpatience : Patience config.defaultTimeout request timeout)
      (hintime : took.exceeds timeout = false)
      (hrun : Run (receive config.engineId request) events result) :
      Returns config permits request took events (result.mapError .fault)

section Ways

variable {config : Config} {permits : Permits} {request : Context} {took : Span}
  {events : List ExchangeEvent} {result : Except DispatchError Report} {limit : Nat}

/-! ## What the layers make of an answer -/

/-- What the layers around an engine make of its answer. -/
def inTime (timeout : Nat) (answer : Answer) : Except DispatchError Report :=
  if answer.took.exceeds timeout then .error (.deadlineExceeded timeout) else answer.result

theorem exists_around_iff (hfree : permits.taken < permits.limit) {calls : List ServiceEvent} :
    (∃ p, Run (Layer.pass request Service.ask (Layer.around config permits)) calls p ∧
        result = p.answer.result) ↔
      ∃ answer, calls = [⟨request, answer⟩] ∧
        result = inTime (timeoutOf config.defaultTimeout request) answer := by
  -- Of the three layers the deadline alone may replace the answer.
  have htimed : ∀ timeout (p : Passage),
      (Layer.timed timeout p).answer.result = inTime timeout p.answer := by
    intro timeout p
    unfold Layer.timed inTime
    split <;> rfl
  constructor
  · rintro ⟨p, hrun, rfl⟩
    obtain ⟨admitted, hadmitted, rfl⟩ := (Layer.run_admission_free hfree).mp hrun
    obtain ⟨counted, hcounted, rfl⟩ := Layer.run_deadline.mp hadmitted
    obtain ⟨asked, hasked, rfl⟩ := Layer.run_metrics.mp hcounted
    obtain ⟨answer, hcalls, rfl⟩ := Layer.run_nil_iff.mp hasked
    exact ⟨answer, hcalls, htimed _ _⟩
  · rintro ⟨answer, rfl, rfl⟩
    let counted : Passage := ⟨answer, metricsOf request answer.result, [false]⟩
    have hcounted : Run (Layer.pass request Service.ask [.metrics]) [⟨request, answer⟩] counted :=
      Layer.run_metrics.mpr ⟨_, Layer.run_nil_iff.mpr ⟨answer, rfl, rfl⟩, rfl⟩
    have htimely : Run
        (Layer.pass request Service.ask [.deadline config.defaultTimeout, .metrics])
        [⟨request, answer⟩] (Layer.timed (timeoutOf config.defaultTimeout request) counted) :=
      Layer.run_deadline.mpr ⟨counted, hcounted, rfl⟩
    refine ⟨_, (Layer.run_admission_free hfree).mpr ⟨_, htimely, rfl⟩, ?_⟩
    exact (htimed _ counted).symm

theorem inTime_of_late {timeout : Nat} {answer : Answer}
    (hlate : answer.took.exceeds timeout = true) :
    inTime timeout answer = .error (.deadlineExceeded timeout) :=
  if_pos hlate

theorem inTime_of_intime {timeout : Nat} {answer : Answer}
    (hintime : answer.took.exceeds timeout = false) : inTime timeout answer = answer.result :=
  if_neg (by simp [hintime])

/-! ## The ways in which a request is answered -/

/-- However far a message has come, receiving it has begun. -/
theorem Performs.begun {engineId : String} {answer : Answer}
    (h : Performs engineId limit request answer events) :
    ∃ rest, Begun (receive engineId request) events rest := by
  cases h with
  | ended hrun => exact ⟨_, hrun.begun⟩
  | brokeDown hbegun => exact ⟨_, hbegun⟩
  | running hbegun => exact ⟨_, hbegun⟩

theorem performed_singleton_iff {engineId : String} {call : ServiceEvent} :
    Performed engineId limit took [call] events ↔
      Performs engineId limit call.question call.answer events ∧ call.answer.took = took := by
  constructor
  · intro h
    cases h with
    | @cons _ _ front back hperforms htook hrest =>
      cases hrest
      rw [List.append_nil]
      exact ⟨hperforms, htook⟩
  · rintro ⟨hperforms, htook⟩
    have hperformed : Performed engineId limit took [call] (events ++ []) :=
      .cons hperforms htook .nil
    rwa [List.append_nil] at hperformed

/-- An engine whose permits are taken is not asked. -/
theorem pipeline_of_full (hfull : permits.limit ≤ permits.taken) :
    Pipeline config permits request took events result ↔
      events = [] ∧ result = .error .overloaded := by
  constructor
  · rintro ⟨limit, calls, p, -, hperformed, hrun, rfl⟩
    obtain ⟨rfl, rfl⟩ := (Layer.run_admission_full hfull).mp hrun
    cases hperformed
    exact ⟨rfl, rfl⟩
  · rintro ⟨rfl, rfl⟩
    exact ⟨_, [], _, patience_iff.mpr rfl, .nil, (Layer.run_admission_full hfull).mpr ⟨rfl, rfl⟩,
      rfl⟩

/-- An engine with a free permit is asked for the request, and answers in time or not. -/
theorem pipeline_of_free (hfree : permits.taken < permits.limit) :
    Pipeline config permits request took events result ↔
      ∃ answer, Performs config.engineId (timeoutOf config.defaultTimeout request) request answer
          events ∧
        answer.took = took ∧ result = inTime (timeoutOf config.defaultTimeout request) answer := by
  constructor
  · rintro ⟨limit, calls, p, hpatience, hperformed, hrun, hresult⟩
    obtain ⟨answer, rfl, hresult⟩ := (exists_around_iff hfree).mp ⟨p, hrun, hresult⟩
    obtain rfl := patience_iff.mp hpatience
    obtain ⟨hperforms, htook⟩ := performed_singleton_iff.mp hperformed
    exact ⟨answer, hperforms, htook, hresult⟩
  · rintro ⟨answer, hperforms, htook, hresult⟩
    obtain ⟨p, hrun, hresult⟩ := (exists_around_iff hfree).mpr ⟨answer, rfl, hresult⟩
    have hperformed : Performed config.engineId (timeoutOf config.defaultTimeout request) took
        [⟨request, answer⟩] events := performed_singleton_iff.mpr ⟨hperforms, htook⟩
    exact ⟨_, _, p, patience_iff.mpr rfl, hperformed, hrun, hresult⟩

theorem ofEnd_some (result : Except Fault Report) :
    DispatchError.ofEnd (some result) = result.mapError .fault := by
  cases result <;> rfl

/-- A request is answered in these ways and no others. -/
theorem pipeline_iff :
    Pipeline config permits request took events result ↔
      Returns config permits request took events result := by
  by_cases hfree : permits.taken < permits.limit
  · rw [pipeline_of_free hfree]
    have hpatience := patience_iff.mpr (Eq.refl (timeoutOf config.defaultTimeout request))
    constructor
    · rintro ⟨answer, hperforms, rfl, rfl⟩
      -- In time it has ended or broken down; too late, it has got no further than it has begun.
      by_cases hlate : answer.took.exceeds (timeoutOf config.defaultTimeout request) = true
      · obtain ⟨rest, hbegun⟩ := hperforms.begun
        rw [inTime_of_late hlate]
        exact .late hfree hpatience hlate hbegun
      · have hintime := Bool.eq_false_iff.mpr hlate
        rw [inTime_of_intime hintime]
        cases hperforms with
        | ended hrun took =>
          show Returns _ _ _ _ _ (DispatchError.ofEnd (some _))
          rw [ofEnd_some]
          exact .received hfree hpatience hintime hrun
        | brokeDown hbegun took => exact .brokeDown hfree hpatience hintime hbegun
        | running _ hlate' => exact absurd hlate' hlate
    · intro h
      cases h with
      | overloaded hfull => omega
      | late _ hpatience hlate hbegun =>
        obtain rfl := patience_iff.mp hpatience
        exact ⟨⟨.error .breakdown, took⟩, .running hbegun hlate, rfl, (inTime_of_late hlate).symm⟩
      | brokeDown _ hpatience hintime hbegun =>
        obtain rfl := patience_iff.mp hpatience
        refine ⟨_, .brokeDown hbegun took, rfl, ?_⟩
        rw [inTime_of_intime hintime]
        rfl
      | received _ hpatience hintime hrun =>
        obtain rfl := patience_iff.mp hpatience
        refine ⟨_, .ended hrun took, rfl, ?_⟩
        rw [inTime_of_intime hintime, ofEnd_some]
  · have hfull : permits.limit ≤ permits.taken := by omega
    rw [pipeline_of_full hfull]
    constructor
    · rintro ⟨rfl, rfl⟩
      exact .overloaded hfull
    · intro h
      cases h with
      | overloaded => exact ⟨rfl, rfl⟩
      | late hfree' | brokeDown hfree' | received hfree' => exact absurd hfree' hfree

/-- A request gets no other answer than that it is not admitted, that its time is up, that receiving
it has broken down, or what receiving it gives.  It is not admitted exactly when no permit is free,
and then the engine and its handlers are asked for nothing.  And it is answered, whatever the engine
and the handlers are like. -/
theorem pipeline_refines_receive (config : Config) (permits : Permits) (request : Context)
    (took : Span) :
    (∀ events result, Pipeline config permits request took events result ↔
      Returns config permits request took events result) ∧
    (∀ events, Pipeline config permits request took events (.error .overloaded) ↔
      events = [] ∧ permits.limit ≤ permits.taken) ∧
    ∀ behave, ∃ events result, Follows behave [] events ∧
      Pipeline config permits request took events result := by
  refine ⟨fun _ _ => pipeline_iff, fun events => ?_, fun behave => ?_⟩
  · rw [pipeline_iff]
    constructor
    · intro h
      generalize hresult : Except.error DispatchError.overloaded = result at h
      cases h with
      | overloaded hfull => exact ⟨rfl, hfull⟩
      | late => cases hresult
      | brokeDown => cases hresult
      | @received _ _ result =>
        -- No fault is the answer that there is no permit.
        cases result <;> cases hresult
    · rintro ⟨rfl, hfull⟩
      exact .overloaded hfull
  · by_cases hfree : permits.taken < permits.limit
    · obtain ⟨events, result, hrun, hfollows⟩ :=
        exists_run behave [] (receive config.engineId request)
      exact ⟨events, _, hfollows, (pipeline_of_free hfree).mpr ⟨_, .ended hrun took, rfl, rfl⟩⟩
    · exact ⟨[], _, trivial, (pipeline_of_full (by omega)).mpr ⟨rfl, rfl⟩⟩

end Ways

end SoapPipeline
