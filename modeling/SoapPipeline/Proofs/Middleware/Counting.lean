/-
  SoapPipeline.Proofs.Middleware.Counting

  Which answers of a pipeline are counted.

  The metrics are the innermost of the three layers, so they see what the engine
  answers and not what the caller is answered.  A request without a permit never
  comes as far, and an answer that is late is thrown away with what was recorded
  for it.  All other answers come back through the layers as they are, and each is
  counted once.

  Requests come in through any clone of the pipeline and in any order, and are
  answered in any order.  A caller may also stop waiting.

  Main results:
    * `records_of_passage`: what is recorded for one request;
    * `Kept.step`: every step keeps the layers what they are;
    * `tally_of_step`: how a counter moves in one step;
    * `counted_unless_cut_short`: what the counters say after every history;
    * `cut_short_uncounted`: a refused request and a late answer that they leave out.
-/
import SoapPipeline.Proofs.Ahead
import SoapPipeline.Proofs.Middleware.Refinement

namespace SoapPipeline

open Program

/-! ## Counters -/

namespace Metric

/-- By how much a record moves the counter of this name with these labels. -/
def growth (name : String) (labels : List (String × String)) (m : Metric) : Nat :=
  if m.name = name ∧ m.labels = labels then
    match m.change with
    | .add n => n
    | .record => 0
  else 0

end Metric

/-- The counter of dispatches under a service, a direction and an outcome, after these records. -/
def tally (records : List Metric) (service flow outcome : String) : Nat :=
  let labels := [("service", service), ("flow", flow), ("outcome", outcome)]
  records.foldr (fun m total => m.growth "soapflow.dispatch.total" labels + total) 0

/-- The answer to a request goes under these labels. -/
def Labelled (service flow outcome : String) (request : Context)
    (result : Except DispatchError Report) : Prop :=
  request.service.localPart = service ∧ request.flow.text = flow ∧ outcomeLabel result = outcome

instance {service flow outcome : String} {request : Context}
    {result : Except DispatchError Report} :
    Decidable (Labelled service flow outcome request result) :=
  inferInstanceAs (Decidable (_ ∧ _ ∧ _))

section Tally

variable {service flow outcome : String}

theorem tally_append (front back : List Metric) :
    tally (front ++ back) service flow outcome =
      tally front service flow outcome + tally back service flow outcome := by
  induction front with
  | nil => exact (Nat.zero_add _).symm
  | cons m front ih =>
    show Metric.growth _ _ m + tally (front ++ back) service flow outcome =
      Metric.growth _ _ m + tally front service flow outcome + _
    rw [ih, Nat.add_assoc]

/-- What is recorded for an answer counts it once under its labels, and under no others. -/
theorem tally_metricsOf (request : Context) (result : Except DispatchError Report) :
    tally (metricsOf request result) service flow outcome =
      if Labelled service flow outcome request result then 1 else 0 := by
  unfold tally metricsOf
  by_cases h : Labelled service flow outcome request result
  · rw [if_pos h]
    obtain ⟨rfl, rfl, rfl⟩ := h
    simp [Metric.growth]
  · rw [if_neg h]
    unfold Labelled at h
    simp [Metric.growth, h]

end Tally

/-! ## What is recorded for one request -/

/-- The answer of a layer that ends a request itself: it is not admitted, or its time is up. -/
def cutShort : Except DispatchError Report → Bool
  | .error .overloaded => true
  | .error (.deadlineExceeded _) => true
  | _ => false

theorem cutShort_iff {result : Except DispatchError Report} :
    cutShort result = true ↔
      outcomeLabel result = "overloaded" ∨ outcomeLabel result = "deadline_exceeded" := by
  rcases result with error | report
  · cases error <;> simp [cutShort, outcomeLabel]
  · rcases report with ⟨context, outcome, response⟩
    cases outcome <;> simp [cutShort, outcomeLabel]

section Passage

variable {config : Config} {permits : Permits} {request : Context} {took : Span} {limit : Nat}
  {calls : List ServiceEvent} {events : List ExchangeEvent} {p : Passage}

/-- An engine whose time is not up gives no answer that is for a layer to give. -/
theorem Performs.not_cutShort {engineId : String} {answer : Answer}
    (h : Performs engineId limit request answer events)
    (hintime : answer.took.exceeds limit = false) : cutShort answer.result = false := by
  cases h with
  | @ended _ result hrun took => cases result <;> rfl
  | brokeDown hbegun took => rfl
  | running hbegun hlate => rw [hintime] at hlate; cases hlate

/-- For an answer that comes from the engine its end is recorded, and for any other nothing. -/
theorem records_of_passage (hpatience : Patience config.defaultTimeout request limit)
    (hperformed : Performed config.engineId limit took calls events)
    (hrun : Run (Layer.pass request Service.ask (Layer.around config permits)) calls p) :
    p.records = if cutShort p.answer.result then [] else metricsOf request p.answer.result := by
  by_cases hfree : permits.taken < permits.limit
  · obtain ⟨admitted, hadmitted, rfl⟩ := (Layer.run_admission_free hfree).mp hrun
    obtain ⟨counted, hcounted, rfl⟩ := Layer.run_deadline.mp hadmitted
    obtain ⟨asked, hasked, rfl⟩ := Layer.run_metrics.mp hcounted
    obtain ⟨answer, rfl, rfl⟩ := Layer.run_nil_iff.mp hasked
    obtain ⟨hperforms, -⟩ := performed_singleton_iff.mp hperformed
    obtain rfl := patience_iff.mp hpatience
    -- The deadline lets records through only with the answer that they are about.
    unfold Layer.timed
    by_cases hlate : answer.took.exceeds (timeoutOf config.defaultTimeout request) = true
    · rw [if_pos hlate]
      rfl
    · rw [if_neg hlate]
      have hresult := hperforms.not_cutShort (Bool.eq_false_iff.mpr hlate)
      show [] ++ metricsOf request answer.result = if cutShort answer.result then [] else _
      rw [hresult]
      rfl
  · obtain ⟨-, rfl⟩ := (Layer.run_admission_full (by omega)).mp hrun
    rfl

end Passage

/-! ## A pipeline in use -/

/-- A request on its way, and the layers as it found them. -/
structure Arrival where
  request : Context
  layers : List Layer

/-- The layers around an engine, which the clones of a pipeline share, the requests on their way,
the answers given, last one first, and what has been recorded. -/
structure Station where
  layers : List Layer
  waiting : List Arrival
  answered : List (Context × Except DispatchError Report)
  records : List Metric

/-- What takes place at a pipeline. -/
inductive Passing where
  | came (request : Context)
  | answered (request : Context) (result : Except DispatchError Report)
  /-- Nobody waits for the answer any more. -/
  | dropped (request : Context)

namespace Station

/-- A pipeline around an engine, to which nothing has been sent. -/
def new (config : Config) : Station := ⟨Layer.standard config, [], [], []⟩

/-- One thing takes place. -/
inductive Step (config : Config) (s : Station) : Passing → Station → Prop
  /-- A request comes in and takes its permits. -/
  | come (request : Context) :
      Step config s (.came request)
        { s with
          layers := Layer.takePermits s.layers (Layer.admits s.layers)
          waiting := ⟨request, s.layers⟩ :: s.waiting }
  /-- A request is answered, after the engine has done what its layers asked it to do. -/
  | answer {front back : List Arrival} {a : Arrival} {limit : Nat} {took : Span}
      {calls : List ServiceEvent} {events : List ExchangeEvent} {p : Passage}
      (hsplit : s.waiting = front ++ a :: back)
      (hpatience : Patience config.defaultTimeout a.request limit)
      (hperformed : Performed config.engineId limit took calls events)
      (hrun : Run (Layer.pass a.request Service.ask a.layers) calls p) :
      Step config s (.answered a.request p.answer.result)
        { layers := Layer.givePermitsBack s.layers p.admitted
          waiting := front ++ back
          answered := (a.request, p.answer.result) :: s.answered
          records := s.records ++ p.records }
  | drop {front back : List Arrival} {a : Arrival} (hsplit : s.waiting = front ++ a :: back) :
      Step config s (.dropped a.request)
        { s with
          layers := Layer.givePermitsBack s.layers (Layer.admits a.layers)
          waiting := front ++ back }

/-- What can have become of a pipeline. -/
inductive History (config : Config) : Station → Prop
  | new : History config (new config)
  | step {s s' : Station} {now : Passing} (h : History config s) (hstep : s.Step config now s') :
      History config s'

end Station

/-! ## The layers stay what they are -/

section Around

variable (config : Config) (permits : Permits) (admitted : List Bool)

/-- Behind the admission there is no permit to be had. -/
theorem takePermits_behind (default : Nat) :
    Layer.takePermits [.deadline default, .metrics] admitted = [.deadline default, .metrics] := by
  rcases admitted with - | ⟨first, - | ⟨second, rest⟩⟩ <;> simp [Layer.takePermits]

theorem givePermitsBack_behind (default : Nat) :
    Layer.givePermitsBack [.deadline default, .metrics] admitted =
      [.deadline default, .metrics] := by
  rcases admitted with - | ⟨first, - | ⟨second, rest⟩⟩ <;> simp [Layer.givePermitsBack]

theorem takePermits_around : ∃ permits', Layer.takePermits (Layer.around config permits) admitted =
    Layer.around config permits' := by
  unfold Layer.around
  rcases admitted with - | ⟨_ | _, rest⟩
  · exact ⟨permits, rfl⟩
  · exact ⟨permits, congrArg (_ :: ·) (takePermits_behind rest _)⟩
  · exact ⟨permits.take?.getD permits, congrArg (_ :: ·) (takePermits_behind rest _)⟩

theorem givePermitsBack_around :
    ∃ permits', Layer.givePermitsBack (Layer.around config permits) admitted =
      Layer.around config permits' := by
  unfold Layer.around
  rcases admitted with - | ⟨_ | _, rest⟩
  · exact ⟨permits, rfl⟩
  · exact ⟨permits, congrArg (_ :: ·) (givePermitsBack_behind rest _)⟩
  · exact ⟨permits.giveBack, congrArg (_ :: ·) (givePermitsBack_behind rest _)⟩

end Around

/-- The layers are those around an engine, and every request has found them so. -/
structure Kept (config : Config) (s : Station) : Prop where
  layers : ∃ permits, s.layers = Layer.around config permits
  found : ∀ a ∈ s.waiting, ∃ permits, a.layers = Layer.around config permits

namespace Kept

variable {config : Config} {s s' : Station} {now : Passing}

/-- A request is on its way no longer, and its permits go back. -/
theorem leave {front back : List Arrival} {a : Arrival}
    {answered : List (Context × Except DispatchError Report)} {records : List Metric}
    (h : Kept config s) (hsplit : s.waiting = front ++ a :: back) (admitted : List Bool) :
    Kept config ⟨Layer.givePermitsBack s.layers admitted, front ++ back, answered, records⟩ := by
  obtain ⟨permits, hlayers⟩ := h.layers
  constructor
  case layers =>
    show ∃ permits', Layer.givePermitsBack s.layers admitted = _
    rw [hlayers]
    exact givePermitsBack_around config permits admitted
  case found =>
    intro other hother
    exact h.found other (mem_of_cut hsplit hother)

theorem step (h : Kept config s) (hstep : s.Step config now s') : Kept config s' := by
  cases hstep with
  | come request =>
    obtain ⟨permits, hlayers⟩ := h.layers
    constructor
    case layers =>
      show ∃ permits', Layer.takePermits s.layers _ = _
      rw [hlayers]
      exact takePermits_around config permits _
    case found =>
      intro a ha
      rcases List.mem_cons.mp ha with rfl | ha
      · exact ⟨permits, hlayers⟩
      · exact h.found a ha
  | answer hsplit hpatience hperformed hrun => exact h.leave hsplit _
  | drop hsplit => exact h.leave hsplit _

theorem of_history (h : Station.History config s) : Kept config s := by
  induction h with
  | new => exact ⟨⟨_, rfl⟩, fun a ha => absurd ha List.not_mem_nil⟩
  | step _ hstep ih => exact ih.step hstep

end Kept

/-! ## What the counters say -/

/-- What takes place goes onto the counter with these labels. -/
def Passing.counts (service flow outcome : String) : Passing → Prop
  | .answered request result =>
    cutShort result = false ∧ Labelled service flow outcome request result
  | _ => False

instance {service flow outcome : String} {now : Passing} :
    Decidable (now.counts service flow outcome) := by
  cases now <;> unfold Passing.counts <;> infer_instance

section Counting

variable {config : Config} {s s' : Station} {now : Passing} {service flow outcome : String}

/-- Every answer that comes from the engine moves one counter by one, and nothing else does. -/
theorem tally_of_step (h : Kept config s) (hstep : s.Step config now s') :
    tally s'.records service flow outcome =
      tally s.records service flow outcome + if now.counts service flow outcome then 1 else 0 := by
  cases hstep with
  | come => rfl
  | drop => rfl
  | @answer front back a limit took calls events p hsplit hpatience hperformed hrun =>
    obtain ⟨permits, hlayers⟩ := h.found a (hsplit ▸ mem_cut_iff.mpr (Or.inl rfl))
    rw [hlayers] at hrun
    show tally (s.records ++ p.records) _ _ _ = _
    rw [tally_append, records_of_passage hpatience hperformed hrun]
    unfold Passing.counts
    by_cases hcut : cutShort p.answer.result = true
    · simp [hcut, tally]
    · rw [if_neg hcut, tally_metricsOf]
      simp [hcut]

/-- The answers given under these labels. -/
def given (answered : List (Context × Except DispatchError Report))
    (service flow outcome : String) : Nat :=
  answered.countP fun (request, result) => Labelled service flow outcome request result

theorem given_of_step (hstep : s.Step config now s') (hcounted : outcome ≠ "overloaded")
    (hintime : outcome ≠ "deadline_exceeded") :
    given s'.answered service flow outcome =
      given s.answered service flow outcome + if now.counts service flow outcome then 1 else 0 := by
  cases hstep with
  | come => rfl
  | drop => rfl
  | @answer front back a limit took calls events p hsplit hpatience hperformed hrun =>
    have hlabelled : cutShort p.answer.result = false ∧
        Labelled service flow outcome a.request p.answer.result ↔
        Labelled service flow outcome a.request p.answer.result := by
      refine ⟨And.right, fun hlabels => ⟨?_, hlabels⟩⟩
      -- Under other labels no answer is one that a layer gives.
      by_contra hcut
      rw [Bool.not_eq_false, cutShort_iff, hlabels.2.2] at hcut
      exact hcut.elim hcounted hintime
    unfold Passing.counts given
    rw [List.countP_cons]
    simp only [hlabelled, decide_eq_true_eq]

end Counting

/-- In every history the counters of dispatches say how many requests have been answered, under
the service, the direction and the outcome of each, but for two outcomes, of which nothing is ever
counted: requests that were not admitted, and answers that came too late.  With every answer that
is neither, one counter grows by one. -/
theorem counted_unless_cut_short {config : Config} {s : Station} (h : Station.History config s) :
    (∀ service flow outcome, outcome ≠ "overloaded" → outcome ≠ "deadline_exceeded" →
      tally s.records service flow outcome = given s.answered service flow outcome) ∧
    (∀ service flow outcome, outcome = "overloaded" ∨ outcome = "deadline_exceeded" →
      tally s.records service flow outcome = 0) ∧
    ∀ now s', s.Step config now s' → ∀ service flow outcome,
      tally s'.records service flow outcome = tally s.records service flow outcome +
        if now.counts service flow outcome then 1 else 0 := by
  refine ⟨?_, ?_, ?_⟩
  · intro service flow outcome hcounted hintime
    induction h with
    | new => rfl
    | step hpast hstep ih =>
      rw [tally_of_step (Kept.of_history hpast) hstep, given_of_step hstep hcounted hintime, ih]
  · intro service flow outcome hcut
    induction h with
    | new => rfl
    | @step s s' now hpast hstep ih =>
      rw [tally_of_step (Kept.of_history hpast) hstep, ih, Nat.zero_add]
      refine if_neg fun hcounts => ?_
      cases now with
      | came => exact hcounts
      | dropped => exact hcounts
      | answered request result =>
        obtain ⟨hresult, -, -, hlabel⟩ := hcounts
        rw [← hlabel, ← cutShort_iff, hresult] at hcut
        cases hcut
  · intro now s' hstep service flow outcome
    exact tally_of_step (Kept.of_history h) hstep

/-! ## Answers that are counted and answers that are not -/

/-- A new pipeline can answer a request as its layers do, and has then recorded what they have. -/
theorem exists_answered {config : Config} {request : Context} {took : Span}
    {calls : List ServiceEvent} {events : List ExchangeEvent} {p : Passage}
    (hperformed : Performed config.engineId (timeoutOf config.defaultTimeout request) took calls
      events)
    (hrun : Run (Layer.pass request Service.ask (Layer.standard config)) calls p) :
    ∃ s, Station.History config s ∧ s.answered = [(request, p.answer.result)] ∧
      s.records = p.records := by
  let arrival : Arrival := ⟨request, Layer.standard config⟩
  have hnew : Station.History config (.new config) := .new
  have hcame := hnew.step (.come request)
  have hsplit : [arrival] = [] ++ arrival :: [] := rfl
  exact ⟨_, hcame.step (.answer hsplit (patience_iff.mpr rfl) hperformed hrun), rfl, rfl⟩

/-- A request for the service Echo. -/
def echoRequest : Context := { (default : Context) with service := QName.unqualified "Echo" }

/-- Where no service is deployed the request ends with a fault, which is counted. -/
theorem fault_counted :
    ∃ s, Station.History Config.standard s ∧ s.answered.length = 1 ∧
      tally s.records "Echo" "in" "fault" = 1 := by
  let chains : Chains := ⟨.ofPhaseNames .inbound .engine [], .ofPhaseNames .outbound .engine [],
    .ofPhaseNames .fault .engine []⟩
  let answer : Answer := ⟨.error (.fault (notDeployed (QName.unqualified "Echo"))), ⟨0, false⟩⟩
  have hreceive : Run (receive Config.standard.engineId echoRequest)
      [⟨.lookup (QName.unqualified "Echo"), none⟩, ⟨.globalChains, chains⟩]
      (.error (notDeployed (QName.unqualified "Echo"))) := Run.ask (Run.ask (Run.done _))
  have hperformed : Performed Config.standard.engineId
      (timeoutOf Config.standard.defaultTimeout echoRequest) ⟨0, false⟩ [⟨echoRequest, answer⟩] _ :=
    performed_singleton_iff.mpr ⟨.ended hreceive ⟨0, false⟩, rfl⟩
  have hpass : Run (Layer.pass echoRequest Service.ask (Layer.standard Config.standard))
      [⟨echoRequest, answer⟩]
      ⟨answer, metricsOf echoRequest answer.result, [true, false, false]⟩ := Run.ask (Run.done _)
  obtain ⟨s, hhistory, hanswered, -⟩ := exists_answered hperformed hpass
  refine ⟨s, hhistory, congrArg List.length hanswered, ?_⟩
  rw [(counted_unless_cut_short hhistory).1 _ _ _ (by decide) (by decide), hanswered]
  rfl

/-- A pipeline without permits answers that it is overloaded, and one without time that the
deadline is exceeded.  Neither answer is counted. -/
theorem cut_short_uncounted :
    (∃ s, Station.History { Config.standard with maxConcurrent := 0 } s ∧
      s.answered = [(echoRequest, .error .overloaded)] ∧
      given s.answered "Echo" "in" "overloaded" = 1 ∧
      tally s.records "Echo" "in" "overloaded" = 0) ∧
    ∃ s, Station.History { Config.standard with defaultTimeout := 0 } s ∧
      s.answered = [(echoRequest, .error (.deadlineExceeded 0))] ∧
      given s.answered "Echo" "in" "deadline_exceeded" = 1 ∧
      tally s.records "Echo" "in" "deadline_exceeded" = 0 := by
  constructor
  · let config : Config := { Config.standard with maxConcurrent := 0 }
    have hperformed : Performed config.engineId (timeoutOf config.defaultTimeout echoRequest)
        ⟨0, false⟩ [] [] := .nil
    have hpass : Run (Layer.pass echoRequest Service.ask (Layer.standard config)) []
        ⟨Layer.shed, [], [false]⟩ := Run.done _
    obtain ⟨s, hhistory, hanswered, hrecords⟩ := exists_answered hperformed hpass
    refine ⟨s, hhistory, hanswered, ?_, ?_⟩
    · rw [hanswered]
      rfl
    · rw [hrecords]
      rfl
  · let config : Config := { Config.standard with defaultTimeout := 0 }
    let late : Answer := ⟨.error .breakdown, ⟨1, false⟩⟩
    have hperformed : Performed config.engineId (timeoutOf config.defaultTimeout echoRequest)
        ⟨1, false⟩ [⟨echoRequest, late⟩] [] :=
      performed_singleton_iff.mpr ⟨.running (.here _) rfl, rfl⟩
    have hpass : Run (Layer.pass echoRequest Service.ask (Layer.standard config))
        [⟨echoRequest, late⟩]
        ⟨⟨.error (.deadlineExceeded 0), ⟨0, false⟩⟩, [], [true, false, false]⟩ :=
      Run.ask (Run.done _)
    obtain ⟨s, hhistory, hanswered, hrecords⟩ := exists_answered hperformed hpass
    refine ⟨s, hhistory, hanswered, ?_, ?_⟩
    · rw [hanswered]
      rfl
    · rw [hrecords]
      rfl

end SoapPipeline
