/-
  SoapPipeline.Proofs.Middleware.Passing

  How messages pass layers.

  Layers stand around a service that may be any.  Here it is one that is only asked: it
  is sent a message, and what it answers, and after what time, is left open.  What is
  proved of layers around it holds of layers around every service, and of the layers as
  they run.

  Main results:
    * `run_pass`: layers around the service that is asked are layers around any;
    * `run_admission_full`, `run_admission_free`, `run_deadline`, `run_metrics`: what each
      layer makes of the way through those behind it;
    * `reaches_request`: whatever layers there are, the service is asked once at most, and
      for the message as it came;
    * `admitted_eq`: which permits a message gets is settled when it comes.
-/
import SoapPipeline.Middleware
import SoapPipeline.Proofs.Program.Runs

namespace SoapPipeline

open Program

/-! ## Services -/

/-- The interface of services: they are sent messages and answer them. -/
abbrev Service.interface : Interface := ⟨Context, fun _ => Answer⟩

/-- A message to a service, and its answer. -/
abbrev ServiceEvent : Type := Event Service.interface

/-- Sends a message to the service. -/
def Service.ask (ctx : Context) : Program Service.interface Answer :=
  Program.question (I := Service.interface) ctx

namespace Program

variable {I : Interface} {α β : Type} {m : Type → Type} [Monad m] [LawfulMonad m]

/-- Running two programs in a row is running one after the other. -/
theorem run_bind (answer : (q : I.Question) → m (I.Answer q)) (program : Program I α)
    (f : α → Program I β) :
    (program >>= f).run answer = (program.run answer >>= fun a => (f a).run answer) := by
  show (program.bind f).run answer = _
  -- The induction is on the first program, whose questions are asked before the second begins.
  induction program with
  | done a =>
    show (f a).run answer = pure a >>= _
    rw [pure_bind]
  | ask q next ih =>
    show (answer q >>= fun a => ((next a).bind f).run answer) =
      (answer q >>= fun a => (next a).run answer) >>= _
    rw [bind_assoc]
    exact bind_congr ih

end Program

theorem Service.run_ask {m : Type → Type} [Monad m] [LawfulMonad m]
    (service : Context → m Answer) (request : Context) :
    (ask request).run service = service request :=
  bind_pure (service request)

/-! ## Permits -/

namespace Permits

variable {p : Permits}

theorem take?_of_free (hfree : p.taken < p.limit) :
    p.take? = some { p with taken := p.taken + 1 } :=
  if_pos hfree

theorem take?_of_full (hfull : p.limit ≤ p.taken) : p.take? = none :=
  if_neg (Nat.not_lt.mpr hfull)

end Permits

namespace Layer

variable {request : Context} {permits : Permits} {default : Nat} {layers rest : List Layer}
  {calls : List ServiceEvent} {p : Passage}

/-! ## Layers around any service -/

/-- Layers around a service are layers around the one that is asked, which then answers. -/
theorem run_pass {m : Type → Type} [Monad m] [LawfulMonad m] (request : Context)
    (service : Context → m Answer) (layers : List Layer) :
    (pass request Service.ask layers).run service = pass request service layers := by
  -- The induction is on the layers; what each makes of a passage asks for nothing.
  induction layers with
  | nil =>
    unfold pass
    rw [run_bind, Service.run_ask]
    rfl
  | cons layer rest ih =>
    cases layer with
    | admission permits =>
      unfold pass
      cases permits.take? with
      | none => rfl
      | some taken =>
        dsimp only
        rw [run_bind, ih]
        rfl
    | deadline default =>
      unfold pass
      dsimp only
      rw [run_bind, ih]
      refine bind_congr fun p => ?_
      split <;> rfl
    | metrics =>
      unfold pass
      rw [run_bind, ih]
      rfl

/-! ## The way through each layer -/

theorem run_nil_iff :
    Run (pass request Service.ask []) calls p ↔
      ∃ answer, calls = [⟨request, answer⟩] ∧ p = ⟨answer, [], []⟩ := by
  constructor
  · intro h
    obtain ⟨answer, rest, rfl, hrest⟩ := Run.question_bind_iff.mp h
    obtain ⟨rfl, rfl⟩ := Run.pure_iff.mp hrest
    exact ⟨answer, rfl, rfl⟩
  · rintro ⟨answer, rfl, rfl⟩
    exact Run.ask (Run.done _)

/-- Without a free permit a message goes no further. -/
theorem run_admission_full (hfull : permits.limit ≤ permits.taken) :
    Run (pass request Service.ask (.admission permits :: rest)) calls p ↔
      calls = [] ∧ p = ⟨shed, [], [false]⟩ := by
  rw [pass, Permits.take?_of_full hfull]
  exact Run.pure_iff

theorem run_bind_pure_iff {f : Passage → Passage} {program : Program Service.interface Passage} :
    Run (program >>= fun p => pure (f p)) calls p ↔ ∃ q, Run program calls q ∧ p = f q := by
  rw [Run.bind_iff]
  constructor
  · rintro ⟨front, q, back, rfl, hrun, hpure⟩
    obtain ⟨rfl, rfl⟩ := Run.pure_iff.mp hpure
    rw [List.append_nil]
    exact ⟨q, hrun, rfl⟩
  · rintro ⟨q, hrun, rfl⟩
    exact ⟨calls, q, [], (List.append_nil calls).symm, hrun, Run.done _⟩

/-- With a permit a message goes on, and its answer comes back as it is. -/
theorem run_admission_free (hfree : permits.taken < permits.limit) :
    Run (pass request Service.ask (.admission permits :: rest)) calls p ↔
      ∃ q, Run (pass request Service.ask rest) calls q ∧
        p = { q with admitted := true :: q.admitted } := by
  rw [pass, Permits.take?_of_free hfree]
  exact run_bind_pure_iff

/-- What comes back through a deadline: the answer if it is not late, and otherwise that it is. -/
def timed (timeout : Nat) (p : Passage) : Passage :=
  if p.answer.took.exceeds timeout then
    ⟨⟨.error (.deadlineExceeded timeout), ⟨timeout, false⟩⟩, [], false :: p.admitted⟩
  else { p with admitted := false :: p.admitted }

theorem run_deadline :
    Run (pass request Service.ask (.deadline default :: rest)) calls p ↔
      ∃ q, Run (pass request Service.ask rest) calls q ∧
        p = timed (timeoutOf default request) q := by
  have hpass : pass request Service.ask (.deadline default :: rest) =
      (pass request Service.ask rest >>= fun q => pure (timed (timeoutOf default request) q)) := by
    rw [pass]
    refine congrArg (_ >>= ·) (funext fun q => ?_)
    unfold timed
    dsimp only
    split <;> rfl
  rw [hpass]
  exact run_bind_pure_iff

theorem run_metrics :
    Run (pass request Service.ask (.metrics :: rest)) calls p ↔
      ∃ q, Run (pass request Service.ask rest) calls q ∧
        p = { q with
          admitted := false :: q.admitted
          records := q.records ++ metricsOf request q.answer.result } := by
  rw [pass]
  exact run_bind_pure_iff

/-! ## The way through all layers -/

/-- Whatever layers there are, the service is asked once at most, and for the message as it came. -/
theorem reaches_request (h : Run (pass request Service.ask layers) calls p) :
    calls = [] ∨ ∃ answer, calls = [⟨request, answer⟩] := by
  induction layers generalizing p with
  | nil =>
    obtain ⟨answer, hcalls, -⟩ := run_nil_iff.mp h
    exact Or.inr ⟨answer, hcalls⟩
  | cons layer rest ih =>
    cases layer with
    | admission permits =>
      by_cases hfree : permits.taken < permits.limit
      · obtain ⟨q, hrest, -⟩ := (run_admission_free hfree).mp h
        exact ih hrest
      · exact Or.inl ((run_admission_full (by omega)).mp h).1
    | deadline default =>
      obtain ⟨q, hrest, -⟩ := run_deadline.mp h
      exact ih hrest
    | metrics =>
      obtain ⟨q, hrest, -⟩ := run_metrics.mp h
      exact ih hrest

/-- The layers that give a permit to a message, outermost first, as far as it comes. -/
def admits : List Layer → List Bool
  | [] => []
  | .admission permits :: rest =>
    if permits.taken < permits.limit then true :: admits rest else [false]
  | .deadline _ :: rest => false :: admits rest
  | .metrics :: rest => false :: admits rest

/-- Which permits a message is given is settled when it comes, whatever the service answers. -/
theorem admitted_eq (h : Run (pass request Service.ask layers) calls p) :
    p.admitted = admits layers := by
  induction layers generalizing p with
  | nil =>
    obtain ⟨answer, -, rfl⟩ := run_nil_iff.mp h
    rfl
  | cons layer rest ih =>
    cases layer with
    | admission permits =>
      unfold admits
      by_cases hfree : permits.taken < permits.limit
      · obtain ⟨q, hrest, rfl⟩ := (run_admission_free hfree).mp h
        rw [if_pos hfree]
        exact congrArg (true :: ·) (ih hrest)
      · obtain ⟨-, rfl⟩ := (run_admission_full (by omega)).mp h
        rw [if_neg hfree]
    | deadline default =>
      obtain ⟨q, hrest, rfl⟩ := run_deadline.mp h
      have hadmitted := ih hrest
      unfold timed
      split <;> exact congrArg (false :: ·) hadmitted
    | metrics =>
      obtain ⟨q, hrest, rfl⟩ := run_metrics.mp h
      exact congrArg (false :: ·) (ih hrest)

end Layer

end SoapPipeline
