/-
  SoapPipeline.Tracking

  Starting asynchronous calls.

  A call is registered, its wait bound is computed, and a task is started that
  completes the call with its result, or gives it up when the bound has passed.
-/

import SoapPipeline.Config
import SoapPipeline.Pending

namespace SoapPipeline

/-- A task that ends a call: with its result, or by giving it up after so many
milliseconds. -/
structure CallTask where
  call : Nat
  bound : Nat
  deriving DecidableEq, Repr, Inhabited

/-- The nanoseconds after which a task gives its call up. -/
def CallTask.nanos (t : CallTask) : Nat := t.bound * nanosPerMilli

/-- What starting a call leaves: the pending calls, what is delivered at once, and the task, if
one was started. -/
structure Started (κ : Type) where
  pending : PendingCalls κ
  delivery : Option (Delivery κ)
  task : Option CallTask

/-- Starts a call.  It is registered before its wait bound is computed; where the bound
cannot be computed, the start is aborted and no task runs. -/
def Config.track {κ : Type} (c : Config) (p : PendingCalls κ) (call : Nat) (message : MessageId)
    (callback : κ) : Started κ :=
  let (pending, delivery) := p.register call message callback
  ⟨pending, delivery, c.waitBound?.map fun bound => ⟨call, bound⟩⟩

end SoapPipeline
