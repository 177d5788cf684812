/-
  SoapPipeline.Scenario.Waiting

  Waiting for calls without engines: calls are registered, completed and
  expired by name, and every registration has a line on which the status of
  its call comes, to be read once.
-/

import SoapPipeline.Pending
import SoapPipeline.Scenario.World

namespace SoapPipeline.Scenario

/-- A registration: the name of the waiter, and a number that no other one has. -/
structure Registration where
  waiter : String
  number : Nat
  deriving DecidableEq, Repr, Inhabited

/-- A table of pending calls, and those who wait for them. -/
structure Waiting where
  pending : PendingCalls Registration
  /-- The names of the calls; the place of a name is the id of the call. -/
  calls : List String
  /-- How many registrations there have been. -/
  registered : Nat
  /-- The line of every waiter, with the number of its registration. -/
  lines : List (String × Nat × StatusLine)

namespace Waiting

/-- The id of the message that all calls are about. -/
def message : MessageId := ⟨0⟩

def empty : Waiting := ⟨PendingCalls.empty, [], 0, []⟩

/-- The id of a call. -/
def idOf (w : Waiting) (call : String) : Nat × Waiting :=
  match w.calls.findIdx? fun name => name = call with
  | some id => (id, w)
  | none => (w.calls.length, { w with calls := w.calls ++ [call] })

/-- Sends the status of a delivery down the line of its registration, if somebody still
holds it. -/
def notify (w : Waiting) : Option (Delivery Registration) → Waiting
  | none => w
  | some d =>
    { w with lines := w.lines.map fun (waiter, number, line) =>
        (waiter, number, if number = d.callback.number then .sent d.status else line) }

/-- Takes what a change of the table yields. -/
def after (w : Waiting) (change : PendingCalls Registration × Option (Delivery Registration)) :
    Option (Delivery Registration) × Waiting :=
  (change.2, { w with pending := change.1 }.notify change.2)

/-- Registers a callback; the waiter gets a new line for the one that it had. -/
def register (w : Waiting) (call waiter : String) : Option (Delivery Registration) × Waiting :=
  let (id, w) := w.idOf call
  let number := w.registered
  let w := { w with
    registered := number + 1
    lines := World.put waiter (number, .open) w.lines }
  w.after (w.pending.register id message ⟨waiter, number⟩)

/-- Delivers the result of a call. -/
def complete (w : Waiting) (call : String) (result : CallResult) :
    Option (Delivery Registration) × Waiting :=
  let (id, w) := w.idOf call
  w.after (w.pending.complete id result)

/-- Gives up a call after so many nanoseconds. -/
def expire (w : Waiting) (call : String) (nanos : Nat) :
    Option (Delivery Registration) × Waiting :=
  let (id, w) := w.idOf call
  w.after (w.pending.expire id nanos)

def isPending (w : Waiting) (call : String) : Bool :=
  w.pending.isPending (w.idOf call).1

/-- Reads the line of a waiter.  A status can be read once. -/
def read (w : Waiting) (waiter : String) : Option StatusLine × Waiting :=
  match w.lines.lookup waiter with
  | none => (none, w)
  | some (number, line) =>
    let rest := match line with
      | .sent _ => StatusLine.closed
      | line => line
    (some line, { w with lines := World.put waiter (number, rest) w.lines })

/-- Drops the line of a waiter, and says whether there was one. -/
def forget (w : Waiting) (waiter : String) : Bool × Waiting :=
  ((w.lines.lookup waiter).isSome, { w with lines := World.drop waiter w.lines })

end Waiting

end SoapPipeline.Scenario
