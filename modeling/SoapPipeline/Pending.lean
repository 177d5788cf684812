/-
  SoapPipeline.Pending

  Asynchronous calls that have not been answered yet.

  Every call has a callback, and exactly one of a result, a failure and a
  timeout takes the call out of the table and is delivered to it.  Whatever
  comes later finds no call and is dropped.
-/

import SoapPipeline.Dispatch

namespace SoapPipeline

/-! ## How calls end -/

/-- Nanoseconds in a millisecond. -/
def nanosPerMilli : Nat := 1000000

/-- Why a call gave no response. -/
inductive CallError where
  /-- There was no response in so many milliseconds. -/
  | timeout (waited : Nat)
  | fault (fault : Fault)
  | dispatch (error : DispatchError)
  | transport (failure : Failure)
  /-- The call never ran. -/
  | abandoned
  deriving Inhabited

namespace CallError

/-- The message that reports an error. -/
def message : CallError → String
  | .timeout waited =>
    "no response within " ++ toString waited ++
      "ms; the server may be down or the response took too long"
  | .fault f => f.message
  | .dispatch e => "dispatch failed: " ++ e.message
  | .transport failure => "transport failure: " ++ failure.outermost
  | .abandoned => "call task ended without delivering a result"

/-- The error of a call whose dispatch failed; faults count as the call's own. -/
def ofDispatch : DispatchError → CallError
  | .fault f => .fault f
  | e => .dispatch e

/-- The most milliseconds that an error reports. -/
def maxMillis : Nat := 0xFFFFFFFFFFFFFFFF

/-- The timeout after so many nanoseconds. -/
def timeoutAfter (nanos : Nat) : CallError :=
  .timeout (min (nanos / nanosPerMilli) maxMillis)

end CallError

/-- How a call ended, as its waiter learns it. -/
inductive CallStatus where
  | completed
  | failed
  | timedOut
  deriving DecidableEq, Repr, Inhabited

/-- The response to a call, or why there is none. -/
abbrev CallResult : Type := Except CallError Context

/-- The status that goes with a result. -/
def CallStatus.ofResult : CallResult → CallStatus
  | .ok _ => .completed
  | .error _ => .failed

/-! ## The table -/

/-- A call that has not ended, and its callback. -/
structure PendingCall (κ : Type) where
  call : Nat
  message : MessageId
  callback : κ
  deriving DecidableEq, Repr, Inhabited

/-- What a callback receives, and the status that its waiter receives after it. -/
structure Delivery (κ : Type) where
  callback : κ
  result : CallResult
  status : CallStatus

/-- The calls that have not ended. -/
structure PendingCalls (κ : Type) where
  calls : List (PendingCall κ)
  deriving DecidableEq, Repr, Inhabited

namespace PendingCalls

variable {κ : Type}

def empty : PendingCalls κ := ⟨[]⟩

/-- The pending call with this id. -/
def find? (p : PendingCalls κ) (call : Nat) : Option (PendingCall κ) :=
  p.calls.find? fun c => c.call = call

def isPending (p : PendingCalls κ) (call : Nat) : Bool :=
  (p.find? call).isSome

def size (p : PendingCalls κ) : Nat := p.calls.length

def isEmpty (p : PendingCalls κ) : Bool := p.calls.isEmpty

/-- Takes a call out of the table. -/
def erase (p : PendingCalls κ) (call : Nat) : PendingCalls κ :=
  ⟨p.calls.filter fun c => c.call ≠ call⟩

/-- Registers a callback.  A call that is pending under the id already stays as it is, and
the new callback is told that its call never ran. -/
def register (p : PendingCalls κ) (call : Nat) (message : MessageId) (callback : κ) :
    PendingCalls κ × Option (Delivery κ) :=
  if p.isPending call then (p, some ⟨callback, .error .abandoned, .failed⟩)
  else (⟨p.calls ++ [⟨call, message, callback⟩]⟩, none)

/-- Delivers the result of a call, if it has not ended. -/
def complete (p : PendingCalls κ) (call : Nat) (result : CallResult) :
    PendingCalls κ × Option (Delivery κ) :=
  match p.find? call with
  | some c => (p.erase call, some ⟨c.callback, result, CallStatus.ofResult result⟩)
  | none => (p, none)

/-- Ends a call with a timeout after so many nanoseconds, if it has not ended. -/
def expire (p : PendingCalls κ) (call : Nat) (nanos : Nat) :
    PendingCalls κ × Option (Delivery κ) :=
  match p.find? call with
  | some c => (p.erase call, some ⟨c.callback, .error (.timeoutAfter nanos), .timedOut⟩)
  | none => (p, none)

end PendingCalls

/-! ## Waiting -/

/-- The line on which a waiter learns how its call ended. -/
inductive StatusLine where
  | open
  | sent (status : CallStatus)
  /-- The status has been read. -/
  | closed
  deriving DecidableEq, Repr, Inhabited

/-- What a waiter answers to a status, when it was ready to wait for so many
nanoseconds. -/
def CallStatus.settle (bound : Nat) : CallStatus → Except CallError CallStatus
  | .timedOut => .error (.timeoutAfter bound)
  | status => .ok status

/-- What a waiter hears of its call. -/
inductive Tidings where
  | status (status : CallStatus)
  /-- There is nobody left to send a status. -/
  | lost
  deriving DecidableEq, Repr, Inhabited

/-- What a waiter answers to what it hears. -/
def Tidings.settle (bound : Nat) : Tidings → Except CallError CallStatus
  | .status s => s.settle bound
  | .lost => .error .abandoned

namespace Await

/-- What a waiter asks for. -/
inductive Question where
  /-- What it hears within so many nanoseconds. -/
  | listen (nanos : Nat)
  /-- That its call be given up, after so many nanoseconds.  Others do that, in their own
  time. -/
  | expire (nanos : Nat)
  /-- What it hears in the end. -/
  | receive
  deriving DecidableEq, Repr

abbrev Question.Answer : Question → Type
  | .listen _ => Option Tidings
  | .expire _ => Unit
  | .receive => Tidings

/-- The interface of waiters. -/
abbrev interface : Interface := ⟨Question, Question.Answer⟩

end Await

/-- A program that waits for a call. -/
abbrev Await (α : Type) : Type := Program Await.interface α

namespace Await

def listen (nanos : Nat) : Await (Option Tidings) :=
  Program.question (I := interface) (.listen nanos)

def expire (nanos : Nat) : Await Unit :=
  Program.question (I := interface) (.expire nanos)

def receive : Await Tidings :=
  Program.question (I := interface) .receive

/-- Listens so many times; when nothing has been heard by then, has the call given up and takes
whatever comes of that. -/
def poll (interval bound : Nat) : Nat → Await (Except CallError CallStatus)
  | 0 => do
    expire bound
    return (← receive).settle bound
  | checks + 1 => do
    match ← listen interval with
    | some tidings => return tidings.settle bound
    | none => poll interval bound checks

/-- Waits for a call, listening so many times for an interval in nanoseconds. -/
def wait (interval checks : Nat) : Await (Except CallError CallStatus) :=
  poll interval (interval * checks) checks

end Await

end SoapPipeline
