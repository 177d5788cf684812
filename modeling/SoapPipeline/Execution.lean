/-
  SoapPipeline.Execution

  Messages running through chains.

  A chain invokes its handlers in order.  When one raises a fault, those that
  ran before it are asked to undo their work, the last one first; a handler
  may also end the chain early and successfully.
-/

import SoapPipeline.Flows
import SoapPipeline.Program

namespace SoapPipeline

/-! ## What a running message asks for -/

/-- How a handler wants a chain to go on after it. -/
inductive Verdict where
  | proceed
  | finish
  deriving DecidableEq, Repr, Inhabited

/-- A deployment that a running message holds: its operations and the chains that were
published when the message came. -/
structure Lease where
  deployment : Nat
  operations : List QName
  chains : Chains

namespace Exchange

/-- What a running message asks of handlers and of the engine. -/
inductive Question where
  /-- A handler is to process the message. -/
  | invoke (h : Handler) (ctx : Context)
  /-- A handler is to undo its work on the message. -/
  | undo (h : Handler) (ctx : Context)
  /-- The deployment under a name is to be looked up and held. -/
  | lookup (service : QName)
  /-- The chains for messages that match no service are to be looked up. -/
  | globalChains
  /-- A deployment is to be let go. -/
  | release (deployment : Nat)
  /-- A message id is to be made that no other message has. -/
  | freshId

/-- A handler leaves the context changed, whatever else it answers. -/
abbrev Question.Answer : Question → Type
  | .invoke _ _ => Except Fault Verdict × Context
  | .undo _ _ => Context
  | .lookup _ => Option Lease
  | .globalChains => Chains
  | .release _ => Unit
  | .freshId => MessageId

/-- The interface of running messages. -/
abbrev interface : Interface := ⟨Question, Question.Answer⟩

end Exchange

/-- A program that runs a message. -/
abbrev Exchange (α : Type) : Type := Program Exchange.interface α

namespace Exchange

def invoke (h : Handler) (ctx : Context) : Exchange (Except Fault Verdict × Context) :=
  Program.question (I := interface) (.invoke h ctx)

def undo (h : Handler) (ctx : Context) : Exchange Context :=
  Program.question (I := interface) (.undo h ctx)

def lookup (service : QName) : Exchange (Option Lease) :=
  Program.question (I := interface) (.lookup service)

def globalChains : Exchange Chains :=
  Program.question (I := interface) .globalChains

def release (deployment : Nat) : Exchange Unit :=
  Program.question (I := interface) (.release deployment)

def freshId : Exchange MessageId :=
  Program.question (I := interface) .freshId

end Exchange

/-! ## Chains -/

/-- How a chain ends when no handler fails. -/
inductive ChainOutcome where
  | completed
  /-- This handler ended the chain early. -/
  | shortCircuited (handler : QName)
  deriving DecidableEq, Repr, Inhabited

/-- A fault with the handler that raised it and the phase of that handler. -/
structure ChainFault where
  fault : Fault
  handler : Descriptor
  phase : String

/-- The message that reports a fault of a chain. -/
def ChainFault.message (e : ChainFault) : String :=
  "handler " ++ e.handler.name.text ++ " in phase " ++ Text.quoted e.phase ++ " failed: " ++
    e.fault.message

namespace Chain

/-- The handlers in the order in which they run, each with its phase. -/
def steps (c : Chain) : List (String × Descriptor) :=
  c.phases.flatMap fun p => p.handlers.map fun d => (p.name, d)

/-- Has handlers undo their work, one after the other. -/
def unwind : List Handler → Context → Exchange Context
  | [], ctx => pure ctx
  | h :: rest, ctx => do
    let ctx ← Exchange.undo h ctx
    unwind rest ctx

/-- Runs steps of a chain; `ran` holds the handlers that ran before, last one first. -/
def runSteps : List (String × Descriptor) → List Handler → Context →
    Exchange (Except ChainFault ChainOutcome × Context)
  | [], _, ctx => pure (.ok .completed, ctx)
  | (phase, d) :: rest, ran, ctx => do
    match ← Exchange.invoke d.handler ctx with
    | (.ok .proceed, ctx) => runSteps rest (d.handler :: ran) ctx
    | (.ok .finish, ctx) => return (.ok (.shortCircuited d.name), ctx)
    | (.error fault, ctx) =>
      let ctx ← unwind ran ctx
      return (.error ⟨fault, d, phase⟩, ctx)

/-- Runs a message through a chain. -/
def execute (c : Chain) (ctx : Context) :
    Exchange (Except ChainFault ChainOutcome × Context) :=
  runSteps c.steps [] ctx

end Chain

end SoapPipeline
