/-
  SoapPipeline.Config

  Configuration of an engine, and the reading of configurations and of the
  records that they are made of.
-/

import SoapPipeline.Chain
import SoapPipeline.Json.Fields

namespace SoapPipeline

/-! ## Engine configuration -/

/-- How an engine is set up. -/
structure Config where
  /-- The id that the engine stamps on messages. -/
  engineId : String
  order : PhaseOrder
  /-- Milliseconds between two checks on an asynchronous call. -/
  pollInterval : Nat
  /-- Checks before an asynchronous call is given up. -/
  maxChecks : Nat
  /-- Milliseconds that a dispatch may take when its message does not say. -/
  defaultTimeout : Nat
  /-- Messages admitted at the same time. -/
  maxConcurrent : Nat
  deriving DecidableEq, Repr, Inhabited

namespace Config

/-- The configuration that holds where nothing is said. -/
def standard : Config where
  engineId := "soapflow"
  order := PhaseOrder.standard
  pollInterval := 1000
  maxChecks := 10
  defaultTimeout := 30000
  maxConcurrent := 1000

/-- The number of seconds that a duration can hold. -/
def durationSeconds : Nat := 0x10000000000000000

/-- The milliseconds that an asynchronous call may stay unanswered: the interval times
the checks, unless its whole seconds exceed what a duration can hold. -/
def waitBound? (c : Config) : Option Nat :=
  let bound := c.pollInterval * c.maxChecks
  if bound / 1000 < durationSeconds then some bound else none

/-- The message of the abort on a wait bound that no duration can hold. -/
def overflowMessage : String := "overflow when multiplying duration by scalar"

end Config

/-! ## Reading -/

namespace QName

/-- Reads a name from its two parts. -/
def ofJson? (j : Json) : Option QName := do
  match ← j.fields? ["namespace", "local_part"] with
  | [space, localPart] =>
    return ⟨← Json.required Json.asString? space, ← Json.required Json.asString? localPart⟩
  | _ => none

end QName

namespace Rule

/-- Reads a rule, of which only the phase must be given. -/
def ofJson? (j : Json) : Option Rule := do
  match ← j.fields? ["phase_name", "before", "after", "phase_first", "phase_last"] with
  | [phase, before, after, first, last] =>
    return {
      phase := ← Json.required Json.asString? phase
      before := ← Json.orElse none (Json.nullable Json.asString?) before
      after := ← Json.orElse none (Json.nullable Json.asString?) after
      first := ← Json.orElse false Json.asBool? first
      last := ← Json.orElse false Json.asBool? last }
  | _ => none

end Rule

namespace PhaseOrder

/-- Reads the phases of all three directions. -/
def ofJson? (j : Json) : Option PhaseOrder := do
  match ← j.fields? ["inbound", "outbound", "fault"] with
  | [inbound, outbound, fault] =>
    return ⟨← Json.required Json.asStrings? inbound, ← Json.required Json.asStrings? outbound,
      ← Json.required Json.asStrings? fault⟩
  | _ => none

end PhaseOrder

namespace Flow

/-- Reads the word for a direction. -/
def ofJson? (j : Json) : Option Flow := do
  let name ← j.variant?
  all.find? fun flow => flow.text = name

end Flow

namespace Config

/-- Reads a configuration.  Every field may be missing. -/
def ofJson? (j : Json) : Option Config := do
  match ← j.fields? ["engine_id", "phase_order", "async_poll_interval_ms", "async_max_checks",
    "default_dispatch_timeout_ms", "max_concurrent_dispatches"] with
  | [engineId, order, pollInterval, maxChecks, defaultTimeout, maxConcurrent] =>
    return {
      engineId := ← Json.orElse standard.engineId Json.asString? engineId
      order := ← Json.orElse standard.order PhaseOrder.ofJson? order
      pollInterval := ← Json.orElse standard.pollInterval (Json.asNat? Json.bound64) pollInterval
      maxChecks := ← Json.orElse standard.maxChecks (Json.asNat? Json.bound32) maxChecks
      defaultTimeout := ←
        Json.orElse standard.defaultTimeout (Json.asNat? Json.bound64) defaultTimeout
      maxConcurrent :=
        ← Json.orElse standard.maxConcurrent (Json.asNat? Json.bound32) maxConcurrent }
  | _ => none

/-- Reads a configuration from its text. -/
def parse? (text : String) : Option Config := do
  ofJson? (← Json.ofText? text)

end Config

/-! ## Log formats -/

/-- How log lines are written. -/
inductive LogFormat where
  | pretty
  | json
  deriving DecidableEq, Repr, Inhabited

namespace LogFormat

/-- The word for a format. -/
def text : LogFormat → String
  | .pretty => "pretty"
  | .json => "json"

def all : List LogFormat := [.pretty, .json]

/-- The format with this word. -/
def ofText? (name : String) : Option LogFormat :=
  all.find? fun format => format.text = name

/-- Reads the word for a format. -/
def ofJson? (j : Json) : Option LogFormat := do
  ofText? (← j.variant?)

end LogFormat

end SoapPipeline
