/-
  SoapPipeline.Handler

  Handlers as they are declared: an instance, options, and a rule for where it
  runs.

  An instance is known by its number.  What it does when it is called is no
  part of this module: programs ask for a call and get an answer.  Instances
  may be shared, so one instance can stand in many descriptors.
-/

import SoapPipeline.Fault

namespace SoapPipeline

/-! ## Instances -/

/-- A handler instance, and the names of header blocks that it understands.

Whether a name is understood may be any test of names.  A list of names stands for it, as such a
test is only asked about the names of the header blocks of a message: these are finitely many, and
so are those of all messages of a run.  The list of those that pass the test gives the same answer
to each of them. -/
structure Handler where
  number : Nat
  understood : List QName
  deriving DecidableEq, Repr, Inhabited

/-- Whether the handler understands header blocks of this name. -/
def Handler.understands (h : Handler) (name : QName) : Bool :=
  h.understood.contains name

/-! ## Options -/

/-- The value of an option. -/
inductive OptionValue where
  | text (s : String)
  | handler (h : Handler)
  deriving DecidableEq, Repr, Inhabited

/-- The description of an option value; handlers are not shown. -/
def OptionValue.describe : OptionValue → String
  | .text s => "Text(" ++ Text.quoted s ++ ")"
  | .handler _ => "Handler(..)"

/-- An option table.  The entries stay in the order in which their keys came. -/
structure Options where
  entries : List (String × OptionValue)
  deriving DecidableEq, Repr, Inhabited

namespace Options

def empty : Options := ⟨[]⟩

/-- Sets the value of a key where the key stands, or at the end. -/
def insertEntry (key : String) (value : OptionValue) :
    List (String × OptionValue) → List (String × OptionValue)
  | [] => [(key, value)]
  | (k, v) :: rest =>
    if k = key then (k, value) :: rest else (k, v) :: insertEntry key value rest

/-- Sets an option.  A key that is there keeps its place. -/
def insert (o : Options) (key : String) (value : OptionValue) : Options :=
  ⟨insertEntry key value o.entries⟩

/-- The value of an option. -/
def get? (o : Options) (key : String) : Option OptionValue :=
  o.entries.lookup key

/-- The value of an option that is a text. -/
def text? (o : Options) (key : String) : Option String :=
  match o.get? key with
  | some (.text s) => some s
  | _ => none

def contains (o : Options) (key : String) : Bool :=
  (o.get? key).isSome

def size (o : Options) : Nat := o.entries.length

def isEmpty (o : Options) : Bool := o.entries.isEmpty

/-- The handler registered for faults of this code; texts register none. -/
def faultHandler? (o : Options) (code : QName) : Option Handler :=
  match o.get? (FaultCode.key code) with
  | some (.handler h) => some h
  | _ => none

/-- The description of an option table by its entries. -/
def describe (o : Options) : String :=
  let entries := o.entries.map fun (key, value) =>
    "(" ++ Text.quoted key ++ ", " ++ value.describe ++ ")"
  Text.record "HandlerOptions" [("entries", Text.bracketed entries)] false

end Options

/-! ## Rules -/

/-- Where a handler runs: its phase, and its place among the handlers there.  Other
handlers are meant by the local part of their names. -/
structure Rule where
  phase : String
  /-- The handler that must run later. -/
  before : Option String
  /-- The handler that must run earlier. -/
  after : Option String
  /-- Runs ahead of every handler that is not first itself. -/
  first : Bool
  /-- Runs behind every handler that is not last itself. -/
  last : Bool
  deriving DecidableEq, Repr, Inhabited

namespace Rule

/-- The rule that names a phase and nothing else. -/
def inPhase (phase : String) : Rule := ⟨phase, none, none, false, false⟩

/-- A handler both first and last must be alone in its phase. -/
def isSole (r : Rule) : Bool := r.first && r.last

/-- The description of a rule by its parts. -/
def describe (r : Rule) : String :=
  let flag (b : Bool) := if b then "true" else "false"
  Text.record "PhaseRule" [("phase_name", Text.quoted r.phase),
    ("before", Text.optional (r.before.map Text.quoted)),
    ("after", Text.optional (r.after.map Text.quoted)),
    ("phase_first", flag r.first), ("phase_last", flag r.last)] false

end Rule

/-! ## Descriptors -/

/-- A handler under a name, with options and a rule. -/
structure Descriptor where
  name : QName
  handler : Handler
  options : Options
  rule : Rule
  deriving DecidableEq, Repr, Inhabited

namespace Descriptor

/-- The name by which rules mean a handler. -/
def localName (d : Descriptor) : String := d.name.localPart

/-- The handler that a descriptor of a fault chain puts up for faults of this code: the
one that the option holds, or its own when the option holds a text. -/
def registeredFor? (d : Descriptor) (code : QName) : Option Handler :=
  match d.options.get? (FaultCode.key code) with
  | some (.handler h) => some h
  | some (.text _) => some d.handler
  | none => none

/-- The description of a descriptor; the handler is not shown. -/
def describe (d : Descriptor) : String :=
  Text.record "HandlerDescription" [("name", d.name.describe),
    ("options", d.options.describe), ("rule", d.rule.describe)] true

end Descriptor

end SoapPipeline
