/-
  SoapPipeline.Context

  Message contexts: the state of one message on its way through a chain of
  handlers.  A context carries the message itself (service, operation,
  payload, header blocks), the response and the fault that handlers leave in
  it, and a bag of properties through which handlers talk to those after them.
-/

import SoapPipeline.Fault
import SoapPipeline.Payload

namespace SoapPipeline

/-! ## Directions -/

/-- The direction in which a message travels. -/
inductive Flow where
  | inbound
  | outbound
  | fault
  deriving DecidableEq, Repr, Inhabited

namespace Flow

/-- The three directions, in the order in which chains are built. -/
def all : List Flow := [.inbound, .outbound, .fault]

/-- The word for a direction. -/
def text : Flow → String
  | .inbound => "in"
  | .outbound => "out"
  | .fault => "fault"

/-- The description of a direction. -/
def describe : Flow → String
  | .inbound => "In"
  | .outbound => "Out"
  | .fault => "Fault"

end Flow

/-! ## Message ids -/

/-- The id of a message, a number of 128 bits. -/
structure MessageId where
  number : Nat
  deriving DecidableEq, Repr, Inhabited

namespace MessageId

/-- An id is written as 32 hexadecimal digits in five groups. -/
def text (id : MessageId) : String :=
  let digits := Text.Hex.lowDigits id.number 32
  let group (start count : Nat) := (digits.drop start).take count
  String.ofList (group 0 8 ++ '-' :: group 8 4 ++ '-' :: group 12 4 ++ '-' :: group 16 4 ++
    '-' :: group 20 12)

end MessageId

/-! ## Header blocks -/

/-- A header block, and whether a handler has consumed it. -/
structure Header where
  name : QName
  mustUnderstand : Bool
  processed : Bool
  deriving DecidableEq, Repr, Inhabited

/-- The description of a truth value. -/
def describeBool (b : Bool) : String :=
  if b then "true" else "false"

/-- The description of a header block by its parts. -/
def Header.describe (h : Header) : String :=
  Text.record "HeaderBlock" [("name", h.name.describe),
    ("must_understand", describeBool h.mustUnderstand),
    ("processed", describeBool h.processed)] false

/-! ## Code extractors -/

/-- A rule of the encoding layer that reads the effective code of a fault, for
instance from the payload of the message. -/
structure CodeExtractor where
  extract : Fault → Payload → QName

namespace CodeExtractor

/-- A text in the detail is the code; else the fault's own code counts. -/
def ofDetail : CodeExtractor where
  extract fault _ :=
    match fault.detail with
    | some (.string s) => QName.unqualified s
    | _ => fault.code

/-- The mark that announces a code in a payload. -/
def mark : List Char := ['c', 'o', 'd', 'e', ':']

/-- A payload that starts with the mark gives the code after it; else the fault's own
code counts. -/
def ofPayload : CodeExtractor where
  extract fault payload :=
    match payload.text? with
    | some s =>
      if mark.isPrefixOf s.toList then
        QName.unqualified (String.ofList (s.toList.drop mark.length))
      else fault.code
    | none => fault.code

end CodeExtractor

/-! ## Contexts -/

/-- The state of one message. -/
structure Context where
  messageId : MessageId
  /-- In a response, the id of the request. -/
  relatesTo : Option MessageId
  /-- The engine that processes the message; empty until one does. -/
  engineId : String
  service : QName
  operation : QName
  flow : Flow
  payload : Payload
  response : Option Payload
  headers : List Header
  /-- The fault being handled. -/
  fault : Option Fault
  properties : Table Value
  extractor : Option CodeExtractor
  deriving Inhabited

namespace Context

/-- A message that has not been touched by any handler. -/
def fresh (id : MessageId) (service operation : QName) (flow : Flow) (payload : Payload) :
    Context :=
  { messageId := id, relatesTo := none, engineId := "", service, operation, flow, payload,
    response := none, headers := [], fault := none, properties := [], extractor := none }

/-! ### Properties -/

def property? (ctx : Context) (key : String) : Option Value :=
  Table.get? key ctx.properties

def setProperty (ctx : Context) (key : String) (value : Value) : Context :=
  { ctx with properties := Table.insert key value ctx.properties }

def eraseProperty (ctx : Context) (key : String) : Context :=
  { ctx with properties := Table.erase key ctx.properties }

/-! ### Headers -/

/-- Appends a header block that no handler has consumed. -/
def addHeader (ctx : Context) (name : QName) (mustUnderstand : Bool) : Context :=
  { ctx with headers := ctx.headers ++ [⟨name, mustUnderstand, false⟩] }

def hasHeader (ctx : Context) (name : QName) : Bool :=
  ctx.headers.any fun h => h.name = name

/-- Marks every header block of this name as consumed. -/
def markProcessed (ctx : Context) (name : QName) : Context :=
  { ctx with headers := ctx.headers.map fun h =>
      if h.name = name then { h with processed := true } else h }

/-- The mandatory header blocks that no handler has consumed. -/
def unprocessed (ctx : Context) : List Header :=
  ctx.headers.filter fun h => h.mustUnderstand && !h.processed

/-! ### Faults and responses -/

/-- The code under which a fault of this message is handled. -/
def faultCode (ctx : Context) (fault : Fault) : QName :=
  match ctx.extractor with
  | some rule => rule.extract fault ctx.payload
  | none => fault.code

/-- The outbound message that carries a response back: it keeps who talks to whom and
the properties, and drops headers, fault and response. -/
def respond (ctx : Context) (id : MessageId) (response : Payload) : Context :=
  { ctx with
    messageId := id
    relatesTo := some ctx.messageId
    flow := .outbound
    payload := response
    response := none
    headers := []
    fault := none }

/-! ### Description -/

/-- The description of a context; the response and the extractor are not shown. -/
def describe (ctx : Context) : String :=
  let properties := ctx.properties.map fun (key, v) => Text.quoted key ++ ": " ++ v.describe
  Text.record "MessageContext" [
    ("message_id", ctx.messageId.text),
    ("relates_to", Text.optional (ctx.relatesTo.map MessageId.text)),
    ("engine_id", Text.quoted ctx.engineId),
    ("service", ctx.service.describe),
    ("operation", ctx.operation.describe),
    ("flow", ctx.flow.describe),
    ("payload_len", toString ctx.payload.size),
    ("headers", Text.bracketed (ctx.headers.map Header.describe)),
    ("fault", Text.optional (ctx.fault.map Fault.describe)),
    ("properties", Text.braced properties)] true

end Context

end SoapPipeline
