/-
  SoapPipeline.Fault

  Faults, which handlers raise and fault handlers take, and failures, which
  are errors of any kind with notes on what was being done.
-/

import SoapPipeline.QName
import SoapPipeline.Value

namespace SoapPipeline

/-! ## Fault codes -/

namespace FaultCode

/-- The namespace of the standard codes. -/
def envelope : String := "http://schemas.xmlsoap.org/soap/envelope/"

/-- The receiver could not process a valid message. -/
def server : QName := ⟨envelope, "Server"⟩

/-- The message itself was unacceptable. -/
def client : QName := ⟨envelope, "Client"⟩

/-- A mandatory header block was not understood. -/
def mustUnderstand : QName := ⟨envelope, "MustUnderstand"⟩

/-- The envelope was of another version. -/
def versionMismatch : QName := ⟨envelope, "VersionMismatch"⟩

/-- The option key under which handlers register for faults of this code.  Only the
local part counts. -/
def key (code : QName) : String := "fault-" ++ code.localPart

end FaultCode

/-! ## Faults -/

/-- A processing failure with a code that selects its fault handler. -/
structure Fault where
  code : QName
  reason : String
  detail : Option Value
  deriving BEq, Inhabited

namespace Fault

/-- A fault of the receiver. -/
def server (reason : String) : Fault := ⟨FaultCode.server, reason, none⟩

/-- A fault of the message. -/
def client (reason : String) : Fault := ⟨FaultCode.client, reason, none⟩

/-- The message that reports a fault. -/
def message (f : Fault) : String :=
  "fault " ++ f.code.text ++ ": " ++ f.reason

/-- The description of a fault by its parts. -/
def describe (f : Fault) : String :=
  Text.record "Fault" [("code", f.code.describe), ("reason", Text.quoted f.reason),
    ("detail", Text.optional (f.detail.map Value.describe))] false

end Fault

/-! ## Failures -/

/-- What a failure goes back to. -/
inductive Failure.Root where
  | text (message : String)
  | fault (fault : Fault)

/-- An error with notes on what was being done when it arose, outermost first. -/
structure Failure where
  notes : List String
  root : Failure.Root

namespace Failure

/-- The message of the root. -/
def Root.message : Root → String
  | .text message => message
  | .fault f => f.message

/-- The outermost message. -/
def outermost (e : Failure) : String :=
  match e.notes with
  | note :: _ => note
  | [] => e.root.message

/-- All messages from the outermost to the root. -/
def chained (e : Failure) : String :=
  String.intercalate ": " (e.notes ++ [e.root.message])

/-- The fault that a failure amounts to: the fault at its root, or else a fault of
the receiver that gives all messages as its reason. -/
def toFault (e : Failure) : Fault :=
  match e.root with
  | .fault f => f
  | .text _ => Fault.server e.chained

end Failure

end SoapPipeline
