/-
  SoapPipeline.Payload

  Message payloads: bytes that the pipeline carries and never interprets,
  apart from telling whether they are text.
-/

import SoapPipeline.Text.Hex

namespace SoapPipeline

/-- The bytes of a message. -/
structure Payload where
  bytes : List UInt8
  deriving DecidableEq, Repr, Inhabited

namespace Payload

/-- No bytes. -/
def empty : Payload := ⟨[]⟩

/-- The UTF-8 bytes of a text. -/
def ofText (text : String) : Payload := ⟨text.toUTF8.data.toList⟩

/-- The text that the bytes are, if they are well-formed UTF-8. -/
def text? (p : Payload) : Option String := String.fromUTF8? ⟨p.bytes.toArray⟩

/-- The number of bytes. -/
def size (p : Payload) : Nat := p.bytes.length

def isEmpty (p : Payload) : Bool := p.size = 0

/-- The payload of a text with two hexadecimal digits for every byte. -/
def ofHex? (digits : String) : Option Payload :=
  (Text.Hex.decode? digits.toList).map fun bytes => ⟨bytes⟩

/-- The bytes in hexadecimal digits. -/
def hex (p : Payload) : String := Text.Hex.encode p.bytes

end Payload

end SoapPipeline
