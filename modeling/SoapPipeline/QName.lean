/-
  SoapPipeline.QName

  Qualified names: a namespace and a local part.  Handlers, services,
  operations, header blocks and fault codes are all named this way.

  A name is written as its local part, with the namespace in braces before it
  unless the namespace is empty, and it is read back from that form.  Reading
  refuses a text in which the form cannot be told apart from another one.
-/

import SoapPipeline.Text.Quoted

namespace SoapPipeline

/-- A qualified name.  An empty namespace means an unqualified name. -/
structure QName where
  space : String
  localPart : String
  deriving DecidableEq, Repr, Inhabited

namespace QName

/-- The unqualified name with this local part, taken verbatim. -/
def unqualified (localPart : String) : QName :=
  ⟨"", localPart⟩

/-! ## Writing -/

/-- The written form, as characters. -/
def toChars (q : QName) : List Char :=
  if q.space.isEmpty then q.localPart.toList
  else '{' :: q.space.toList ++ '}' :: q.localPart.toList

/-- The written form: the namespace in braces, unless it is empty, and the local
part. -/
def text (q : QName) : String :=
  String.ofList q.toChars

/-! ## Reading -/

/-- A text that is no written name. -/
structure Malformed where
  source : String
  deriving DecidableEq, Repr

/-- The message that reports a malformed name. -/
def Malformed.message (e : Malformed) : String :=
  "malformed qualified name: " ++ Text.quoted e.source

/-- The characters before and after the first `mark`, if it occurs. -/
def cutAt (mark : Char) : List Char → Option (List Char × List Char)
  | [] => none
  | c :: rest =>
    if c = mark then some ([], rest)
    else (cutAt mark rest).map fun (before, after) => (c :: before, after)

/-- Reads a name.  After an opening brace the namespace runs up to the first
closing brace and a local part must follow; without one the whole text is the
local part, which must not be empty or hold a closing brace. -/
def ofChars? : List Char → Option QName
  | '{' :: rest =>
    match cutAt '}' rest with
    | some (_, []) => none
    | some (space, localPart) => some ⟨String.ofList space, String.ofList localPart⟩
    | none => none
  | [] => none
  | chars => if chars.contains '}' then none else some ⟨"", String.ofList chars⟩

/-- Reads a name from its written form. -/
def parse (source : String) : Except Malformed QName :=
  match ofChars? source.toList with
  | some q => .ok q
  | none => .error ⟨source⟩

/-! ## Order and description -/

/-- Names are ordered by namespace, then by local part. -/
def le (a b : QName) : Bool :=
  if a.space = b.space then a.localPart ≤ b.localPart else a.space < b.space

/-- The names in ascending order, each once. -/
def sorted (names : List QName) : List QName :=
  (names.mergeSort le).eraseReps

/-- The description of a name by its two parts. -/
def describe (q : QName) : String :=
  Text.record "QName" [("namespace", Text.quoted q.space),
    ("local_part", Text.quoted q.localPart)] false

end QName

end SoapPipeline
