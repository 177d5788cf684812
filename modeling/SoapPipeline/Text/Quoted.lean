/-
  SoapPipeline.Text.Quoted

  Quoted texts, as error messages and descriptions show names: in double
  quotes, with a backslash before a quote or a backslash, short escapes for
  the four usual controls, and numbered characters in hexadecimal.
-/

import SoapPipeline.Text.Numbered

namespace SoapPipeline.Text

/-! ## One character -/

/-- The digits of `n` in base sixteen, in lower case and without leading zeros. -/
def hexDigits (n : Nat) : List Char :=
  Nat.toDigits 16 n

/-- A numbered character is written as its code point in braces. -/
def quotedNumber (c : Char) : List Char :=
  ['\\', 'u', '{'] ++ hexDigits c.toNat ++ ['}']

/-- How one character stands between quotes. -/
def quotedChar (c : Char) : List Char :=
  if c = '"' then ['\\', '"']
  else if c = '\\' then ['\\', '\\']
  else if c = '\x00' then ['\\', '0']
  else if c = '\t' then ['\\', 't']
  else if c = '\n' then ['\\', 'n']
  else if c = '\r' then ['\\', 'r']
  else if isNumbered c then quotedNumber c
  else [c]

/-! ## Texts and lists -/

/-- The text in quotes. -/
def quoted (s : String) : String :=
  String.ofList ('"' :: s.toList.flatMap quotedChar ++ ['"'])

/-- Items between square brackets, set apart by a comma and a blank. -/
def bracketed (items : List String) : String :=
  "[" ++ String.intercalate ", " items ++ "]"

/-- A list of texts, each in quotes. -/
def quotedList (items : List String) : String :=
  bracketed (items.map quoted)

/-- Items between braces, set apart by a comma and a blank. -/
def braced (items : List String) : String :=
  "\x7b" ++ String.intercalate ", " items ++ "\x7d"

/-- A description of a record by its fields; an open one has parts that it does
not show. -/
def record (name : String) (fields : List (String × String)) (isOpen : Bool) : String :=
  let shown := fields.map fun (field, text) => field ++ ": " ++ text
  let shown := if isOpen then shown ++ [".."] else shown
  name ++ " \x7b " ++ String.intercalate ", " shown ++ " \x7d"

/-- A description of a value that may be missing. -/
def optional (text : Option String) : String :=
  match text with
  | some text => "Some(" ++ text ++ ")"
  | none => "None"

end SoapPipeline.Text
