/-
  SoapPipeline.Json.Tree

  JSON texts as trees.  A tree keeps what a reader may still refuse or ignore:
  number literals as they are written, repeated members in their order, and
  string literals that stand for no text because a surrogate in them has no
  partner.
-/

import SoapPipeline.Json.Number
import SoapPipeline.Text.Hex

namespace SoapPipeline

/-- A JSON tree. -/
inductive Json where
  | null
  | bool (value : Bool)
  | number (literal : Json.Literal)
  /-- A string literal, and its text if it stands for one. -/
  | string (text : Option String)
  | array (items : List Json)
  | object (members : List (Option String × Json))
  deriving Inhabited

namespace Json

/-! ## Tokens -/

/-- What a JSON text consists of, blanks aside. -/
inductive Token where
  | openArray
  | closeArray
  | openObject
  | closeObject
  | comma
  | colon
  | null
  | bool (value : Bool)
  | number (literal : Literal)
  | string (text : Option String)

/-- A part of a string literal: a character, or a UTF-16 unit given by number. -/
inductive Piece where
  | char (c : Char)
  | unit (n : Nat)

/-- The text that pieces stand for: a high surrogate joins with the low one right
after it, and a surrogate without a partner spoils the text. -/
def joinPieces : List Piece → Option (List Char)
  | [] => some []
  | .char c :: rest => (joinPieces rest).map (c :: ·)
  | .unit high :: rest =>
    if high < 0xD800 ∨ 0xDFFF < high then
      (joinPieces rest).map (Char.ofNat high :: ·)
    else if 0xDC00 ≤ high then none
    else match rest with
      | .unit low :: rest =>
        if 0xDC00 ≤ low ∧ low ≤ 0xDFFF then
          let code := 0x10000 + (high - 0xD800) * 0x400 + (low - 0xDC00)
          (joinPieces rest).map (Char.ofNat code :: ·)
        else none
      | _ => none

/-! ## Cutting a text into tokens -/

/-- What the characters read so far have begun. -/
inductive Begun where
  | nothing
  /-- A run of letters, last one first. -/
  | word (letters : List Char)
  /-- A run of number characters, last one first. -/
  | number (chars : List Char)
  /-- The inside of a string literal, last piece first. -/
  | string (pieces : List Piece)
  /-- The character after a backslash is due. -/
  | escape (pieces : List Piece)
  /-- So many hexadecimal digits of a unit are due. -/
  | hex (pieces : List Piece) (due : Nat) (value : Nat)

/-- A blank between tokens. -/
def isBlank (c : Char) : Bool :=
  c = ' ' || c = '\t' || c = '\n' || c = '\r'

/-- A character that can stand in a number literal. -/
def isNumberChar (c : Char) : Bool :=
  ('0' ≤ c && c ≤ '9') || c = '-' || c = '+' || c = '.' || c = 'e' || c = 'E'

/-- A character that can stand in one of the words. -/
def isWordChar (c : Char) : Bool :=
  'a' ≤ c && c ≤ 'z'

/-- The token that a finished word is. -/
def wordToken? (letters : List Char) : Option Token :=
  match String.ofList letters with
  | "null" => some .null
  | "true" => some (.bool true)
  | "false" => some (.bool false)
  | _ => none

/-- What a single character after a backslash stands for. -/
def escaped? (c : Char) : Option Char :=
  match c with
  | '"' => some '"'
  | '\\' => some '\\'
  | '/' => some '/'
  | 'b' => some '\x08'
  | 'f' => some '\x0c'
  | 'n' => some '\n'
  | 'r' => some '\r'
  | 't' => some '\t'
  | _ => none

/-- Starts a token with a character that stands outside all others. -/
def begin? (c : Char) (done : List Token) : Option (Begun × List Token) :=
  if isBlank c then some (.nothing, done)
  else if c = '"' then some (.string [], done)
  else if c = '-' ∨ ('0' ≤ c ∧ c ≤ '9') then some (.number [c], done)
  else if isWordChar c then some (.word [c], done)
  else match c with
    | '[' => some (.nothing, .openArray :: done)
    | ']' => some (.nothing, .closeArray :: done)
    | '{' => some (.nothing, .openObject :: done)
    | '}' => some (.nothing, .closeObject :: done)
    | ',' => some (.nothing, .comma :: done)
    | ':' => some (.nothing, .colon :: done)
    | _ => none

/-- Adds the token that has been begun, if it is one that may end here. -/
def finish? (begun : Begun) (done : List Token) : Option (List Token) :=
  match begun with
  | .nothing => some done
  | .word letters => (wordToken? letters.reverse).map (· :: done)
  | .number chars => (Literal.ofChars? chars.reverse).map fun l => .number l :: done
  | _ => none

/-- Takes one character.  Tokens are collected last one first. -/
def scan? (c : Char) : Begun → List Token → Option (Begun × List Token)
  | .nothing, done => begin? c done
  | .word letters, done =>
    if isWordChar c then some (.word (c :: letters), done)
    else (finish? (.word letters) done).bind (begin? c)
  | .number chars, done =>
    if isNumberChar c then some (.number (c :: chars), done)
    else (finish? (.number chars) done).bind (begin? c)
  | .string pieces, done =>
    if c = '"' then
      let text := (joinPieces pieces.reverse).map String.ofList
      some (.nothing, .string text :: done)
    else if c = '\\' then some (.escape pieces, done)
    else if c < ' ' then none
    else some (.string (.char c :: pieces), done)
  | .escape pieces, done =>
    if c = 'u' then some (.hex pieces 4 0, done)
    else (escaped? c).map fun c => (.string (.char c :: pieces), done)
  | .hex pieces due value, done =>
    (Text.Hex.digit? c).map fun d =>
      let value := value * 16 + d
      if due ≤ 1 then (.string (.unit value :: pieces), done)
      else (.hex pieces (due - 1) value, done)

/-- The tokens of a text in order, unless it holds something else. -/
def tokens? (chars : List Char) : Option (List Token) := do
  let (begun, done) ← chars.foldlM (fun (begun, done) c => scan? c begun done) (.nothing, [])
  let done ← finish? begun done
  return done.reverse

/-! ## Building the tree -/

/-- An array or object that is still open, last element first. -/
inductive Frame where
  | array (items : List Json)
  | object (members : List (Option String × Json)) (key : Option String)

/-- What may come next. -/
inductive Due where
  | value
  /-- A value, or the end of the array just opened. -/
  | valueOrClose
  | key (members : List (Option String × Json))
  /-- A key, or the end of the object just opened. -/
  | keyOrClose
  | colon (members : List (Option String × Json)) (key : Option String)
  /-- A comma or the end of the innermost open frame. -/
  | more
  /-- Nothing: the tree is complete. -/
  | finished (tree : Json)

/-- Puts a complete tree into the innermost open frame. -/
def place (tree : Json) : List Frame → Due × List Frame
  | [] => (.finished tree, [])
  | .array items :: outer => (.more, .array (tree :: items) :: outer)
  | .object members key :: outer => (.more, .object ((key, tree) :: members) none :: outer)

/-- Takes the first token of a value. -/
def openValue? (token : Token) (frames : List Frame) : Option (Due × List Frame) :=
  match token with
  | .null => some (place .null frames)
  | .bool b => some (place (.bool b) frames)
  | .number l => some (place (.number l) frames)
  | .string t => some (place (.string t) frames)
  | .openArray => some (.valueOrClose, .array [] :: frames)
  | .openObject => some (.keyOrClose, frames)
  | _ => none

/-- Takes one token. -/
def build? : Due → List Frame → Token → Option (Due × List Frame)
  | .value, frames, token => openValue? token frames
  | .valueOrClose, .array [] :: frames, .closeArray => some (place (.array []) frames)
  | .valueOrClose, frames, token => openValue? token frames
  | .key members, frames, .string key => some (.colon members key, frames)
  | .keyOrClose, frames, .closeObject => some (place (.object []) frames)
  | .keyOrClose, frames, .string key => some (.colon [] key, frames)
  | .colon members key, frames, .colon => some (.value, .object members key :: frames)
  | .more, .array items :: frames, .comma => some (.value, .array items :: frames)
  | .more, .array items :: frames, .closeArray => some (place (.array items.reverse) frames)
  | .more, .object members _ :: frames, .comma => some (.key members, frames)
  | .more, .object members _ :: frames, .closeObject =>
    some (place (.object members.reverse) frames)
  | _, _, _ => none

/-- Reads a JSON text. -/
def ofText? (text : String) : Option Json := do
  let tokens ← tokens? text.toList
  let (due, _) ← tokens.foldlM (fun (due, frames) token => build? due frames token) (.value, [])
  match due with
  | .finished tree => some tree
  | _ => none

end Json

end SoapPipeline
