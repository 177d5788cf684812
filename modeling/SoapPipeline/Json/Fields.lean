/-
  SoapPipeline.Json.Fields

  Reading records out of JSON trees.

  A record may be written as an object, whose members may come in any order
  but only once each, members of other names being ignored; or as an array of
  its fields in the order of their declaration, of which those at the end may
  be missing.  What a missing field means is for the record to decide.
-/

import SoapPipeline.Json.Tree

namespace SoapPipeline.Json

/-! ## Records -/

/-- The contents of the fields of these names, each none when it is missing. -/
def fields? (names : List String) : Json → Option (List (Option Json))
  | .object members =>
    if members.any fun (key, _) => key.isNone then none
    else names.mapM fun name =>
      match members.filter fun (key, _) => key = some name with
      | [] => some none
      | [(_, content)] => some (some content)
      | _ => none
  | .array items =>
    if names.length < items.length then none
    else some (items.map some ++ List.replicate (names.length - items.length) none)
  | _ => none

/-- The content of a field that must be there. -/
def required {α : Type} (read : Json → Option α) : Option Json → Option α
  | some j => read j
  | none => none

/-- The content of a field, or a default where it is missing. -/
def orElse {α : Type} (default : α) (read : Json → Option α) : Option Json → Option α
  | some j => read j
  | none => some default

/-- The content of a field that may be null. -/
def nullable {α : Type} (read : Json → Option α) : Json → Option (Option α)
  | .null => some none
  | j => (read j).map some

/-- The name of a variant without content: a string, or an object with the name as its
only key and null under it. -/
def variant? : Json → Option String
  | .string name => name
  | .object [(name, .null)] => name
  | _ => none

/-! ## Single values -/

def asString? : Json → Option String
  | .string s => s
  | _ => none

def asBool? : Json → Option Bool
  | .bool b => some b
  | _ => none

def asArray? : Json → Option (List Json)
  | .array items => some items
  | _ => none

/-- A natural number below a bound, written without point and exponent. -/
def asNat? (bound : Nat) : Json → Option Nat
  | .number l =>
    match l.toInt? with
    | some n => if 0 ≤ n ∧ n.toNat < bound then some n.toNat else none
    | none => none
  | _ => none

/-- Numbers of 32 bits are below this one. -/
def bound32 : Nat := 0x100000000

/-- Numbers of 64 bits are below this one. -/
def bound64 : Nat := 0x10000000000000000

/-- An array of strings. -/
def asStrings? (j : Json) : Option (List String) := do
  (← j.asArray?).mapM asString?

end SoapPipeline.Json
