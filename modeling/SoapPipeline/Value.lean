/-
  SoapPipeline.Value

  The values that properties and fault details hold: what JSON can say, with
  integers and floats kept apart, and bytes.
-/

import SoapPipeline.Decimal.Shortest
import SoapPipeline.Json.Tree
import SoapPipeline.Table
import SoapPipeline.Text.Quoted

namespace SoapPipeline

/-- A value.  Integers lie between `-2 ^ 63` and `2 ^ 63 - 1`, and the entries of a
map form a `Table`. -/
inductive Value where
  | null
  | bool (b : Bool)
  | int (n : Int)
  | float (x : Float)
  | string (s : String)
  | bytes (bs : List UInt8)
  | array (items : List Value)
  | map (entries : List (String × Value))
  deriving BEq, Inhabited

namespace Value

/-! ## Looking inside -/

def string? : Value → Option String
  | .string s => some s
  | _ => none

def int? : Value → Option Int
  | .int n => some n
  | _ => none

def bool? : Value → Option Bool
  | .bool b => some b
  | _ => none

/-! ## Integers -/

/-- The least integer value. -/
def minInt : Int := -0x8000000000000000

/-- The greatest integer value. -/
def maxInt : Int := 0x7FFFFFFFFFFFFFFF

/-- The value of a number: an integer where it fits, a float elsewhere. -/
def ofNumber : Json.Number → Value
  | .integer n => if n ≤ maxInt then .int n else .float (UInt64.ofNat n.toNat).toFloat
  | .real x => .float x

/-! ## From JSON -/

/-- How deeply arrays and objects of a text may be nested. -/
def nestingLimit : Nat := 127

mutual

/-- The value that a JSON tree stands for, with so many levels of nesting left. -/
def ofTree? (levels : Nat) : Json → Option Value
  | .null => some .null
  | .bool b => some (.bool b)
  | .number l => l.toNumber?.map ofNumber
  | .string s => s.map .string
  | .array items => if levels = 0 then none else (ofItems? (levels - 1) items).map .array
  | .object members =>
    if levels = 0 then none
    else (ofMembers? (levels - 1) members).map fun entries => .map (Table.ofEntries entries)

/-- The values of the items of an array. -/
def ofItems? (levels : Nat) : List Json → Option (List Value)
  | [] => some []
  | j :: rest => do return (← ofTree? levels j) :: (← ofItems? levels rest)

/-- The values of the members of an object. -/
def ofMembers? (levels : Nat) : List (Option String × Json) → Option (List (String × Value))
  | [] => some []
  | (key, j) :: rest => do return (← key, ← ofTree? levels j) :: (← ofMembers? levels rest)

end

/-- The value that a JSON tree stands for.  Of members with one key the last one
counts. -/
def ofJson? (j : Json) : Option Value :=
  ofTree? nestingLimit j

/-! ## Tagged form

The form that names the kind of every value: an object with one member whose
key is the kind, or the bare kind for the null value. -/

/-- The number of a tagged integer. -/
def taggedInt? (l : Json.Literal) : Option Value :=
  match l.toInt? with
  | some n => if n ≤ maxInt then some (.int n) else none
  | none => none

/-- The number of a tagged float, for which an integer may stand. -/
def taggedFloat? (l : Json.Literal) : Option Value :=
  match l.toNumber? with
  | some (.integer n) =>
    let x := (UInt64.ofNat n.natAbs).toFloat
    some (.float (if n < 0 then -x else x))
  | some (.real x) => some (.float x)
  | none => none

/-- A byte among tagged bytes. -/
def taggedByte? : Json → Option UInt8
  | .number l =>
    match l.toInt? with
    | some n => if 0 ≤ n ∧ n < 256 then some (UInt8.ofNat n.toNat) else none
    | none => none
  | _ => none

mutual

/-- Reads the tagged form, with so many levels of nesting left. -/
def ofTagged? (levels : Nat) : Json → Option Value
  | .string (some "Null") => some .null
  | .object [(some kind, content)] =>
    if levels = 0 then none else ofContent? (levels - 1) kind content
  | _ => none

/-- Reads what stands under a tag. -/
def ofContent? (levels : Nat) (kind : String) : Json → Option Value
  | .null => if kind = "Null" then some .null else none
  | .bool b => if kind = "Bool" then some (.bool b) else none
  | .number l =>
    if kind = "Int" then taggedInt? l
    else if kind = "Float" then taggedFloat? l
    else none
  | .string s => if kind = "String" then s.map .string else none
  | .array items =>
    if levels = 0 then none
    else if kind = "Bytes" then (items.mapM taggedByte?).map .bytes
    else if kind = "Array" then (ofTaggedItems? (levels - 1) items).map .array
    else none
  | .object members =>
    if levels = 0 then none
    else if kind = "Map" then
      (ofTaggedMembers? (levels - 1) members).map fun entries => .map (Table.ofEntries entries)
    else none

/-- Reads tagged items. -/
def ofTaggedItems? (levels : Nat) : List Json → Option (List Value)
  | [] => some []
  | j :: rest => do return (← ofTagged? levels j) :: (← ofTaggedItems? levels rest)

/-- Reads tagged members. -/
def ofTaggedMembers? (levels : Nat) :
    List (Option String × Json) → Option (List (String × Value))
  | [] => some []
  | (key, j) :: rest => do
    return (← key, ← ofTagged? levels j) :: (← ofTaggedMembers? levels rest)

end

/-- Reads the tagged form of a value. -/
def ofTaggedJson? (j : Json) : Option Value :=
  ofTagged? nestingLimit j

/-! ## Description -/

mutual

/-- The description of a value: its kind and content. -/
def describe : Value → String
  | .null => "Null"
  | .bool b => "Bool(" ++ (if b then "true" else "false") ++ ")"
  | .int n => "Int(" ++ toString n ++ ")"
  | .float x => "Float(" ++ Decimal.describe x ++ ")"
  | .string s => "String(" ++ Text.quoted s ++ ")"
  | .bytes bs => "Bytes(" ++ Text.bracketed (bs.map fun b => toString b.toNat) ++ ")"
  | .array items => "Array(" ++ Text.bracketed (describeItems items) ++ ")"
  | .map entries => "Map(" ++ Text.braced (describeEntries entries) ++ ")"

def describeItems : List Value → List String
  | [] => []
  | v :: rest => v.describe :: describeItems rest

def describeEntries : List (String × Value) → List String
  | [] => []
  | (key, v) :: rest => (Text.quoted key ++ ": " ++ v.describe) :: describeEntries rest

end

end Value

end SoapPipeline
