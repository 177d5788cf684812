/-
  SoapPipeline.Text.Hex

  Numbers and bytes in hexadecimal digits.  Digits are written in lower case
  and read in either case.
-/

namespace SoapPipeline.Text.Hex

/-! ## Digits -/

/-- The value of a hexadecimal digit. -/
def digit? (c : Char) : Option Nat :=
  if '0' ≤ c ∧ c ≤ '9' then some (c.toNat - '0'.toNat)
  else if 'a' ≤ c ∧ c ≤ 'f' then some (c.toNat - 'a'.toNat + 10)
  else if 'A' ≤ c ∧ c ≤ 'F' then some (c.toNat - 'A'.toNat + 10)
  else none

/-- The `count` lowest digits of `n`, the highest of them first. -/
def lowDigits (n count : Nat) : List Char :=
  (List.range count).reverse.map fun place => Nat.digitChar ((n >>> (4 * place)) % 16)

/-! ## Bytes -/

/-- Two digits for every byte. -/
def encode (bytes : List UInt8) : String :=
  String.ofList (bytes.flatMap fun b => lowDigits b.toNat 2)

/-- The bytes of pairs of digits. -/
def decode? : List Char → Option (List UInt8)
  | [] => some []
  | high :: low :: rest => do
    let b := UInt8.ofNat ((← digit? high) * 16 + (← digit? low))
    return b :: (← decode? rest)
  | [_] => none

end SoapPipeline.Text.Hex
