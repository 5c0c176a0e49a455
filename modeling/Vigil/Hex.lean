/-!
# Hexadecimal text

Numbers and bytes in lower-case hexadecimal digits.
-/

namespace Vigil

/-- The digits of a number. -/
def hexDigits (n : Nat) : List Char := Nat.toDigits 16 n

/-- A number, filled up with zeros on the left. -/
def hexPadded (width n : Nat) : String :=
  String.ofList (List.leftpad width '0' (hexDigits n))

/-- Bytes, two digits each. -/
def hexBytes (bs : List UInt8) : String := String.join (bs.map fun b => hexPadded 2 b.toNat)

/-- An address; there is a name for the one that points nowhere. -/
def hexAddress (n : UInt64) : String :=
  if n = 0 then "(nil)" else "0x" ++ String.ofList (hexDigits n.toNat)

end Vigil
