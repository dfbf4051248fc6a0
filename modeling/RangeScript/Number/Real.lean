import RangeScript.Number.Binary64
import RangeScript.Number.Whole

/-!
# Texts of real numbers

A real is written as the shortest decimal that reads back as it, never with an exponent and always
with a fractional part. Reading also takes an exponent, a missing whole or fractional part, and the
names of the infinities and of "not a number".
-/

namespace RangeScript.Real

/-! ## Writing -/

def zeros (n : Nat) : List Char := List.replicate n '0'

/-- A decimal in positional form, with at least one digit on each side of the point. -/
def positional (d : Binary64.Decimal) : List Char :=
  let digits := (toString d.digits).toList
  let places := (-d.exponent).toNat
  if places = 0 then digits ++ zeros d.exponent.toNat ++ ['.', '0']
  else if places < digits.length then
    digits.take (digits.length - places) ++ '.' :: digits.drop (digits.length - places)
  else '0' :: '.' :: zeros (places - digits.length) ++ digits

/-- The text of a real. -/
def text (x : Float) : String :=
  let bits := x.toBits.toNat
  let exponentField := bits / Binary64.binade % 0x800
  let fraction := bits % Binary64.binade
  let sign := if bits / Binary64.binade / 0x800 = 1 then "-" else ""
  if exponentField = 0x7FF then
    if fraction = 0 then sign ++ "inf" else "NaN"
  else if exponentField = 0 ∧ fraction = 0 then sign ++ "0.0"
  else sign ++ String.ofList (positional (Binary64.shortest exponentField fraction))

/-! ## Reading -/

/-- The double nearest to `mantissa * 10 ^ exponent`. A decimal with its leading digit far outside
the range of doubles is settled by that digit's place. -/
def ofDecimal (mantissa : Nat) (exponent : Int) : Float :=
  let top : Int := (toString mantissa).length + exponent
  if mantissa = 0 ∨ top < -400 then Float.ofBits 0
  else if 400 < top then Float.ofBits (UInt64.ofNat Binary64.infinityBits)
  else Float.ofBits (UInt64.ofNat
    (Binary64.nearestBits (mantissa * Binary64.pow10 exponent) (Binary64.pow10 (-exponent))))

/-- The exponent part of a decimal: nothing, or a letter `e`, an optional sign and digits. -/
def exponentOf? : List Char → Option Int
  | [] => some 0
  | c :: rest =>
    if c = 'e' || c = 'E' then
      let (minus, digits) := Whole.splitSign rest
      (Whole.natOfDigits? digits).map fun n => if minus then -(n : Int) else n
    else none

/-- Reads digits with an optional point among or beside them, and an exponent. -/
def ofDigits? (cs : List Char) : Option Float :=
  let whole := cs.takeWhile Char.isDigit
  let afterWhole := cs.drop whole.length
  let (fraction, rest) :=
    match afterWhole with
    | '.' :: more =>
      let fraction := more.takeWhile Char.isDigit
      (fraction, more.drop fraction.length)
    | _ => ([], afterWhole)
  if whole.isEmpty && fraction.isEmpty then none
  else (exponentOf? rest).map fun e =>
    ofDecimal (Whole.valueOf (whole ++ fraction)) (e - fraction.length)

/-- Reads an optional sign and a decimal or a name, in letters of either case. -/
def ofText? (s : String) : Option Float :=
  let (minus, cs) := Whole.splitSign s.toList
  let size :=
    match String.ofList (cs.map Char.toLower) with
    | "inf" => some (1.0 / 0.0)
    | "infinity" => some (1.0 / 0.0)
    | "nan" => some (0.0 / 0.0)
    | _ => ofDigits? cs
  size.map fun x => if minus then -x else x

end RangeScript.Real
