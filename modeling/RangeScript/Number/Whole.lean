/-!
# Whole numbers

Whole numbers are 64-bit and signed. Arithmetic is exact: a result outside the range is no result
(`ofInt?`), never a wrapped one. The text of a whole number is its plain decimal form; reading also
takes a plus sign and leading zeros.
-/

namespace RangeScript.Whole

/-- The 64-bit number with the value `n`, if there is one. -/
def ofInt? (n : Int) : Option Int64 :=
  if -0x8000000000000000 ≤ n ∧ n < 0x8000000000000000 then some (Int64.ofInt n) else none

def add? (a b : Int64) : Option Int64 := ofInt? (a.toInt + b.toInt)

def sub? (a b : Int64) : Option Int64 := ofInt? (a.toInt - b.toInt)

def mul? (a b : Int64) : Option Int64 := ofInt? (a.toInt * b.toInt)

/-- The quotient rounded toward zero. Division by zero is for the caller to refuse. -/
def div? (a b : Int64) : Option Int64 := ofInt? (a.toInt.tdiv b.toInt)

/-- The value of a run of ASCII digits. -/
def valueOf (digits : List Char) : Nat :=
  digits.foldl (fun n c => 10 * n + (c.toNat - '0'.toNat)) 0

/-- The value of a text of one or more ASCII digits. -/
def natOfDigits? (digits : List Char) : Option Nat :=
  if digits.isEmpty || digits.any (! ·.isDigit) then none else some (valueOf digits)

/-- An optional sign: whether it is a minus, and what follows it. -/
def splitSign : List Char → Bool × List Char
  | '-' :: rest => (true, rest)
  | '+' :: rest => (false, rest)
  | rest => (false, rest)

/-- Reads an optional sign and one or more ASCII digits, if the value is in range. -/
def ofText? (s : String) : Option Int64 :=
  let (minus, digits) := splitSign s.toList
  match natOfDigits? digits with
  | some n => ofInt? (if minus then -(n : Int) else n)
  | none => none

def text (n : Int64) : String := toString n.toInt

end RangeScript.Whole
