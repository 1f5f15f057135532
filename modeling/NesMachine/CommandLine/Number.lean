/-!
# Decimal numbers on the command line

Counts are decimal digits with an optional plus sign. Spans of time are decimal fractions with an
optional exponent, or a name of infinity or of not-a-number; they are kept as the bits of a double.
-/

namespace NesMachine.Number

def digitsValue (digits : List Char) : Nat :=
  digits.foldl (fun value c => value * 10 + (c.toNat - '0'.toNat)) 0

def spanDigits (text : List Char) : List Char × List Char :=
  (text.takeWhile Char.isDigit, text.dropWhile Char.isDigit)

def count? (text : String) : Option Nat :=
  let digits := match text.toList with
    | '+' :: rest => rest
    | rest => rest
  if digits.isEmpty || !digits.all Char.isDigit then
    none
  else
    let value := digitsValue digits
    if value < UInt64.size then some value else none

def signBit : UInt64 := 0x8000000000000000

def infinityBits : UInt64 := 0x7FF0000000000000

def notANumberBits : UInt64 := 0x7FF8000000000000

structure Decimal where
  digits : Nat
  exponent : Int
  deriving DecidableEq, Repr

/-- The power of ten below which every number rounds to zero. -/
def leastMagnitude : Int := -400

/-- The power of ten from which on every number rounds to infinity. -/
def greatestMagnitude : Int := 400

/-- The nearest double. Numbers far out of range are settled by their magnitude, so that no huge power
is ever computed. -/
def Decimal.toBits (d : Decimal) : UInt64 :=
  let magnitude := d.exponent + (Nat.toDigits 10 d.digits).length
  if d.digits = 0 || magnitude < leastMagnitude then 0
  else if greatestMagnitude < magnitude then infinityBits
  else (Float.ofScientific d.digits (d.exponent < 0) d.exponent.natAbs).toBits

/-- Reads the exponent that may follow the digits; nothing may follow it. -/
def exponent? : List Char → Option Int
  | [] => some 0
  | mark :: rest =>
    if mark = 'e' ∨ mark = 'E' then
      let (negative, digits) := match rest with
        | '-' :: digits => (true, digits)
        | '+' :: digits => (false, digits)
        | digits => (false, digits)
      if digits.isEmpty || !digits.all Char.isDigit then none
      else if negative then some (-(digitsValue digits : Int))
      else some (digitsValue digits)
    else
      none

/-- Reads an unsigned decimal fraction. It has a digit before or after the point. -/
def decimal? (text : List Char) : Option Decimal :=
  let (whole, rest) := spanDigits text
  let (fraction, rest) := match rest with
    | '.' :: rest => spanDigits rest
    | rest => ([], rest)
  if whole.isEmpty && fraction.isEmpty then
    none
  else
    (exponent? rest).map fun exponent =>
      { digits := digitsValue (whole ++ fraction), exponent := exponent - fraction.length }

def unsigned? (text : List Char) : Option UInt64 :=
  let name := String.ofList (text.map Char.toLower)
  if name = "inf" ∨ name = "infinity" then some infinityBits
  else if name = "nan" then some notANumberBits
  else (decimal? text).map Decimal.toBits

/-- Reads a number and returns the bits of the nearest double. -/
def double? (text : String) : Option UInt64 :=
  match text.toList with
  | '-' :: rest => (unsigned? rest).map (signBit ||| ·)
  | '+' :: rest => unsigned? rest
  | rest => unsigned? rest

end NesMachine.Number
