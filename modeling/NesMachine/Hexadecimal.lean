/-!
# Hexadecimal text

The machine prints numbers in fixed-width upper-case hexadecimal; error texts use the lower-case form
behind `0x`.
-/

namespace NesMachine.Hexadecimal

def digit (n : Nat) : Char :=
  if n < 10 then Char.ofNat (48 + n) else Char.ofNat (55 + n)

def byte (b : UInt8) : String :=
  String.ofList [digit (b.toNat / 16), digit (b.toNat % 16)]

def word (w : UInt16) : String :=
  String.ofList
    [digit (w.toNat / 4096), digit (w.toNat / 256 % 16), digit (w.toNat / 16 % 16), digit (w.toNat % 16)]

def bytes (bs : List UInt8) : String :=
  String.join (bs.map byte)

/-- Fills with zeros on the left up to the given width. -/
def zeroFilled (width : Nat) (digits : List Char) : List Char :=
  List.replicate (width - digits.length) '0' ++ digits

/-- Upper-case digits, at least `width` of them. -/
def upper (width n : Nat) : String :=
  String.ofList (zeroFilled width ((Nat.toDigits 16 n).map Char.toUpper))

def lower (width n : Nat) : String :=
  String.ofList (zeroFilled width (Nat.toDigits 16 n))

/-- At least four lower-case digits behind `0x`. -/
def address (n : Nat) : String :=
  "0x" ++ lower 4 n

end NesMachine.Hexadecimal
