import NesMachine.CommandLine.Quoted

/-!
# Addresses on the command line

An address is written in hexadecimal, after any number of `0x`, then of `0X`, then of `$`, and after an
optional plus sign.
-/

namespace NesMachine

inductive AddressError
  | empty
  | invalidDigit
  | tooLarge
  deriving DecidableEq, Repr

def AddressError.reason : AddressError → String
  | empty => "cannot parse integer from empty string"
  | invalidDigit => "invalid digit found in string"
  | tooLarge => "number too large to fit in target type"

def AddressError.message (error : AddressError) (text : String) : String :=
  "invalid address " ++ Quoted.quote text ++ ": " ++ error.reason

namespace HexAddress

def digitValue (c : Char) : Option Nat :=
  if '0' ≤ c ∧ c ≤ '9' then some (c.toNat - '0'.toNat)
  else if 'a' ≤ c ∧ c ≤ 'f' then some (c.toNat - 'a'.toNat + 10)
  else if 'A' ≤ c ∧ c ≤ 'F' then some (c.toNat - 'A'.toNat + 10)
  else none

/-- Drops `0` with the mark behind it, as often as they stand at the front. -/
def dropMarks (mark : Char) : List Char → List Char
  | c :: d :: rest => if c = '0' ∧ d = mark then dropMarks mark rest else c :: d :: rest
  | text => text

/-- Takes the digits one by one. The first one that is invalid, or that makes the number too large, is
the one to blame. -/
def readDigits (value : Nat) : List Char → Except AddressError UInt16
  | [] => .ok (UInt16.ofNat value)
  | c :: rest =>
    match digitValue c with
    | none => .error .invalidDigit
    | some digit =>
      let next := value * 16 + digit
      if next < 0x10000 then readDigits next rest else .error .tooLarge

def readNumber : List Char → Except AddressError UInt16
  | [] => .error .empty
  | ['+'] => .error .invalidDigit
  | '+' :: digits => readDigits 0 digits
  | digits => readDigits 0 digits

def dropPrefixes (text : List Char) : List Char :=
  (dropMarks 'X' (dropMarks 'x' text)).dropWhile (· == '$')

def parse (text : String) : Except AddressError UInt16 :=
  readNumber (dropPrefixes text.toList)

end HexAddress

end NesMachine
