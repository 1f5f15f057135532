import NesMachine.CommandLine.Invisible

/-!
# Quoted text

Error texts show what the user wrote between double quotes. Quotes and backslashes are escaped, and so
is every character that would not be seen as a mark of its own.
-/

namespace NesMachine.Quoted

/-- A character as it stands between the quotes. -/
def escape (c : Char) : List Char :=
  match c with
  | '"' => ['\\', '"']
  | '\\' => ['\\', '\\']
  | '\n' => ['\\', 'n']
  | '\t' => ['\\', 't']
  | '\r' => ['\\', 'r']
  | '\x00' => ['\\', '0']
  | c =>
    if Invisible.isInvisible c then
      ['\\', 'u', Char.ofNat 0x7B] ++ Nat.toDigits 16 c.toNat ++ [Char.ofNat 0x7D]
    else
      [c]

def quote (text : String) : String :=
  String.ofList ('"' :: text.toList.flatMap escape ++ ['"'])

end NesMachine.Quoted
