import MethodLowering.Text.Unprintable

/-!
# Quoted text

A text in quotes, so that it can be told apart in a message: quotes, backslashes and characters that are not shown are
escaped.
-/

namespace MethodLowering

namespace Quoted

/-- A character in quotes. A character that is not shown is given by its code in hexadecimal. -/
def escape (c : Char) : List Char :=
  if c = '\x00' then ['\\', '0']
  else if c = '\t' then ['\\', 't']
  else if c = '\r' then ['\\', 'r']
  else if c = '\n' then ['\\', 'n']
  else if c = '"' then ['\\', '"']
  else if c = '\\' then ['\\', '\\']
  else if isUnprintable c then ['\\', 'u', '\x7b'] ++ Nat.toDigits 16 c.toNat ++ ['\x7d']
  else [c]

/-- A text in quotes. -/
def encode (text : String) : String :=
  String.ofList ('"' :: text.toList.flatMap escape ++ ['"'])

end Quoted

end MethodLowering
