import WildcardNet.Text.Graphic
/-!
# Quoted text

A text is shown between quotes. A quote or backslash inside it is escaped, the common controls have
letters of their own, and any other character that is not graphic is shown by its code point.
-/

namespace WildcardNet.Text

/-- The code point in hexadecimal between braces. -/
def escapeCode (c : Char) : List Char :=
  ['\\', 'u', '\x7b'] ++ Nat.toDigits 16 c.toNat ++ ['\x7d']

def escape (c : Char) : List Char :=
  match c with
  | '\x00' => ['\\', '0']
  | '\t' => ['\\', 't']
  | '\r' => ['\\', 'r']
  | '\n' => ['\\', 'n']
  | '\\' => ['\\', '\\']
  | '"' => ['\\', '"']
  | c => if isGraphic c then [c] else escapeCode c

def quoted (cs : List Char) : String :=
  String.ofList ('"' :: cs.flatMap escape ++ ['"'])

end WildcardNet.Text
