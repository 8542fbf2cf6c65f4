import ClusterBlueprint.Text.Hidden

/-!
Quoted text: a text between double quotes in which every character can be seen.

A quote and a backslash are written after a backslash, as are newline, tab, carriage return and NUL;
any other hidden character is written by its code point.
-/

namespace ClusterBlueprint.Text

def escapeChar (c : Char) : List Char :=
  match c with
  | '"' => ['\\', '"']
  | '\\' => ['\\', '\\']
  | '\n' => ['\\', 'n']
  | '\t' => ['\\', 't']
  | '\r' => ['\\', 'r']
  | '\x00' => ['\\', '0']
  | _ =>
    if isHidden c then ['\\', 'u', '\x7b'] ++ Nat.toDigits 16 c.toNat ++ ['\x7d'] else [c]

/-- The text between quotes, with everything hidden made visible. -/
def quoted (s : String) : String :=
  "\"" ++ String.ofList (s.toList.flatMap escapeChar) ++ "\""

end ClusterBlueprint.Text
