import Verdict.Text.Printable
/-
Quoted text.

Messages show a text between double quotes, so that its ends and every character
in it can be told: quotes and backslashes stand behind a backslash, and a character
that is not printable is shown by a letter or by its number.
-/
namespace Verdict.Text

/-- A character of quoted text. -/
def quoteChar (c : Char) : List Char :=
  match c with
  | '"' => ['\\', '"']
  | '\\' => ['\\', '\\']
  | '\t' => ['\\', 't']
  | '\n' => ['\\', 'n']
  | '\r' => ['\\', 'r']
  | '\x00' => ['\\', '0']
  | c =>
    if isPrintable c then [c]
    else "\\u\x7b".toList ++ Nat.toDigits 16 c.toNat ++ ['\x7d']

/-- The text `s` between quotes. -/
def quoted (s : String) : String :=
  "\"" ++ .ofList (s.toList.flatMap quoteChar) ++ "\""

end Verdict.Text
