import Datalog.Text.Unprintable

/-!
# Quoted texts in messages

**Rule.** A text stands between double quotes.  A double quote and a backslash get a backslash
before them; tab, line feed, carriage return and the null character have their letter or digit
after a backslash; any other character without a picture of its own is written as its code in
hexadecimal, in braces after `\u`.
-/

namespace Datalog

section Quoted

namespace Quoted

/-- The written form of one character. -/
def escape (c : Char) : List Char :=
  match c with
  | '"' => ['\\', '"']
  | '\\' => ['\\', '\\']
  | '\t' => ['\\', 't']
  | '\n' => ['\\', 'n']
  | '\r' => ['\\', 'r']
  | '\x00' => ['\\', '0']
  | _ =>
      if Unprintable.contains c then
        ['\\', 'u', '\x7b'] ++ Nat.toDigits 16 c.toNat ++ ['\x7d']
      else
        [c]

/-- The text between double quotes. -/
def quote (text : String) : String :=
  String.ofList ('"' :: text.toList.flatMap escape ++ ['"'])

end Quoted

end Quoted

end Datalog
