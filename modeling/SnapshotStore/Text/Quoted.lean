import SnapshotStore.Bytes.Hex
import SnapshotStore.Text.Printable

/-!
Quoted text, as errors and listings show a name: double quotes around the characters, a backslash
before a quote or a backslash, short escapes for NUL, tab, line feed and carriage return, and the
code point in braces for every other character that does not print as itself.
-/

namespace SnapshotStore.Quoted

def escape (c : Char) : List Char :=
  match c with
  | '\x00' => ['\\', '0']
  | '\t' => ['\\', 't']
  | '\n' => ['\\', 'n']
  | '\r' => ['\\', 'r']
  | '"' => ['\\', '"']
  | '\\' => ['\\', '\\']
  | c =>
    if Printable.isPrintable c then [c]
    else ['\\', 'u', '\x7b'] ++ Nat.toDigits 16 c.toNat ++ ['\x7d']

def quote (text : String) : String :=
  String.ofList ('"' :: (text.toList.flatMap escape ++ ['"']))

end SnapshotStore.Quoted
