/-
Texts in quotation marks.

A quotation mark and a backslash inside the text are written behind a backslash,
and so are some control characters by a letter.  Other characters that are not
shown by themselves are written by their number.
-/
import LineTable.Text.Printable

namespace LineTable
namespace Quoted

def character (c : Char) : List Char :=
  match c with
  | '"' => ['\\', '"']
  | '\\' => ['\\', '\\']
  | '\n' => ['\\', 'n']
  | '\r' => ['\\', 'r']
  | '\t' => ['\\', 't']
  | '\x00' => ['\\', '0']
  | _ =>
    if Printable.isShown c then [c]
    else ['\\', 'u', '\x7b'] ++ Nat.toDigits 16 c.toNat ++ ['\x7d']

def quote (text : String) : String :=
  "\"" ++ String.ofList (text.toList.flatMap character) ++ "\""

end Quoted
end LineTable
