import SeriesCodec.Text.Hex
import SeriesCodec.Text.Unprintable

/-!
# Quoted text

A message shows foreign text between double quotes.  The quote, the backslash
and the usual controls have short escapes, and every other character without a
shape of its own is shown by its code point.
-/

namespace SeriesCodec

namespace Text

def quotedChar (char : Char) : List Char :=
  match char with
  | '"' => ['\\', '"']
  | '\\' => ['\\', '\\']
  | '\x00' => ['\\', '0']
  | '\t' => ['\\', 't']
  | '\n' => ['\\', 'n']
  | '\r' => ['\\', 'r']
  | _ =>
      if isUnprintable char then
        ['\\', 'u', '{'] ++ hexChars char.toNat ++ ['}']
      else [char]

def quoted (text : String) : String :=
  String.ofList ('"' :: text.toList.flatMap quotedChar ++ ['"'])

end Text

end SeriesCodec
