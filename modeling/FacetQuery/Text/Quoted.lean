import FacetQuery.Text.Numeral
import FacetQuery.Text.Shapeless

/-!
# Quoted text

Messages and cache keys show a text between double quotes, with everything that could
be mistaken or not be seen written as an escape: the quote and the backslash, the
control characters, and every character without a shape of its own.
-/

namespace FacetQuery.Text

/-- Whether a character is written as an escape by its code point. -/
def needsCodePoint (c : Char) : Bool :=
  c.toNat < 0x20 || c.toNat == 0x7F || (0x80 ≤ c.toNat && isShapeless c)

def quoteChar (c : Char) : List Char :=
  if c == '\x00' then ['\\', '0']
  else if c == '\t' then ['\\', 't']
  else if c == '\r' then ['\\', 'r']
  else if c == '\n' then ['\\', 'n']
  else if c == '"' then ['\\', '"']
  else if c == '\\' then ['\\', '\\']
  else if needsCodePoint c then '\\' :: 'u' :: '{' :: (hexNumeral c.toNat ++ ['}'])
  else [c]

/-- A text between double quotes. -/
def quoted (s : String) : String :=
  String.ofList ('"' :: (s.toList.flatMap quoteChar ++ ['"']))

end FacetQuery.Text
