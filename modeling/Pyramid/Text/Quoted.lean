import Pyramid.Text.Printable

/-!
# Quoted text

A text between quotes, so that blanks and controls can be seen. The quote is `'`, or `"` when the
text holds `'` and no `"`. The backslash and the quote in use are escaped, so are the line feed,
the carriage return and the tab; any other character that is not printable is written by its code
point, with two, four or eight hexadecimal digits, whichever is the fewest that hold it.
-/

namespace Pyramid.Text

/-- The quote around a text. -/
def quoteFor (t : Text) : Char := if '\'' ∈ t ∧ '"' ∉ t then '"' else '\''

/-- One character of a quoted text. -/
def escape (quote c : Char) : Text :=
  if c = '\\' ∨ c = quote then ['\\', c]
  else if c = '\n' then "\\n"
  else if c = '\r' then "\\r"
  else if c = '\t' then "\\t"
  else if isPrintable c then [c]
  else if c.toNat < 0x100 then "\\x" ++ ofNatHex 2 c.toNat
  else if c.toNat < 0x10000 then "\\u" ++ ofNatHex 4 c.toNat
  else "\\U" ++ ofNatHex 8 c.toNat

/-- The text in quotes. -/
def quoted (t : Text) : Text :=
  let quote := quoteFor t
  quote :: t.flatMap (escape quote) ++ [quote]

example : quoted "it's" = "\"it's\"".toList := by decide
example : quoted "a\tb\\" = "'a\\tb\\\\'".toList := by decide
example : quoted "\x00\u2028" = "'\\x00\\u2028'".toList := by decide +kernel

end Pyramid.Text
