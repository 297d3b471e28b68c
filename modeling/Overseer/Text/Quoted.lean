import Overseer.Text.Numeral
import Overseer.Text.Printable

set_option autoImplicit false

/-! # Quoted text

Texts inside messages are quoted so that their extent shows: single quotes, or double quotes
if the text holds a single quote and no double one. Backslashes and the closing quote are
escaped, as are characters that do not print. -/

namespace Overseer.Text

/-- The quote that surrounds a text. -/
def quoteFor (cs : List Char) : Char :=
  if cs.contains '\x27' && !cs.contains '"' then '"' else '\x27'

/-- One character inside quotes. -/
def quoteChar (quote c : Char) : List Char :=
  if c = quote || c = '\\' then ['\\', c]
  else if c = '\n' then ['\\', 'n']
  else if c = '\r' then ['\\', 'r']
  else if c = '\t' then ['\\', 't']
  else if isPrintable c then [c]
  else if c.toNat < 0x100 then '\\' :: 'x' :: digitsOfWidth 16 2 c.toNat
  else if c.toNat < 0x10000 then '\\' :: 'u' :: digitsOfWidth 16 4 c.toNat
  else '\\' :: 'U' :: digitsOfWidth 16 8 c.toNat

/-- A text in quotes. -/
def quoted (s : String) : String :=
  let cs := s.toList
  let quote := quoteFor cs
  String.ofList (quote :: cs.flatMap (quoteChar quote) ++ [quote])

end Overseer.Text
