import Workgraph.Text.Printable
/-!
# Quoted text

The quoted form of a text in messages. Single quotes stand around the text unless it holds a single
quote and no double quote. Characters that cannot be printed are written by their code point.
-/

namespace Workgraph.Text

/-- A natural in base sixteen with small letters, padded with zeros. -/
def hex (width n : Nat) : List Char :=
  let ds := Nat.toDigits 16 n
  List.replicate (width - ds.length) '0' ++ ds

/-- A character inside a quoted text. -/
def quoteChar (quote c : Char) : List Char :=
  if c = quote || c = '\\' then ['\\', c]
  else if c = '\n' then ['\\', 'n']
  else if c = '\r' then ['\\', 'r']
  else if c = '\t' then ['\\', 't']
  else if isPrintable c then [c]
  else if c.toNat < 0x100 then ['\\', 'x'] ++ hex 2 c.toNat
  else if c.toNat < 0x10000 then ['\\', 'u'] ++ hex 4 c.toNat
  else ['\\', 'U'] ++ hex 8 c.toNat

/-- A text in quotes. -/
def quoted (s : String) : String :=
  let cs := s.toList
  let quote := if cs.contains '\'' && !cs.contains '"' then '"' else '\''
  String.ofList ([quote] ++ cs.flatMap (quoteChar quote) ++ [quote])

end Workgraph.Text
