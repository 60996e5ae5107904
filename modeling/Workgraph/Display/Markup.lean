/-!
# Markup

Texts for a terminal, with styles in square brackets. A text that is shown as it is has its own
brackets escaped where they would be read as a style.
-/

namespace Workgraph

namespace Markup

/-- Whether a character can begin a style. -/
def beginsStyle (c : Char) : Bool :=
  ('a' ≤ c && c ≤ 'z') || c = '#' || c = '/' || c = '@'

/-- Whether the characters after an opening bracket would be read as a style: they begin like one
and reach a closing bracket before another opening one. -/
def readsAsStyle : List Char → Bool
  | c :: rest =>
    beginsStyle c && (rest.dropWhile fun d => d ≠ '[' && d ≠ ']').head? = some ']'
  | [] => false

/-- Escapes a text whose last `slashes` characters were backslashes, which are still to be written.
A bracket that would be read as a style gets a backslash, and the backslashes before it are doubled.
-/
def escapeFrom : Nat → List Char → List Char
  | slashes, [] => List.replicate slashes '\\'
  | slashes, '\\' :: rest => escapeFrom (slashes + 1) rest
  | slashes, c :: rest =>
    let before :=
      if c = '[' && readsAsStyle rest then List.replicate (2 * slashes + 1) '\\'
      else List.replicate slashes '\\'
    before ++ c :: escapeFrom 0 rest

/-- Doubles a backslash that stands alone at the end. -/
def closeEnd (cs : List Char) : List Char :=
  match cs.reverse with
  | '\\' :: '\\' :: _ => cs
  | '\\' :: _ => cs ++ ['\\']
  | _ => cs

/-- A text that is shown as it is. -/
def escape (s : String) : String := String.ofList (closeEnd (escapeFrom 0 s.toList))

/-- A marked-up text in a style. -/
def styled (style text : String) : String := "[" ++ style ++ "]" ++ text ++ "[/]"

end Markup

end Workgraph
