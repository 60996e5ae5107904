import Workgraph.Text.Blank
import Workgraph.Text.Case
import Workgraph.Text.Letter
import Workgraph.Text.Numeral
import Workgraph.Pattern.Syntax
/-!
# Characters of patterns

Which characters an item that covers one character accepts. When case is ignored, a character is
compared by its lower case, and some lower-case letters count as the same because they share an
upper case.
-/

namespace Workgraph.Pattern

/-- Lower-case letters that share an upper case. -/
def sharedCases : List (List Nat) :=
  [[0x69, 0x131], [0x73, 0x17F], [0xB5, 0x3BC], [0x345, 0x3B9, 0x1FBE], [0x390, 0x1FD3], [0x3B0,
    0x1FE3], [0x3B2, 0x3D0], [0x3B5, 0x3F5], [0x3B8, 0x3D1], [0x3BA, 0x3F0], [0x3C0, 0x3D6],
    [0x3C1, 0x3F1], [0x3C2, 0x3C3], [0x3C6, 0x3D5], [0x432, 0x1C80], [0x434, 0x1C81], [0x43E,
    0x1C82], [0x441, 0x1C83], [0x442, 0x1C84, 0x1C85], [0x44A, 0x1C86], [0x463, 0x1C87],
    [0x1C88, 0xA64B], [0x1E61, 0x1E9B], [0xFB05, 0xFB06]]

/-- The code of the lower case of a code point. -/
def lowerCode (ascii : Bool) (n : Nat) : Nat :=
  if ascii then if 65 ≤ n && n ≤ 90 then n + 32 else n
  else (Text.lowerSimple (Char.ofNat n)).toNat

/-- The lower-case letters that count as the same as a lower-case letter, itself among them. -/
def partners (ascii : Bool) (n : Nat) : List Nat :=
  if ascii then [n]
  else match sharedCases.find? (·.contains n) with
    | some ns => ns
    | none => [n]

/-- Whether a code point has another case. -/
def isCased (ascii : Bool) (n : Nat) : Bool :=
  if ascii then 65 ≤ n && n ≤ 90 || 97 ≤ n && n ≤ 122
  else
    let c := Char.ofNat n
    Text.lowerSimple c ≠ c || Text.upperChar c ≠ [c]

/-- The code points whose lower case is the given one. -/
def lowerSources (ascii : Bool) (n : Nat) : List Nat :=
  if ascii then if 97 ≤ n && n ≤ 122 then [n, n - 32] else if 65 ≤ n && n ≤ 90 then [] else [n]
  else
    let candidates := n :: 0x130 :: Text.lowerRuns.map fun r => ((n : Int) - r.distance).toNat
    candidates.filter fun m => lowerCode false m = n

/-- Whether a character belongs to a category. -/
def Category.holds (ascii : Bool) (c : Char) : Category → Bool
  | .digit => if ascii then c.isDigit else Text.isDecimal c
  | .space =>
    if ascii then c = ' ' || '\t' ≤ c && c ≤ '\r' else Text.isBlank c
  | .word => if ascii then c.isAlphanum || c = '_' else Text.isWord c

/-- Whether a character is a member. -/
def Member.holds (ascii : Bool) (c : Char) : Member → Bool
  | .one n => c.toNat = n
  | .range low high => low ≤ c.toNat && c.toNat ≤ high
  | .category k negated => k.holds ascii c != negated

/-- The first code point beyond the basic plane. -/
def basicPlane : Nat := 0x10000

/-- Whether a member contains a character that has another case. Members beyond the basic plane
count as such. -/
def Member.isCased (ascii : Bool) : Member → Bool
  | .one n => n ≥ basicPlane || Pattern.isCased ascii n
  | .range low high =>
    high ≥ basicPlane || (List.range (high + 1 - low)).any fun i => Pattern.isCased ascii (low + i)
  | .category .. => false

/-- Whether the lower case of a character is the same as that of a member. -/
def Member.holdsFolded (ascii : Bool) (c : Char) : Member → Bool
  | .one n =>
    if n ≥ basicPlane then c.toNat = n
    else (partners ascii (lowerCode ascii n)).contains c.toNat
  | .range low high =>
    let basic := (partners ascii c.toNat).any fun m =>
      (lowerSources ascii m).any fun s => low ≤ s && s ≤ high && s < basicPlane
    let upper := match Text.upperChar c with
      | u :: _ => u.toNat
      | [] => c.toNat
    basic || high ≥ basicPlane &&
      (low ≤ c.toNat && c.toNat ≤ high || low ≤ upper && upper ≤ high)
  | .category k negated => k.holds ascii c != negated

/-- Whether a set accepts a character. -/
def acceptsMember (options : Options) (members : List Member) (c : Char) : Bool :=
  if options.ignoreCase && members.any (Member.isCased options.ascii) then
    let lower := Char.ofNat (lowerCode options.ascii c.toNat)
    members.any (Member.holdsFolded options.ascii lower)
  else members.any (Member.holds options.ascii c)

/-- Whether a literal character accepts a character. -/
def acceptsCode (options : Options) (n : Nat) (c : Char) : Bool :=
  if options.ignoreCase && isCased options.ascii n then
    (partners options.ascii (lowerCode options.ascii n)).contains
      (lowerCode options.ascii c.toNat)
  else c.toNat = n

/-- Whether two characters count as the same when a group is matched again. -/
def sameChar (options : Options) (a b : Char) : Bool :=
  if options.ignoreCase then
    lowerCode options.ascii a.toNat = lowerCode options.ascii b.toNat
  else a = b

end Workgraph.Pattern
