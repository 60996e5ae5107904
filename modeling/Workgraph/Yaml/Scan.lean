import Workgraph.Yaml.Scalar
/-!
# Cutting a YAML text into tokens

Besides the tokens that stand in the text there are those that its indentation means: the start and
the end of a block collection. A colon makes what stands before it on the line a key, so a token for
the key is put before it afterwards.
-/

namespace Workgraph.Yaml

/-- What may turn out to be a key: where it stands among the tokens and in the text, and whether
nothing else may stand there. -/
structure KeyPlace where
  token : Nat
  required : Bool
  index : Nat
  mark : Mark

/-- A text that has been cut into tokens up to a cursor. -/
structure Scan where
  cursor : Cursor
  tokens : Array Token
  /-- The number of flow collections that are open. -/
  flow : Nat
  /-- The column of the innermost block collection, and those of the collections around it. -/
  indent : Int
  outer : List Int
  keyAllowed : Bool
  /-- What may turn out to be a key, by the number of open flow collections. -/
  keys : List (Nat × KeyPlace)

namespace Scan

/-- The start of a text. -/
def start (cs : List Char) : Scan :=
  let c := Cursor.start cs
  let c := if c.peek 0 = Char.ofNat 0xFEFF then c.next else c
  ⟨c, #[], 0, -1, [], true, []⟩

def mark (s : Scan) : Mark := s.cursor.mark
def column (s : Scan) : Int := s.cursor.column

/-- Adds a token at a place. -/
def push (s : Scan) (symbol : Symbol) (mark : Mark) : Scan :=
  { s with tokens := s.tokens.push ⟨symbol, mark⟩ }

/-- Goes on by so many characters. -/
def skip (s : Scan) (n : Nat) : Scan := { s with cursor := s.cursor.skip n }

/-- Skips blanks, comments and ends of lines. A key may stand on a new line of a block. The bound is
on the number of lines. -/
def skipGaps : Nat → Scan → Scan
  | 0, s => s
  | n + 1, s =>
    let c := s.cursor.skipWhile (· = ' ')
    let c := if c.peek 0 = '#' then c.skipWhile fun d => !isBreakOrEnd d else c
    match c.takeBreak? with
    | none => { s with cursor := c }
    | some (_, c) => skipGaps n { s with cursor := c, keyAllowed := s.keyAllowed || s.flow = 0 }

/-- The problem of something that had to be a key and is none. -/
def keyProblem (k : KeyPlace) (mark : Mark) : Misread :=
  .problem (some "while scanning a simple key") (some k.mark) "could not find expected ':'" mark

/-- The most characters of a key without mark. -/
def maxKeyLength : Nat := 1024

/-- Forgets what can no longer be a key: a key and its colon stand on one line. -/
def dropStaleKeys (s : Scan) : Except Misread Scan := do
  let isStale (k : KeyPlace) : Bool :=
    k.mark.line ≠ s.cursor.line || s.cursor.index - k.index > maxKeyLength
  match s.keys.find? fun e => isStale e.2 && e.2.required with
  | some e => throw (keyProblem e.2 s.mark)
  | none => return { s with keys := s.keys.filter fun e => !isStale e.2 }

/-- Forgets what may be a key in the innermost collection. -/
def dropKey (s : Scan) : Except Misread Scan :=
  match s.keys.find? fun e => e.1 = s.flow with
  | none => .ok s
  | some e =>
    if e.2.required then .error (keyProblem e.2 s.mark)
    else .ok { s with keys := s.keys.filter fun e => e.1 ≠ s.flow }

/-- Remembers that the next token may be a key. -/
def saveKey (s : Scan) : Except Misread Scan := do
  if s.keyAllowed then
    let required := s.flow = 0 && s.indent = s.column
    let s ← s.dropKey
    return { s with
      keys := s.keys ++ [(s.flow, ⟨s.tokens.size, required, s.cursor.index, s.mark⟩)] }
  else return s

/-- Ends the block collections that are further in than a column; the bound is on their number. -/
def unwind (column : Int) : Nat → Scan → Scan
  | 0, s => s
  | n + 1, s =>
    if s.flow = 0 && s.indent > column then
      unwind column n
        { s.push .blockEnd s.mark with indent := s.outer.headD (-1), outer := s.outer.tail }
    else s

/-- Ends the block collections that are further in than a column. -/
def unwindTo (s : Scan) (column : Int) : Scan := s.unwind column (s.outer.length + 1)

/-- Starts a block collection at a column, unless there is one. -/
def indentTo (s : Scan) (column : Int) : Scan × Bool :=
  if s.indent < column then
    ({ s with indent := column, outer := s.indent :: s.outer }, true)
  else (s, false)

/-- Starts a block collection at the cursor, unless there is one at its column. -/
def openBlock (s : Scan) (symbol : Symbol) : Scan :=
  let (s, isNew) := s.indentTo s.column
  if isNew then s.push symbol s.mark else s

/-- A token of some length at the cursor. -/
def take (s : Scan) (symbol : Symbol) (length : Nat) : Scan := (s.push symbol s.mark).skip length

/-- A problem at the cursor. -/
def problem (s : Scan) (words : String) : Misread := .problem none none words s.mark

/-- The end of the text. -/
def takeFinish (s : Scan) : Except Misread Scan := do
  let s ← (s.unwindTo (-1)).dropKey
  return s.push .finish s.mark

/-- A line that separates documents. -/
def takeSeparator (s : Scan) (symbol : Symbol) : Except Misread Scan := do
  let s ← (s.unwindTo (-1)).dropKey
  return { s with keyAllowed := false }.take symbol 3

/-- The start of a flow collection. -/
def takeOpening (s : Scan) (symbol : Symbol) : Except Misread Scan := do
  let s ← s.saveKey
  return { s with flow := s.flow + 1, keyAllowed := true }.take symbol 1

/-- The end of a flow collection. -/
def takeClosing (s : Scan) (symbol : Symbol) : Except Misread Scan := do
  let s ← s.dropKey
  return { s with flow := s.flow - 1, keyAllowed := false }.take symbol 1

/-- A comma. -/
def takeComma (s : Scan) : Except Misread Scan := do
  let s ← s.dropKey
  return { s with keyAllowed := true }.take .comma 1

/-- The hyphen before an item of a block list. -/
def takeEntry (s : Scan) : Except Misread Scan := do
  if s.flow = 0 && !s.keyAllowed then throw (s.problem "sequence entries are not allowed here")
  let s := if s.flow = 0 then s.openBlock .blockSequence else s
  let s ← s.dropKey
  return { s with keyAllowed := true }.take .entry 1

/-- The mark before a key. -/
def takeKey (s : Scan) : Except Misread Scan := do
  if s.flow = 0 && !s.keyAllowed then throw (s.problem "mapping keys are not allowed here")
  let s := if s.flow = 0 then s.openBlock .blockMapping else s
  let s ← s.dropKey
  return { s with keyAllowed := s.flow = 0 }.take .key 1

/-- Puts a token before one that is there already. -/
def insert (s : Scan) (i : Nat) (symbol : Symbol) (mark : Mark) : Scan :=
  { s with tokens := s.tokens.extract 0 i ++ #[⟨symbol, mark⟩] ++ s.tokens.extract i s.tokens.size }

/-- The colon before a value. What may be a key before it is one. -/
def takeValue (s : Scan) : Except Misread Scan := do
  match s.keys.find? fun e => e.1 = s.flow with
  | some (_, k) =>
    let s := { s with keys := s.keys.filter (·.1 ≠ s.flow), keyAllowed := false }
    let s := s.insert k.token .key k.mark
    let (s, isNew) := if s.flow = 0 then s.indentTo k.mark.column else (s, false)
    let s := if isNew then s.insert k.token .blockMapping k.mark else s
    return s.take .value 1
  | none =>
    if s.flow = 0 && !s.keyAllowed then throw (s.problem "mapping values are not allowed here")
    let s := if s.flow = 0 then s.openBlock .blockMapping else s
    return { s with keyAllowed := s.flow = 0 }.take .value 1

/-- A quoted scalar. -/
def takeQuoted (s : Scan) (double : Bool) : Except Misread Scan := do
  let s ← s.saveKey
  let start := s.mark
  let (cs, c) ← quotedRest double start (s.cursor.rest.length + 1) [] s.cursor.next
  return { s with cursor := c, keyAllowed := false }.push (.scalar false (String.ofList cs)) start

/-- A plain scalar. -/
def takePlain (s : Scan) : Except Misread Scan := do
  let s ← s.saveKey
  let start := s.mark
  let (cs, broken, c) :=
    plainRest (s.flow > 0) (s.indent + 1) (s.cursor.rest.length + 1) [] [] false s.cursor
  return { s with cursor := c, keyAllowed := broken }.push (.scalar true (String.ofList cs)) start

/-- Whether a plain scalar starts at the cursor. -/
def atPlain (s : Scan) : Bool :=
  let d := s.cursor.peek 0
  let special := "-?:,[]\x7b\x7d#&*!|>'\"%@`".toList
  !(isGap d || special.contains d) ||
    (!isGap (s.cursor.peek 1) && (d = '-' || (s.flow = 0 && (d = '?' || d = ':'))))

/-- Cuts off the next token. -/
def fetch (s : Scan) : Except Misread Scan := do
  let s ← (s.skipGaps (s.cursor.rest.length + 1)).dropStaleKeys
  let s := s.unwindTo s.column
  let d := s.cursor.peek 0
  let gap := isGap (s.cursor.peek 1)
  if s.cursor.rest.isEmpty then s.takeFinish
  else if s.cursor.column = 0 && s.cursor.atSeparator then
    s.takeSeparator (if d = '-' then .documentStart else .documentEnd)
  else if d = '[' then s.takeOpening .openList
  else if d = '\x7b' then s.takeOpening .openMapping
  else if d = ']' then s.takeClosing .closeList
  else if d = '\x7d' then s.takeClosing .closeMapping
  else if d = ',' then s.takeComma
  else if d = '-' && gap then s.takeEntry
  else if d = '?' && (s.flow > 0 || gap) then s.takeKey
  else if d = ':' && (s.flow > 0 || gap) then s.takeValue
  else if d = '\'' then s.takeQuoted false
  else if d = '"' then s.takeQuoted true
  else if s.atPlain then s.takePlain
  else
    throw (.problem (some "while scanning for the next token") none
      ("found character " ++ Text.quoted (String.singleton d) ++ " that cannot start any token")
      s.mark)

/-- Cuts off all tokens, up to a problem if there is one. -/
def fetchAll : Nat → Scan → Array Token × Option Misread
  | 0, s => (s.tokens, none)
  | n + 1, s =>
    match s.fetch with
    | .error e => (s.tokens, some e)
    | .ok s =>
      if (s.tokens.back?.map Token.symbol) = some .finish then (s.tokens, none)
      else fetchAll n s

end Scan

/-- Whether a character may stand in a text. -/
def isAllowed (c : Char) : Bool :=
  let n := c.toNat
  n = 9 || n = 10 || n = 13 || (0x20 ≤ n && n ≤ 0x7E) || n = 0x85 || (0xA0 ≤ n && n ≤ 0xFFFD) ||
    0x10000 ≤ n

/-- The tokens of a text, up to a problem if there is one. -/
def tokens (text : String) : List Token × Option Misread :=
  let cs := text.toList
  match cs.find? fun c => !isAllowed c with
  | some c => ([], some (.character c (cs.takeWhile isAllowed).length))
  | none =>
    let (found, problem) := (Scan.start cs).fetchAll (cs.length + 2)
    (found.toList, problem)

end Workgraph.Yaml
