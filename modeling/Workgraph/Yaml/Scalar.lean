import Workgraph.Yaml.Token
/-!
# Scalars of YAML

Plain and quoted scalars. Inside a scalar the end of a line counts as a blank, and further ends of
lines after it count as themselves.
-/

namespace Workgraph.Yaml

/-- What the end of a line and those after it count as. -/
def foldBreaks (first : Char) (others : List Char) : List Char :=
  if first ≠ '\n' then first :: others
  else if others.isEmpty then [' ']
  else others

/-! ## Plain scalars -/

/-- The ends of lines ahead, with blanks between them left out, and whether a line that separates
documents stopped them. -/
def plainBreaks : Nat → List Char → Cursor → List Char × Cursor × Bool
  | 0, acc, c => (acc.reverse, c, false)
  | n + 1, acc, c =>
    let c := c.skipWhile (· = ' ')
    match c.takeBreak? with
    | none => (acc.reverse, c, false)
    | some (b, c) =>
      if c.atSeparator then (acc.reverse, c, true) else plainBreaks n (b :: acc) c

/-- What lies between two runs of a plain scalar, whether there was an end of a line, and the cursor
after it. There is nothing between them if the scalar cannot go on. -/
def plainSpaces (c : Cursor) : List Char × Bool × Cursor :=
  let (blanks, c) := c.takeWhile (· = ' ')
  match c.takeBreak? with
  | none => (blanks, false, c)
  | some (first, c) =>
    if c.atSeparator then ([], true, c)
    else
      let (others, c, stopped) := plainBreaks (c.rest.length + 1) [] c
      if stopped then ([], true, c) else (foldBreaks first others, true, c)

/-- The length of the run of a plain scalar ahead. -/
def plainRun (inFlow : Bool) : List Char → Nat
  | [] => 0
  | d :: rest =>
    let after := rest.headD (Char.ofNat 0)
    if isGap d
        || (d = ':' && (isGap after || (inFlow && [',', '[', ']', '\x7b', '\x7d'].contains after)))
        || (inFlow && [',', '?', '[', ']', '\x7b', '\x7d'].contains d) then 0
    else plainRun inFlow rest + 1

/-- The rest of a plain scalar: its characters, whether there was the end of a line after the last
run, and the cursor after it. -/
def plainRest (inFlow : Bool) (indent : Int) :
    Nat → List Char → List Char → Bool → Cursor → List Char × Bool × Cursor
  | 0, acc, _, broken, c => (acc, broken, c)
  | n + 1, acc, spaces, broken, c =>
    let length := plainRun inFlow c.rest
    if c.peek 0 = '#' || length = 0 then (acc, broken, c)
    else
      let acc := acc ++ spaces ++ c.rest.take length
      let (spaces, broken, c) := plainSpaces (c.skip length)
      if spaces.isEmpty || c.peek 0 = '#' || (!inFlow && (c.column : Int) < indent) then
        (acc, broken, c)
      else plainRest inFlow indent n acc spaces broken c

/-! ## Quoted scalars -/

/-- The character for which a letter after a backslash stands. -/
def escapedChar? : Char → Option Char
  | '0' => some (Char.ofNat 0)
  | 'a' => some (Char.ofNat 7)
  | 'b' => some (Char.ofNat 8)
  | 't' | '\t' => some '\t'
  | 'n' => some '\n'
  | 'v' => some (Char.ofNat 11)
  | 'f' => some (Char.ofNat 12)
  | 'r' => some '\r'
  | 'e' => some (Char.ofNat 27)
  | ' ' => some ' '
  | '"' => some '"'
  | '\\' => some '\\'
  | '/' => some '/'
  | 'N' => some (Char.ofNat 0x85)
  | '_' => some (Char.ofNat 0xA0)
  | 'L' => some (Char.ofNat 0x2028)
  | 'P' => some (Char.ofNat 0x2029)
  | _ => none

/-- The number of digits after a letter that introduces the number of a character. -/
def escapeLength? : Char → Option Nat
  | 'x' => some 2
  | 'u' => some 4
  | 'U' => some 8
  | _ => none

/-- The value of a digit of base sixteen. -/
def hexDigit? (c : Char) : Option Nat :=
  if '0' ≤ c && c ≤ '9' then some (c.toNat - 48)
  else if 'a' ≤ c && c ≤ 'f' then some (c.toNat - 87)
  else if 'A' ≤ c && c ≤ 'F' then some (c.toNat - 55)
  else none

/-- The ends of lines ahead inside quotes, with the blanks around them left out. -/
def quotedBreaks (start : Mark) : Nat → List Char → Cursor → Except Misread (List Char × Cursor)
  | 0, acc, c => .ok (acc.reverse, c)
  | n + 1, acc, c =>
    if c.atSeparator then
      .error (.problem (some "while scanning a quoted scalar") (some start)
        "found unexpected document separator" c.mark)
    else
      let c := c.skipWhile fun d => d = ' ' || d = '\t'
      match c.takeBreak? with
      | none => .ok (acc.reverse, c)
      | some (b, c) => quotedBreaks start n (b :: acc) c

/-- The characters that the escape after a backslash stands for, and the cursor after it. -/
def readEscape (start : Mark) (c : Cursor) : Except Misread (List Char × Cursor) :=
  let context := some "while scanning a double-quoted scalar"
  let d := c.peek 0
  match escapedChar? d, escapeLength? d, c.takeBreak? with
  | some e, _, _ => .ok ([e], c.next)
  | none, some length, _ =>
    let c := c.next
    let digits := (List.range length).map c.peek
    match digits.find? fun d => (hexDigit? d).isNone with
    | some d =>
      .error (.problem context (some start)
        ("expected escape sequence of " ++ digitsText length ++ " hexdecimal numbers, but found " ++
          Text.quoted (String.singleton d)) c.mark)
    | none =>
      let n := digits.foldl (fun n d => 16 * n + (hexDigit? d).getD 0) 0
      .ok ([Char.ofNat n], c.skip length)
  | none, none, some (_, c) => quotedBreaks start (c.rest.length + 1) [] c
  | none, none, none =>
    .error (.problem context (some start)
      ("found unknown escape character " ++ Text.quoted (String.singleton d)) c.mark)

/-- The rest of a quoted scalar: its characters, and the cursor after the closing quote. -/
def quotedRest (double : Bool) (start : Mark) :
    Nat → List Char → Cursor → Except Misread (List Char × Cursor)
  | 0, acc, c => .ok (acc, c)
  | n + 1, acc, c =>
    let d := c.peek 0
    if d = '\'' && !double then
      if c.peek 1 = '\'' then quotedRest double start n ('\'' :: acc) (c.skip 2)
      else .ok (acc.reverse, c.next)
    else if d = '"' && double then .ok (acc.reverse, c.next)
    else if d = '\\' && double then do
      let (cs, c) ← readEscape start c.next
      quotedRest double start n (cs.reverse ++ acc) c
    else if isGap d then
      let (blanks, c) := c.takeWhile fun d => d = ' ' || d = '\t'
      if c.rest.isEmpty then
        .error (.problem (some "while scanning a quoted scalar") (some start)
          "found unexpected end of stream" c.mark)
      else
        match c.takeBreak? with
        | none => quotedRest double start n (blanks.reverse ++ acc) c
        | some (first, c) => do
          let (others, c) ← quotedBreaks start (c.rest.length + 1) [] c
          quotedRest double start n ((foldBreaks first others).reverse ++ acc) c
    else quotedRest double start n (d :: acc) c.next

end Workgraph.Yaml
