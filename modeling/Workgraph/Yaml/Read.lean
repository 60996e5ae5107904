import Workgraph.Value.Json
import Workgraph.Yaml.Plain
import Workgraph.Yaml.Scan
/-!
# Reading YAML

The value of a YAML text with one document: block and flow collections of scalars. A repeated key
keeps its last value. Keys that are no texts are written as JSON writes them.
-/

namespace Workgraph.Yaml

/-- What remains to be read: tokens, and the problem after them. -/
structure Input where
  tokens : List Token
  problem : Option Misread

namespace Input

/-- The token ahead. -/
def peek (i : Input) : Except Misread Token :=
  match i.tokens, i.problem with
  | t :: _, _ => .ok t
  | [], some e => .error e
  | [], none => .ok ⟨.finish, ⟨0, 0⟩⟩

/-- Goes on by one token. -/
def next (i : Input) : Input := { i with tokens := i.tokens.drop 1 }

/-- Whether the token ahead is of one of several kinds. -/
def isAt (i : Input) (kinds : List Symbol) : Except Misread Bool := do
  return kinds.contains (← i.peek).symbol

/-- The problem of a token ahead while something is read that started at a place. -/
def unexpected {α : Type} (i : Input) (context : String) (start : Mark) (words : String) :
    Except Misread α := do
  let t ← i.peek
  throw (.problem (some context) (some start)
    (words ++ " " ++ Text.quoted t.symbol.name) t.mark)

/-- The problem of a token at which no node starts. -/
def noNode {α : Type} (i : Input) (block : Bool) : Except Misread α := do
  let context := "while parsing a " ++ (if block then "block" else "flow") ++ " node"
  i.unexpected context (← i.peek).mark "expected the node content, but found"

end Input

/-- The text of a key. Collections cannot be keys. -/
def keyText (mapping key : Mark) : Value → Except Misread String
  | .text s => .ok s
  | .list _ | .object _ =>
    .error (.problem (some "while constructing a mapping") (some mapping) "found unhashable key"
      key)
  | v => .ok (Json.write Json.spaced v)

mutual

/-- A node. Only in a block may a block collection follow, and only after a key a list whose items
are not further in than the key. -/
def readNode : Nat → Bool → Bool → Input → Except Misread (Value × Input)
  | 0, _, _, i => .ok (.null, i)
  | n + 1, block, flush, i => do
    let t ← i.peek
    match t.symbol with
    | .scalar plain text => return (if plain then plainValue text else .text text, i.next)
    | .openList => readList n t.mark true [] i.next
    | .openMapping => readMapping n t.mark true [] i.next
    | .blockSequence => if block then readItems n t.mark [] i.next else i.noNode block
    | .blockMapping => if block then readFields n t.mark [] i.next else i.noNode block
    | .entry => if flush then readFlushItems n [] i else i.noNode block
    | _ => i.noNode block

/-- The items of a block list. -/
def readItems : Nat → Mark → List Value → Input → Except Misread (Value × Input)
  | 0, _, acc, i => .ok (.list acc.reverse, i)
  | n + 1, start, acc, i => do
    match (← i.peek).symbol with
    | .entry =>
      if ← i.next.isAt [.entry, .blockEnd] then readItems n start (.null :: acc) i.next
      else
        let (v, i) ← readNode n true false i.next
        readItems n start (v :: acc) i
    | .blockEnd => return (.list acc.reverse, i.next)
    | _ =>
      i.unexpected "while parsing a block collection" start "expected <block end>, but found"

/-- The items of a list that stands no further in than its key. -/
def readFlushItems : Nat → List Value → Input → Except Misread (Value × Input)
  | 0, acc, i => .ok (.list acc.reverse, i)
  | n + 1, acc, i => do
    if ← i.isAt [.entry] then
      if ← i.next.isAt [.entry, .key, .value, .blockEnd] then
        readFlushItems n (.null :: acc) i.next
      else
        let (v, i) ← readNode n true false i.next
        readFlushItems n (v :: acc) i
    else return (.list acc.reverse, i)

/-- The fields of a block mapping. -/
def readFields : Nat → Mark → Entries Value → Input → Except Misread (Value × Input)
  | 0, _, acc, i => .ok (.object acc, i)
  | n + 1, start, acc, i => do
    match (← i.peek).symbol with
    | .key =>
      let mark := (← i.next.peek).mark
      let (k, i) ← readPart n [.key, .value, .blockEnd] true i.next
      let (v, i) ← readAfterColon n [.key, .value, .blockEnd] true i
      let k ← keyText start mark k
      readFields n start (acc.set k v) i
    | .value =>
      let (v, i) ← readAfterColon n [.key, .value, .blockEnd] true i
      readFields n start (acc.set "null" v) i
    | .blockEnd => return (.object acc, i.next)
    | _ => i.unexpected "while parsing a block mapping" start "expected <block end>, but found"

/-- A node, or nothing if a token of one of several kinds lies ahead. -/
def readPart : Nat → List Symbol → Bool → Input → Except Misread (Value × Input)
  | 0, _, _, i => .ok (.null, i)
  | n + 1, stops, block, i => do
    if ← i.isAt stops then return (.null, i) else readNode n block block i

/-- The node after a colon, or nothing if there is no colon. -/
def readAfterColon : Nat → List Symbol → Bool → Input → Except Misread (Value × Input)
  | 0, _, _, i => .ok (.null, i)
  | n + 1, stops, block, i => do
    if ← i.isAt [.value] then readPart n stops block i.next else return (.null, i)

/-- The items of a flow list. -/
def readList : Nat → Mark → Bool → List Value → Input → Except Misread (Value × Input)
  | 0, _, _, acc, i => .ok (.list acc.reverse, i)
  | n + 1, start, first, acc, i => do
    if ← i.isAt [.closeList] then return (.list acc.reverse, i.next)
    else if !first && !(← i.isAt [.comma]) then
      i.unexpected "while parsing a flow sequence" start "expected ',' or ']', but got"
    else
      let i := if first then i else i.next
      readListItem n start acc i

/-- An item of a flow list, which may be a single field, and those after it. -/
def readListItem : Nat → Mark → List Value → Input → Except Misread (Value × Input)
  | 0, _, acc, i => .ok (.list acc.reverse, i)
  | n + 1, start, acc, i => do
    if ← i.isAt [.closeList] then return (.list acc.reverse, i.next)
    else if ← i.isAt [.key] then
      let mark := (← i.peek).mark
      let (k, i) ← readPart n [.value, .comma, .closeList] false i.next
      let (v, i) ← readAfterColon n [.comma, .closeList] false i
      let k ← keyText mark mark k
      readList n start false (.object [(k, v)] :: acc) i
    else
      let (v, i) ← readNode n false false i
      readList n start false (v :: acc) i

/-- The fields of a flow mapping. -/
def readMapping : Nat → Mark → Bool → Entries Value → Input → Except Misread (Value × Input)
  | 0, _, _, acc, i => .ok (.object acc, i)
  | n + 1, start, first, acc, i => do
    if ← i.isAt [.closeMapping] then return (.object acc, i.next)
    else if !first && !(← i.isAt [.comma]) then
      i.unexpected "while parsing a flow mapping" start "expected ',' or '\x7d', but got"
    else
      let i := if first then i else i.next
      readMappingField n start acc i

/-- A field of a flow mapping, which may lack its value, and those after it. -/
def readMappingField : Nat → Mark → Entries Value → Input → Except Misread (Value × Input)
  | 0, _, acc, i => .ok (.object acc, i)
  | n + 1, start, acc, i => do
    if ← i.isAt [.closeMapping] then return (.object acc, i.next)
    else
      let hasMark ← i.isAt [.key]
      let i := if hasMark then i.next else i
      let mark := (← i.peek).mark
      let (k, i) ←
        if hasMark then readPart n [.value, .comma, .closeMapping] false i
        else readNode n false false i
      let (v, i) ←
        if hasMark then readAfterColon n [.comma, .closeMapping] false i
        else pure (Value.null, i)
      let k ← keyText start mark k
      readMapping n start false (acc.set k v) i

end

/-- The value of a document, and what follows it. Nothing stands for an empty text. -/
def readDocument (i : Input) : Except Misread (Value × Input) := do
  let fuel := 4 * i.tokens.length + 4
  match (← i.peek).symbol with
  | .finish => return (.null, i)
  | .documentStart =>
    if ← i.next.isAt [.documentStart, .documentEnd, .finish] then return (.null, i.next)
    else readNode fuel true false i.next
  | _ => readNode fuel true false i

/-- Goes on past lines that end documents. -/
def skipEnds : Nat → Input → Except Misread Input
  | 0, i => .ok i
  | n + 1, i => do
    if ← i.isAt [.documentEnd] then skipEnds n i.next else return i

/-- The keys of the outermost mapping that are scalars. The depth is that of the first token. -/
def scalarKeys : Nat → List Token → List Value
  | _, [] => []
  | depth, t :: rest =>
    match t.symbol with
    | .openList | .openMapping | .blockSequence | .blockMapping => scalarKeys (depth + 1) rest
    | .closeList | .closeMapping | .blockEnd => scalarKeys (depth - 1) rest
    | .key =>
      match depth, rest.head?.map Token.symbol with
      | 1, some (.scalar plain text) =>
        (if plain then plainValue text else .text text) :: scalarKeys depth rest
      | _, _ => scalarKeys depth rest
    | _ => scalarKeys depth rest

/-- Whether the keys of the outermost mapping of a text are texts. -/
def hasTextKeys (text : String) : Bool :=
  (scalarKeys 0 (tokens text).1).all fun v => v.kind = (Value.text "").kind

/-- The number of digits of the first integer among tokens that has more than are converted. -/
def longNumeral? (tokens : List Token) : Option Nat :=
  tokens.findSome? fun t =>
    match t.symbol with
    | .scalar true text => longDigits? text
    | _ => none

/-- The value of a text, which holds at most one document. -/
def read (text : String) : Except Misread Value := do
  let (found, problem) := tokens text
  let start : Input := ⟨found, problem⟩
  let (v, i) ← readDocument start
  let i ← skipEnds (i.tokens.length + 1) i
  let t ← i.peek
  match t.symbol with
  | .finish =>
    match longNumeral? found with
    | some digits => throw (.longNumeral digits)
    | none => return v
  | .documentStart =>
    throw (.problem (some "expected a single document in the stream") (some (← start.peek).mark)
      "but found another document" t.mark)
  | s =>
    throw (.problem none none
      ("expected '<document start>', but found " ++ Text.quoted s.name) t.mark)

end Workgraph.Yaml
