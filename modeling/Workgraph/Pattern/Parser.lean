import Workgraph.Pattern.Escape
import Workgraph.Pattern.Group
/-!
# Patterns from texts

A pattern is a choice between sequences of items. A text that spells none is refused with the fault
that a reading from left to right meets first.
-/

namespace Workgraph.Pattern

open Reader

/-- The closing bracket of the group that started at a position. -/
def closing (start : Nat) : Reader Unit := do
  if !(← accept ')') then throw (.fault .unterminatedGroup (some start))

/-- Groups without number and options are replaced by their items. -/
def unpack (items : List Item) : List Item :=
  items.flatMap fun item => item.plainBody?.getD [item]

/-- Blanks that a verbose pattern ignores. -/
def isPatternBlank (c : Char) : Bool :=
  c = ' ' || c = '\t' || c = '\n' || c = '\r' || c = '\x0b' || c = '\x0c'

/-- Alternatives as an item sequence. -/
def ofAlternatives : List (List Item) → List Item
  | [items] => items
  | alternatives => [.branch alternatives]

mutual

/-- Alternatives after those already read, last first. At the top, options for the whole pattern
take effect from one alternative to the next. The bound is the length of the text. -/
def alternatives (top : Bool) : Nat → Bool → List (List Item) → Reader (List Item)
  | 0, _, read => return ofAlternatives read.reverse
  | n + 1, verbose, read => do
    let items ← sequence (top && read.isEmpty) n verbose []
    if ← accept '|' then
      let whole := (← get).options
      let verbose := if top then whole.verbose else verbose
      alternatives top n verbose (items :: read)
    else return ofAlternatives (items :: read).reverse

/-- Items after those already read, last first. Options for the whole pattern may only stand
first. -/
def sequence (first : Bool) : Nat → Bool → List Item → Reader (List Item)
  | 0, _, read => return unpack read.reverse
  | n + 1, verbose, read => do
    match ← peek with
    | none => return unpack read.reverse
    | some this =>
      if this.is '|' || this.is ')' then return unpack read.reverse
      let position := this.position
      advance
      if verbose && this.satisfies isPatternBlank then sequence first n verbose read
      else if verbose && this.is '#' then do
        skipLine ((← get).rest.length + 1)
        sequence first n verbose read
      else match this.escaped, this.char with
        | some e, _ => do sequence first n verbose ((← escape e) :: read)
        | none, '[' => do sequence first n verbose ((← characterSet) :: read)
        | none, '.' => sequence first n verbose (.any :: read)
        | none, '^' => sequence first n verbose (.anchor .start :: read)
        | none, '$' => sequence first n verbose (.anchor .stop :: read)
        | none, '(' => do
          let opening ← if ← accept '?' then extension else pure (.capturing none)
          match opening with
          | .comment =>
            skipComment position ((← get).rest.length + 1)
            sequence first n verbose read
          | .reference item => sequence first n verbose (item :: read)
          | .global =>
            if !first || !read.isEmpty then throw (.fault .lateOptions (some position))
            sequence first n (← get).options.verbose read
          | .look ahead negated =>
            let outer := (← get).behind
            if !ahead && outer.isNone then
              modify fun r => { r with behind := some (r.widths.length + 1) }
            let body ← alternatives false n verbose []
            if !ahead && outer.isNone then modify fun r => { r with behind := none }
            closing position
            sequence first n verbose (.look ahead negated body :: read)
          | .condition =>
            let group ← conditionGroup
            checkBehind group
            let yes ← sequence false n verbose []
            let no ←
              if ← accept '|' then
                let no ← sequence false n verbose []
                if (← peek).any (·.is '|') then fail .thirdBranch
                pure no
              else pure []
            closing position
            sequence first n verbose (.conditional group yes no :: read)
          | .atomic =>
            let body ← alternatives false n verbose []
            closing position
            sequence first n verbose (.atomic body :: read)
          | .plain added removed =>
            let inner := (verbose || added.verbose) && !removed.verbose
            let body ← alternatives false n inner []
            closing position
            sequence first n verbose (.group none added removed body :: read)
          | .capturing label =>
            let group ← openGroup label
            let body ← alternatives false n verbose []
            closing position
            closeGroup group body
            sequence first n verbose (.group (some group) Options.none Options.none body :: read)
        | none, c =>
          if c = '*' || c = '+' || c = '?' || c = '\x7b' then do
            match ← counts c with
            | none => sequence first n verbose (.char c.toNat :: read)
            | some k => sequence first n verbose (← repeatLast k position read)
          else sequence first n verbose (.char c.toNat :: read)

end

/-! ## Whole patterns -/

mutual

/-- What an item of a pattern cannot be used for: parts that look behind must have one width, and
templates repeat nothing. -/
def Item.check (groups : Nat → Width) (options : Options) : Item → Except Failure Unit
  | .branch bodies => checkBranches groups options bodies
  | .group _ added removed body => checkBody groups (options.within added removed) body
  | .repetition greed _ _ body =>
    if options.template then
      .error (.fault (.templateRepeat (match greed with
        | .greedy => "MAX_REPEAT"
        | .lazy => "MIN_REPEAT"
        | .possessive => "POSSESSIVE_REPEAT")) none)
    else checkBody groups options body
  | .atomic body => checkBody groups options body
  | .look ahead _ body =>
    let w := bodyWidth groups body
    if !ahead && w.least > Width.behindLimit then .error (.fault .longLookBehind none)
    else if !ahead && w.least ≠ w.most then .error (.fault .variableLookBehind none)
    else checkBody groups options body
  | .conditional _ yes no => do
    checkBody groups options yes
    checkBody groups options no
  | _ => .ok ()

/-- Checks the items of a sequence in order. -/
def checkBody (groups : Nat → Width) (options : Options) : List Item → Except Failure Unit
  | [] => .ok ()
  | item :: rest => do
    item.check groups options
    checkBody groups options rest

/-- Checks alternatives in order. -/
def checkBranches (groups : Nat → Width) (options : Options) :
    List (List Item) → Except Failure Unit
  | [] => .ok ()
  | body :: rest => do
    checkBody groups options body
    checkBranches groups options rest

end

end Pattern

/-- A pattern that can be searched for. -/
structure Pattern where
  items : List Pattern.Item
  options : Pattern.Options
  groups : Nat
  width : Nat → Pattern.Width

namespace Pattern

open Reader

/-- Reads a whole pattern. -/
def readPattern (bound : Nat) : Reader (List Item) := do
  seek (← get).rest
  let items ← alternatives true bound false []
  let r ← get
  if r.options.ascii && r.options.unicode then throw .twoCharacterSets
  if (← peek).isSome then fail .unbalanced
  match r.conditions.find? fun c => c.1 > r.widths.length with
  | some (g, position) => throw (.fault (.invalidGroup g) (some position))
  | none => return items

/-- The pattern that a text spells. -/
def ofString (s : String) : Except Failure Pattern := do
  let cs := s.toList
  let start : Reading :=
    { rest := lexemesFrom 0 cs, length := cs.length, options := Options.none, widths := [],
      names := [], behind := none, conditions := [] }
  let (items, r) ← (readPattern (3 * cs.length + 5)).run start
  checkBody r.groupWidth r.options items
  return ⟨items, r.options, r.widths.length, r.groupWidth⟩

end Pattern

end Workgraph
