/-!
# Patterns

The structure of a pattern: the items it is made of, the options that change what they match, and
the number of characters they can cover.
-/

namespace Workgraph.Pattern

/-- The options of a pattern or of a part of it. -/
structure Options where
  ignoreCase : Bool := false
  multiLine : Bool := false
  dotAll : Bool := false
  verbose : Bool := false
  ascii : Bool := false
  unicode : Bool := false
  template : Bool := false
deriving DecidableEq, Repr, Inhabited

namespace Options

/-- No option. -/
def none : Options := {}

/-- The options of either. -/
def union (a b : Options) : Options where
  ignoreCase := a.ignoreCase || b.ignoreCase
  multiLine := a.multiLine || b.multiLine
  dotAll := a.dotAll || b.dotAll
  verbose := a.verbose || b.verbose
  ascii := a.ascii || b.ascii
  unicode := a.unicode || b.unicode
  template := a.template || b.template

/-- The options of the first that are not options of the second. -/
def without (a b : Options) : Options where
  ignoreCase := a.ignoreCase && !b.ignoreCase
  multiLine := a.multiLine && !b.multiLine
  dotAll := a.dotAll && !b.dotAll
  verbose := a.verbose && !b.verbose
  ascii := a.ascii && !b.ascii
  unicode := a.unicode && !b.unicode
  template := a.template && !b.template

/-- Whether the options share one. -/
def overlap (a b : Options) : Bool :=
  a.ignoreCase && b.ignoreCase || a.multiLine && b.multiLine || a.dotAll && b.dotAll ||
    a.verbose && b.verbose || a.ascii && b.ascii || a.unicode && b.unicode ||
    a.template && b.template

/-- Whether an option chooses the set of characters. -/
def choosesCharacters (a : Options) : Bool := a.ascii || a.unicode

/-- The option of a letter. -/
def ofLetter? : Char → Option Options
  | 'i' => some { ignoreCase := true }
  | 'm' => some { multiLine := true }
  | 's' => some { dotAll := true }
  | 'x' => some { verbose := true }
  | 'a' => some { ascii := true }
  | 'u' => some { unicode := true }
  | 't' => some { template := true }
  | _ => Option.none

/-- The options inside a group that adds some and removes some. Choosing a set of characters
replaces the choice made outside. -/
def within (outer added removed : Options) : Options :=
  let base :=
    if added.choosesCharacters then { outer with ascii := false, unicode := false } else outer
  (base.union added).without removed

end Options

/-- A class of characters. -/
inductive Category where
  | digit
  | space
  | word
deriving DecidableEq, Repr

/-- A member of a character set. -/
inductive Member where
  | one (code : Nat)
  | range (low high : Nat)
  | category (category : Category) (negated : Bool)
deriving DecidableEq, Repr

/-- A place in a text. -/
inductive Anchor where
  /-- The start of the text, or of a line. -/
  | start
  /-- The end of the text or of its last line, or of any line. -/
  | stop
  | textStart
  | textStop
  | wordEdge
  | notWordEdge
deriving DecidableEq, Repr

/-- How a repetition chooses its count. -/
inductive Greed where
  /-- As often as possible, less often if the rest needs it. -/
  | greedy
  /-- As seldom as possible. -/
  | lazy
  /-- As often as possible, whatever the rest needs. -/
  | possessive
deriving DecidableEq, Repr

/-- An item of a pattern. -/
inductive Item where
  | char (code : Nat)
  | notChar (code : Nat)
  | any
  | set (negated : Bool) (members : List Member)
  | anchor (place : Anchor)
  /-- The text that a group matched. -/
  | reference (group : Nat)
  | branch (alternatives : List (List Item))
  /-- A group, with its number if it remembers its text, and its options. -/
  | group (number : Option Nat) (added removed : Options) (body : List Item)
  | repetition (greed : Greed) (least : Nat) (most : Option Nat) (body : List Item)
  /-- A part that is matched once and not tried again. -/
  | atomic (body : List Item)
  /-- What must (or must not) follow or precede. -/
  | look (ahead negated : Bool) (body : List Item)
  /-- One of two parts, chosen by whether a group has matched. -/
  | conditional (group : Nat) (yes no : List Item)
deriving Inhabited

/-- The least and greatest number of characters that a part covers. -/
structure Width where
  least : Nat
  most : Nat
deriving DecidableEq, Repr, Inhabited

namespace Width

/-- The greatest width that is told apart. -/
def limit : Nat := Nat.pow 2 64

/-- The greatest width of a part that looks behind. -/
def behindLimit : Nat := Nat.pow 2 32 - 1

/-- One part after another. -/
def add (a b : Width) : Width := ⟨a.least + b.least, a.most + b.most⟩

/-- One part or another. -/
def either (a b : Width) : Width := ⟨min a.least b.least, max a.most b.most⟩

/-- A width within the limit. -/
def capped (a : Width) : Width := ⟨min a.least limit, min a.most limit⟩

/-- A part repeated. -/
def times (a : Width) (least : Nat) : Option Nat → Width
  | some most => ⟨a.least * least, a.most * most⟩
  | none => ⟨a.least * least, if a.most = 0 then 0 else limit⟩

end Width

mutual

/-- The width of an item, given the widths of the groups. -/
def Item.width (groups : Nat → Width) : Item → Width
  | .char _ | .notChar _ | .any | .set .. => ⟨1, 1⟩
  | .anchor _ | .look .. => ⟨0, 0⟩
  | .reference g => groups g
  | .branch alternatives => branchWidth groups alternatives
  | .group _ _ _ body => bodyWidth groups body
  | .repetition _ least most body => (bodyWidth groups body).times least most
  | .atomic body => bodyWidth groups body
  | .conditional _ yes [] => ⟨0, (bodyWidth groups yes).most⟩
  | .conditional _ yes no => (bodyWidth groups yes).either (bodyWidth groups no)

/-- The width of a sequence of items. -/
def bodyWidth (groups : Nat → Width) (items : List Item) : Width := (sumWidth groups items).capped

/-- The sum of the widths of items. -/
def sumWidth (groups : Nat → Width) : List Item → Width
  | [] => ⟨0, 0⟩
  | item :: rest => (item.width groups).add (sumWidth groups rest)

/-- The width of alternatives. -/
def branchWidth (groups : Nat → Width) : List (List Item) → Width
  | [] => ⟨Width.limit, 0⟩
  | body :: rest => (bodyWidth groups body).either (branchWidth groups rest)

end

end Workgraph.Pattern
