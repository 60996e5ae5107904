import Workgraph.Pattern.Fold
import Workgraph.Pattern.Parser
/-!
# Searching for patterns

A pattern is tried at each position of a text from the left. At a position its items are matched one
after another; where there is a choice the first way that lets the rest match is taken. An item is
given what to do after it, so each item is matched by recursion on the pattern, and repetitions by
recursion on a count.
-/

namespace Workgraph.Pattern

/-- The text that a pattern is matched against. -/
abbrev Subject := Array Char

/-- How far a match has come, and where the groups start and stop. -/
structure Progress where
  position : Nat
  starts : Array (Option Nat)
  stops : Array (Option Nat)

/-- What is to be matched next: the end of the whole match, if there is one. -/
abbrev Next := Progress → Option Progress

namespace Progress

/-- The text range of a group that has matched. -/
def range? (p : Progress) (group : Nat) : Option (Nat × Nat) :=
  match (p.starts[group - 1]?).join, (p.stops[group - 1]?).join with
  | some i, some j => if i ≤ j then some (i, j) else none
  | _, _ => none

/-- Marks the start of a group. -/
def opened (p : Progress) (group : Nat) : Progress :=
  { p with starts := p.starts.setIfInBounds (group - 1) (some p.position) }

/-- Marks the end of a group. -/
def closed (p : Progress) (group : Nat) : Progress :=
  { p with stops := p.stops.setIfInBounds (group - 1) (some p.position) }

end Progress

/-- One character of a class. -/
def stepOne (subject : Subject) (accepts : Char → Bool) (k : Next) : Next := fun p =>
  match subject[p.position]? with
  | some c => if accepts c then k { p with position := p.position + 1 } else none
  | none => none

/-- Whether a character of a word is at a position. -/
def wordAt (subject : Subject) (options : Options) (i : Nat) : Bool :=
  match subject[i]? with
  | some c => Category.word.holds options.ascii c
  | none => false

/-- Whether a position is between a word and what is not a word. -/
def atWordEdge (subject : Subject) (options : Options) (i : Nat) : Bool :=
  (i ≠ 0 && wordAt subject options (i - 1)) != wordAt subject options i

/-- Whether a place is at a position. An empty text has neither edges of words nor other places. -/
def Anchor.holds (subject : Subject) (options : Options) (i : Nat) : Anchor → Bool
  | .start => i = 0 || options.multiLine && subject[i - 1]? = some '\n'
  | .stop =>
    i = subject.size ||
      (options.multiLine || i + 1 = subject.size) && subject[i]? = some '\n'
  | .textStart => i = 0
  | .textStop => i = subject.size
  | .wordEdge => subject.size ≠ 0 && atWordEdge subject options i
  | .notWordEdge => subject.size ≠ 0 && !atWordEdge subject options i

/-- Whether two stretches of the text are the same. -/
def sameStretch (subject : Subject) (options : Options) (i j : Nat) : Nat → Bool
  | 0 => true
  | n + 1 =>
    match subject[i]?, subject[j]? with
    | some a, some b => sameChar options a b && sameStretch subject options (i + 1) (j + 1) n
    | _, _ => false

/-- The text of a group once more. -/
def stepReference (subject : Subject) (options : Options) (group : Nat) (k : Next) : Next :=
  fun p =>
    match p.range? group with
    | some (i, j) =>
      if sameStretch subject options i p.position (j - i) then
        k { p with position := p.position + (j - i) }
      else none
    | none => none

/-- A greedy repetition that has happened `count` times. It goes on as long as the last time moved
ahead. The bound is on the number of times. -/
def repeatGreedy (body : Next → Next) (least : Nat) (most : Option Nat) (k : Next) :
    Nat → Nat → Option Nat → Next
  | 0, _, _, p => k p
  | n + 1, count, last, p =>
    if count < least then body (repeatGreedy body least most k n (count + 1) last) p
    else if most.all (count < ·) && last ≠ some p.position then
      match body (repeatGreedy body least most k n (count + 1) (some p.position)) p with
      | some r => some r
      | none => k p
    else k p

/-- A lazy repetition that has happened `count` times. -/
def repeatLazy (body : Next → Next) (least : Nat) (most : Option Nat) (k : Next) :
    Nat → Nat → Option Nat → Next
  | 0, _, _, p => k p
  | n + 1, count, last, p =>
    if count < least then body (repeatLazy body least most k n (count + 1) last) p
    else match k p with
      | some r => some r
      | none =>
        if most.all (count < ·) && last ≠ some p.position then
          body (repeatLazy body least most k n (count + 1) (some p.position)) p
        else none

/-- The end of a possessive repetition that has happened `count` times. -/
def repeatPossessive (body : Next → Next) (least : Nat) (most : Option Nat) :
    Nat → Nat → Option Nat → Next
  | 0, _, _, p => some p
  | n + 1, count, last, p =>
    if count < least then
      match body some p with
      | some q => repeatPossessive body least most n (count + 1) last q
      | none => none
    else if most.all (count < ·) && last ≠ some p.position then
      match body some p with
      | some q => repeatPossessive body least most n (count + 1) (some p.position) q
      | none => some p
    else some p

/-- A repetition from its start. Beyond its least count it happens at most once for each character
that is left, and once more. -/
def stepRepetition (subject : Subject) (greed : Greed) (least : Nat) (most : Option Nat)
    (body : Next → Next) (k : Next) : Next := fun p =>
  let bound := least + (subject.size - p.position) + 2
  match greed with
  | .greedy => repeatGreedy body least most k bound 0 none p
  | .lazy => repeatLazy body least most k bound 0 none p
  | .possessive => (repeatPossessive body least most bound 0 none p).bind k

/-- What must or must not be ahead of or behind a position. What it matched is remembered. -/
def stepLook (width : Nat) (negated : Bool) (body : Next → Next) (k : Next) : Next := fun p =>
  let found :=
    if width ≤ p.position then body some { p with position := p.position - width } else none
  match found, negated with
  | some q, false => k { q with position := p.position }
  | none, true => k p
  | _, _ => none

mutual

/-- Matches an item, and then what comes next. -/
def Item.step (subject : Subject) (groups : Nat → Width) (options : Options) :
    Item → Next → Next
  | .char n, k => stepOne subject (acceptsCode options n) k
  | .notChar n, k => stepOne subject (fun c => !acceptsCode options n c) k
  | .any, k => stepOne subject (fun c => options.dotAll || c ≠ '\n') k
  | .set negated members, k =>
    stepOne subject (fun c => acceptsMember options members c != negated) k
  | .anchor place, k => fun p => if place.holds subject options p.position then k p else none
  | .reference group, k => stepReference subject options group k
  | .branch bodies, k => stepBranches subject groups options bodies k
  | .group none added removed body, k =>
    stepBody subject groups (options.within added removed) body k
  | .group (some g) added removed body, k => fun p =>
    stepBody subject groups (options.within added removed) body (fun q => k (q.closed g))
      (p.opened g)
  | .repetition greed least most body, k =>
    stepRepetition subject greed least most (stepBody subject groups options body) k
  | .atomic body, k => fun p => (stepBody subject groups options body some p).bind k
  | .look ahead negated body, k =>
    stepLook (if ahead then 0 else (bodyWidth groups body).least) negated
      (stepBody subject groups options body) k
  | .conditional g yes no, k => fun p =>
    if (p.range? g).isSome then stepBody subject groups options yes k p
    else stepBody subject groups options no k p

/-- Matches the items of a sequence in order, and then what comes next. -/
def stepBody (subject : Subject) (groups : Nat → Width) (options : Options) :
    List Item → Next → Next
  | [], k => k
  | item :: rest, k => item.step subject groups options (stepBody subject groups options rest k)

/-- Matches the first alternative that lets what comes next match. -/
def stepBranches (subject : Subject) (groups : Nat → Width) (options : Options) :
    List (List Item) → Next → Next
  | [], _ => fun _ => none
  | body :: rest, k => fun p =>
    match stepBody subject groups options body k p with
    | some r => some r
    | none => stepBranches subject groups options rest k p

end

/-- The first match at or after a position, as its start and end. The bound is the number of
positions left. -/
def searchFrom (subject : Subject) (pattern : Pattern) : Nat → Nat → Option (Nat × Nat)
  | 0, _ => none
  | n + 1, i =>
    let start : Progress :=
      ⟨i, Array.replicate pattern.groups none, Array.replicate pattern.groups none⟩
    match stepBody subject pattern.width pattern.options pattern.items some start with
    | some p => some (i, p.position)
    | none => searchFrom subject pattern n (i + 1)

/-- The leftmost match of a pattern in a text. -/
def search (pattern : Pattern) (text : String) : Option String :=
  let cs := text.toList
  (searchFrom cs.toArray pattern (cs.length + 1) 0).map fun (i, j) =>
    String.ofList ((cs.drop i).take (j - i))

end Workgraph.Pattern
