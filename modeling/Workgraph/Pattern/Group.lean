import Workgraph.Entries
import Workgraph.Number.Numeral
import Workgraph.Pattern.Reading
import Workgraph.Text.Identifier
import Workgraph.Text.Letter
/-!
# Groups

The starts of groups: names, options and conditions.
-/

namespace Workgraph.Pattern

open Reader

/-- The name of a group must be an identifier. -/
def checkName (n : String) : Reader Unit := do
  if !Text.isIdentifier n then failBack (.badName n) (n.length + 1)

/-- What a letter of options turns out to be. -/
def optionFault (l : Lexeme) (what : String) : Fault :=
  if l.satisfies Text.isLetter then .unknownOption else .missing what

/-- The options that a letter adds, with those before it. -/
def addOption (c : Char) (before : Options) : Reader Options := do
  match Options.ofLetter? c with
  | none => fail .localeOption
  | some o =>
    let added := before.union o
    if added.ascii && added.unicode && o.choosesCharacters then fail .conflictingOptions
    return added

/-- Whether a lexeme is the letter of an option. -/
def isOptionLetter (l : Lexeme) : Bool :=
  l.satisfies fun c => c = 'L' || (Options.ofLetter? c).isSome

/-- The options to add, from a first letter on, and the character that ends them. -/
def addedOptions : Nat → Char → Options → Reader (Options × Char)
  | 0, c, read => return (read, c)
  | n + 1, c, read => do
    let added ← addOption c read
    match ← next with
    | none => fail (.missing "-, : or )")
    | some l =>
      if l.is ')' || l.is '-' || l.is ':' then return (added, l.char)
      if !isOptionLetter l then failBack (optionFault l "-, : or )") l.chars.length
      addedOptions n l.char added

/-- The options to remove, from a first letter on to the colon. -/
def removedOptions : Nat → Char → Options → Reader Options
  | 0, _, read => return read
  | n + 1, c, read => do
    let o := (Options.ofLetter? c).getD { ascii := true }
    if o.choosesCharacters then fail .switchOffCharacters
    let removed := read.union o
    match ← next with
    | none => fail (.missing ":")
    | some l =>
      if l.is ':' then return removed
      if !isOptionLetter l then failBack (optionFault l ":") l.chars.length
      removedOptions n l.char removed

/-- The options of a group, from their first character: those to add and those to remove, or none
if they apply to the whole pattern. -/
def groupOptions (c : Char) : Reader (Option (Options × Options)) := do
  let bound := (← get).rest.length + 1
  let (added, stop) ←
    if c = '-' then pure (Options.none, '-') else addedOptions bound c Options.none
  if stop = ')' then
    modify fun r => { r with options := r.options.union added }
    return none
  if added.template then failBack .switchOnGlobal 1
  let removed ←
    if stop = '-' then
      match ← next with
      | none => fail (.missing "flag")
      | some l =>
        if !isOptionLetter l then failBack (optionFault l "flag") l.chars.length
        removedOptions bound l.char Options.none
    else pure Options.none
  if removed.template then failBack .switchOffGlobal 1
  if added.overlap removed then failBack .switchTwice 1
  return some (added, removed)

/-- The number of the group that a condition names. -/
def conditionGroup : Reader Nat := do
  let n ← name ')' "group name"
  let back := n.length + 1
  if Text.isIdentifier n then
    match Entries.get? (← get).names n with
    | some g => return g
    | none => failBack (.unknownName n) back
  match readInteger n with
  | .ok (.ofNat 0) => failBack .zeroGroup back
  | .ok (.ofNat g) =>
    if g ≥ Nat.pow 2 30 - 1 then failBack (.invalidGroup g) back
    let position := (← tell) - back
    modify fun r =>
      if r.conditions.any (·.1 = g) then r
      else { r with conditions := r.conditions ++ [(g, position)] }
    return g
  | _ => failBack (.badName n) back

/-- Opens a group, with its name if it has one. -/
def openGroup (label : Option String) : Reader Nat := do
  let number := (← get).widths.length + 1
  match label with
  | some n =>
    match Entries.get? (← get).names n with
    | some earlier => failBack (.renamedGroup n number earlier) (n.length + 1)
    | none => modify fun r => { r with names := r.names ++ [(n, number)] }
  | none => pure ()
  modify fun r => { r with widths := r.widths ++ [none] }
  return number

/-- The widths of the closed groups. -/
def Reading.groupWidth (r : Reading) (group : Nat) : Width :=
  ((r.widths[group - 1]?).join).getD ⟨0, 0⟩

/-- Closes a group. -/
def closeGroup (group : Nat) (body : List Item) : Reader Unit :=
  modify fun r =>
    { r with widths := r.widths.set (group - 1) (some (bodyWidth r.groupWidth body)) }

/-- A reference to a group by its name. -/
def namedReference : Reader Item := do
  let n ← name ')' "group name"
  checkName n
  match Entries.get? (← get).names n with
  | none => failBack (.unknownName n) (n.length + 1)
  | some g =>
    if !(← isClosed g) then failBack .openGroup (n.length + 1)
    checkBehind g
    return .reference g

/-- The kinds of groups that an opening bracket can start. -/
inductive Opening where
  | capturing (name : Option String)
  | plain (added removed : Options)
  | atomic
  | look (ahead negated : Bool)
  | condition
  | comment
  | reference (item : Item)
  /-- Options for the whole pattern. -/
  | global

/-- The start of a group whose opening bracket and question mark are read. -/
def extension : Reader Opening := do
  match ← next with
  | none => fail .unexpectedEnd
  | some l =>
    let unknown (text : List Char) : Reader Opening :=
      failBack (.unknownExtension (String.ofList text)) (text.length + 1)
    match l.escaped, l.char with
    | some _, _ => unknown l.chars
    | none, 'P' =>
      if ← accept '<' then
        let n ← name '>' "group name"
        checkName n
        return .capturing (some n)
      if ← accept '=' then return .reference (← namedReference)
      match ← next with
      | none => fail .unexpectedEnd
      | some m => unknown ('P' :: m.chars)
    | none, ':' => return .plain Options.none Options.none
    | none, '#' => return .comment
    | none, '=' => return .look true false
    | none, '!' => return .look true true
    | none, '<' =>
      match ← next with
      | none => fail .unexpectedEnd
      | some m =>
        if m.is '=' then return .look false false
        if m.is '!' then return .look false true
        unknown ('<' :: m.chars)
    | none, '(' => return .condition
    | none, '>' => return .atomic
    | none, c =>
      if isOptionLetter l || c = '-' then
        match ← groupOptions c with
        | none => return .global
        | some (added, removed) => return .plain added removed
      else unknown [c]

end Workgraph.Pattern
