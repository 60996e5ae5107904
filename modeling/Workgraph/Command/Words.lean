/-!
# Words of a command line

The words after the name of a command are options and operands. An option has a long name and
perhaps a letter; it stands for itself or takes a value, which follows it or is joined to it. After
two hyphens alone everything is an operand.
-/

namespace Workgraph.Command

/-- An option that a command knows. -/
structure Switch where
  /-- The name after two hyphens. -/
  name : String
  /-- The letter after a single hyphen. -/
  letter : Option Char
  takesValue : Bool
deriving DecidableEq, Repr

/-- Why a command line cannot be understood. -/
inductive Misuse where
  | unknownOption (word : String)
  | missingValue (word : String)
  | needlessValue (word : String)
  | badValue (name value : String)
  | missingOperand (name : String)
  | extraOperands (words : List String)
  | missingFile (name : String)
  | unknownCommand (word : String)
  | missingCommand
deriving DecidableEq, Repr

/-- The words about a misuse. -/
def Misuse.message : Misuse → String
  | .unknownOption word => "No such option: " ++ word
  | .missingValue word => "Option '" ++ word ++ "' requires an argument."
  | .needlessValue word => "Option '" ++ word ++ "' does not take a value."
  | .badValue name value => "Invalid value for '" ++ name ++ "': '" ++ value ++ "'"
  | .missingOperand name => "Missing argument '" ++ name ++ "'."
  | .extraOperands words => "Got unexpected extra arguments (" ++ " ".intercalate words ++ ")"
  | .missingFile name => "File '" ++ name ++ "' does not exist."
  | .unknownCommand word => "No such command '" ++ word ++ "'."
  | .missingCommand => "Missing command."

/-- The options and operands of a command line. -/
structure Words where
  /-- The options in order, with their values. -/
  options : List (String × Option String)
  operands : List String
deriving DecidableEq, Repr

namespace Words

/-- No words. -/
def none : Words := ⟨[], []⟩

/-- Adds options in front. -/
def withOptions (options : List (String × Option String)) (w : Words) : Words :=
  { w with options := options ++ w.options }

/-- Adds an operand in front. -/
def withOperand (word : String) (w : Words) : Words := { w with operands := word :: w.operands }

/-- Whether an option is given. -/
def has (w : Words) (name : String) : Bool := w.options.any fun o => o.1 = name

/-- The last value that is given for an option. -/
def value? (w : Words) (name : String) : Option String :=
  (w.options.reverse.find? fun o => o.1 = name).bind Prod.snd

end Words

/-- A word that names an option. -/
inductive OptionWord where
  /-- A long name, perhaps with a value after an equals sign. -/
  | long (name : String) (value : Option String)
  /-- Letters, of which the last may be followed by its value. -/
  | letters (cs : List Char)

/-- The option that a word names, if it names one. -/
def OptionWord.ofWord? (word : String) : Option OptionWord :=
  match word.toList with
  | '-' :: '-' :: cs =>
    let name := String.ofList (cs.takeWhile (· ≠ '='))
    let value := match cs.dropWhile (· ≠ '=') with
      | _ :: rest => some (String.ofList rest)
      | [] => none
    some (long name value)
  | '-' :: c :: cs => some (letters (c :: cs))
  | _ => none

/-- The options that letters name, and the last one of them if it still needs a value. -/
def readLetters (switches : List Switch) :
    List Char → Except Misuse (List (String × Option String) × Option Switch)
  | [] => .ok ([], none)
  | c :: rest =>
    match switches.find? fun s => s.letter = some c with
    | none => .error (.unknownOption (String.ofList ['-', c]))
    | some s =>
      if s.takesValue then
        if rest.isEmpty then .ok ([], some s)
        else .ok ([(s.name, some (String.ofList rest))], none)
      else (readLetters switches rest).map fun (options, last) =>
        ((s.name, none) :: options, last)

/-- The options that a word names, and the last one of them if it still needs a value. -/
def OptionWord.read (switches : List Switch) :
    OptionWord → Except Misuse (List (String × Option String) × Option Switch)
  | letters cs => readLetters switches cs
  | long name value =>
    match switches.find? fun s => s.name = name with
    | none => .error (.unknownOption ("--" ++ name))
    | some s =>
      match s.takesValue, value with
      | false, some _ => .error (.needlessValue ("--" ++ name))
      | true, none => .ok ([], some s)
      | _, _ => .ok ([(name, value)], none)

/-- Reads words. If options must come first, the first operand ends them. -/
def readWords (switches : List Switch) (optionsFirst : Bool) : List String → Except Misuse Words
  | [] => .ok Words.none
  | word :: rest =>
    if word = "--" then .ok ⟨[], rest⟩
    else
      match OptionWord.ofWord? word with
      | none =>
        if optionsFirst then .ok ⟨[], word :: rest⟩
        else (readWords switches optionsFirst rest).map (Words.withOperand word)
      | some option =>
        match option.read switches with
        | .error m => .error m
        | .ok (options, none) =>
          (readWords switches optionsFirst rest).map (Words.withOptions options)
        | .ok (options, some s) =>
          match rest with
          | [] => .error (.missingValue ("--" ++ s.name))
          | value :: rest =>
            (readWords switches optionsFirst rest).map
              (Words.withOptions (options ++ [(s.name, some value)]))

end Workgraph.Command
