/-!
# Options

How the words of a command line are taken apart. An option has a long name after two dashes and may have
a letter after one dash. Its value is the next word, or what follows the equals sign of a long name, or
what follows the letter. Letters without a value may stand together. Two dashes alone end the options.
-/

namespace Teletype.CommandLine

/-- An option: what it is called by, and whether a value follows. -/
structure OptionForm where
  long : String
  letter : Option Char := none
  takesValue : Bool := false
  deriving DecidableEq, Repr

/-- An option as given, by its long name. -/
abbrev Given := String × Option String

/-- Words taken apart: the options in order, and the other words. -/
structure Words where
  options : List Given := []
  others : List String := []
  deriving DecidableEq, Repr

namespace Words

/-- The value of an option that was given last. -/
def value? (w : Words) (long : String) : Option String :=
  (w.options.filter fun g => g.1 == long).getLast?.bind (·.2)

/-- An option was given. -/
def has (w : Words) (long : String) : Bool := w.options.any fun g => g.1 == long

end Words

/-- What a word that starts with a dash gives: options, of which the last may still want the next word
    as its value. -/
structure Dashed where
  options : List Given := []
  wanting : Option String := none
  deriving DecidableEq, Repr

/-- Takes letters apart. -/
def readLetters (forms : List OptionForm) : List Char → Option Dashed
  | [] => some {}
  | c :: rest =>
    match forms.find? fun f => f.letter == some c with
    | none => none
    | some f =>
      if f.takesValue then
        if rest.isEmpty then some { wanting := some f.long }
        else some { options := [(f.long, some (String.ofList rest))] }
      else (readLetters forms rest).map fun d => { d with options := (f.long, none) :: d.options }

/-- Takes a word that starts with a dash apart. A word with two dashes is no group of letters. -/
def readDashed (forms : List OptionForm) (word : List Char) : Option Dashed :=
  let name := String.ofList (word.takeWhile (· != '='))
  let value? := match word.dropWhile (· != '=') with
    | [] => none
    | _ :: v => some (String.ofList v)
  match forms.find? fun f => f.long == name with
  | some f =>
    match f.takesValue, value? with
    | true, some v => some { options := [(f.long, some v)] }
    | true, none => some { wanting := some f.long }
    | false, some _ => none
    | false, none => some { options := [(f.long, none)] }
  | none =>
    match word with
    | '-' :: '-' :: _ => none
    | _ => readLetters forms (word.drop 1)

/-- A word is read as options: a dash and something more. -/
def isDashed (word : String) : Bool :=
  match word.toList with
  | '-' :: _ :: _ => true
  | _ => false

/-- Takes words apart. Unless options may stand among the other words, the first other word ends
    them. -/
def readWords (forms : List OptionForm) (amongOthers : Bool) (words : List String) : Option Words :=
  match words with
  | [] => some {}
  | word :: rest =>
    if word == "--" then some { others := rest }
    else if isDashed word then
      match readDashed forms word.toList with
      | none => none
      | some d =>
        match d.wanting, rest with
        | none, rest =>
          (readWords forms amongOthers rest).map fun w => { w with options := d.options ++ w.options }
        | some _, [] => none
        | some long, value :: rest =>
          (readWords forms amongOthers rest).map fun w =>
            { w with options := d.options ++ (long, some value) :: w.options }
    else if amongOthers then
      (readWords forms amongOthers rest).map fun w => { w with others := word :: w.others }
    else some { others := word :: rest }
termination_by words.length

end Teletype.CommandLine
