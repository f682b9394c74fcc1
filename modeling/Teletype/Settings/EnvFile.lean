import Teletype.Data.Table
import Teletype.Fault
import Teletype.Text.Blank
import Teletype.Text.Utf8

/-!
# Environment files

A line of an environment file binds a name, with or without a value. A value stands in apostrophes, in
double quotes, or bare up to a comment. A line that fits no form is passed over from where it stops
fitting. In a value, `$` with a name in braces stands for the value of that name, `:-` inside giving
what stands in for a name without one.
-/

namespace Teletype.Settings.EnvFile

open Text (isBlank)

/-- A line end. -/
def isEnd (c : Char) : Bool := c == '\n' || c == '\r'

/-- A blank inside a line. -/
def isGap (c : Char) : Bool := isBlank c && !isEnd c

/-- What follows a line end, or nothing at the end of the text. -/
def afterEnd : List Char → List Char
  | '\r' :: '\n' :: rest => rest
  | _ :: rest => rest
  | [] => []

/-- What follows the current line. A lone return ends it. -/
def afterLine (s : List Char) : List Char :=
  (s.dropWhile fun c => !isEnd c).drop 1

/-- Passes over the word `export` and the gap after it. -/
def skipExport (s : List Char) : List Char :=
  let word := "export".toList
  let rest := s.drop word.length
  if word.isPrefixOf s && (rest.head?.map isGap).getD false then rest.dropWhile isGap else s

/-- The content up to the first quote that no backslash precedes, and the rest. -/
def splitUnescaped (quote before : Char) : List Char → Option (List Char × List Char)
  | [] => none
  | c :: rest =>
    if c == quote && before != '\\' then some ([], rest)
    else (splitUnescaped quote c rest).map fun (content, tail) => (c :: content, tail)

/-- The content up to the last quote, and the rest. -/
def splitLast (quote : Char) (s : List Char) : Option (List Char × List Char) :=
  match s.reverse.span (· != quote) with
  | (_, []) => none
  | (tail, _ :: content) => some (content.reverse, tail.reverse)

/-- The content of quotes after the opening one, and the rest. A quote after a backslash closes only
    if no other does. -/
def splitQuoted (quote : Char) (s : List Char) : Option (List Char × List Char) :=
  splitUnescaped quote quote s <|> splitLast quote s

/-- What a backslash and a letter stand for between double quotes. -/
def escaped? (c : Char) : Option Char :=
  match c with
  | '\\' => some '\\'
  | '\'' => some '\''
  | '"' => some '"'
  | 'a' => some '\x07'
  | 'b' => some '\x08'
  | 'f' => some '\x0c'
  | 'n' => some '\n'
  | 'r' => some '\r'
  | 't' => some '\t'
  | 'v' => some '\x0b'
  | _ => none

/-- What a backslash and a character stand for between apostrophes. -/
def escapedPlain? (c : Char) : Option Char := if c == '\\' || c == '\'' then some c else none

/-- A content with its escapes resolved. -/
def unescape (escape? : Char → Option Char) : List Char → List Char
  | '\\' :: c :: rest =>
    match escape? c with
    | some d => d :: unescape escape? rest
    | none => '\\' :: unescape escape? (c :: rest)
  | c :: rest => c :: unescape escape? rest
  | [] => []
termination_by s => s.length

/-- A bare value: what stands before a gap with a comment after it. -/
def bareValue : List Char → List Char
  | [] => []
  | c :: rest =>
    if isBlank c && (rest.dropWhile isBlank).head? == some '#' then [] else c :: bareValue rest

/-- A key at the start of a binding: none before a comment. -/
def readKey (s : List Char) : Option (Option String × List Char) :=
  match s with
  | '#' :: _ => some (none, s)
  | '\'' :: rest =>
    match rest.span (· != '\'') with
    | (key, _ :: tail) => if key.isEmpty then none else some (some (String.ofList key), tail)
    | _ => none
  | _ =>
    let (key, tail) := s.span fun c => !(c == '=' || c == '#' || isBlank c)
    if key.isEmpty then none else some (some (String.ofList key), tail)

/-- A value after the equals sign and a gap. A comment may follow the gap at once. -/
def readValue (gap s : List Char) : Option (String × List Char) :=
  match s with
  | '\'' :: rest => (splitQuoted '\'' rest).map fun (v, tail) => (String.ofList (unescape escapedPlain? v), tail)
  | '"' :: rest => (splitQuoted '"' rest).map fun (v, tail) => (String.ofList (unescape escaped? v), tail)
  | _ =>
    let (line, tail) := s.span fun c => !isEnd c
    some (String.ofList (Text.trim (bareValue (gap ++ line))), tail)

/-- A binding of a name, which may have no value. -/
abbrev Binding := String × Option String

/-- What a binding leaves of the text when it fits, or the place where it stops fitting. -/
inductive Outcome where
  | bound (binding : Option Binding) (rest : List Char)
  | unfit (rest : List Char)

/-- The end of a binding: a gap, a comment, the end of the line. -/
def finish (key : Option String) (value : Option String) (s : List Char) : Outcome :=
  let t := s.dropWhile isGap
  let t := if t.head? == some '#' then t.dropWhile fun c => !isEnd c else t
  match t with
  | [] => .bound (key.map fun k => (k, value)) []
  | c :: _ => if isEnd c then .bound (key.map fun k => (k, value)) (afterEnd t) else .unfit s

/-- Reads a binding. -/
def readBinding (s : List Char) : Outcome :=
  match s.dropWhile isBlank with
  | [] => .bound none []
  | s =>
    let s := skipExport s
    match readKey s with
    | none => .unfit s
    | some (key, rest) =>
      match rest.dropWhile isGap with
      | '=' :: tail =>
        let (gap, tail) := tail.span isGap
        match readValue gap tail with
        | none => .unfit tail
        | some (value, rest) => finish key (some value) rest
      | rest => finish key none rest

/-- Reads all bindings of a text, at most `fuel` of them. -/
def readAll (fuel : Nat) (s : List Char) : List Binding :=
  match fuel, s with
  | 0, _ => []
  | _, [] => []
  | fuel + 1, s =>
    match readBinding s with
    | .bound b rest => b.toList ++ readAll fuel rest
    | .unfit rest => readAll fuel (afterLine rest)

/-- Reads the bindings of a text. Every binding takes at least one character. -/
def read (s : List Char) : List Binding :=
  let s := if s.head? == some '\ufeff' then s.drop 1 else s
  readAll s.length s

/-- A reference after its dollar sign: the name, what stands in for it, and the rest. -/
def readReference (s : List Char) : Option (String × String × List Char) :=
  match s with
  | '\x7b' :: rest =>
    let (name, tail) := rest.span fun c => !(c == '\x7d' || c == ':')
    match tail with
    | '\x7d' :: tail => some (String.ofList name, "", tail)
    | ':' :: '-' :: tail =>
      match tail.span (· != '\x7d') with
      | (other, _ :: tail) => some (String.ofList name, String.ofList other, tail)
      | _ => none
    | _ => none
  | _ => none

/-- A value with its references resolved by `get?`, at most `fuel` pieces of it. -/
def resolve (get? : String → Option String) (fuel : Nat) (s : List Char) : List Char :=
  match fuel, s with
  | 0, _ => []
  | _, [] => []
  | fuel + 1, c :: rest =>
    match (if c == '$' then readReference rest else none) with
    | some (name, other, tail) => ((get? name).getD other).toList ++ resolve get? fuel tail
    | none => c :: resolve get? fuel rest

/-- What a name stands for: its value in the environment, or else the one bound before. A name bound
    without a value stands for nothing. -/
def meaning (env : Data.Table String) (before : Data.Table (Option String)) (name : String) :
    Option String :=
  match env.get? name with
  | some v => some v
  | none => (before.get? name).map fun v => v.getD ""

/-- The values of bindings, references resolved in order: a reference to a name that is bound again later
    sees the value bound so far. -/
def values (env : Data.Table String) (bindings : List Binding) : Data.Table (Option String) :=
  bindings.foldl (fun done (name, v) =>
    done.put name (v.map fun v =>
      String.ofList (resolve (meaning env done) v.length v.toList))) []

/-- Adds the bindings that have a value to an environment; a name that is bound keeps its value. A name
    that no environment can hold ends the addition. -/
def addAll (env : Data.Table String) : List (String × Option String) → Data.Table String × Option Fault
  | [] => (env, none)
  | (_, none) :: rest => addAll env rest
  | (name, some v) :: rest =>
    if (env.get? name).isSome then addAll env rest
    else if name.contains '\x00' || v.contains '\x00' then (env, some ⟨.value, "embedded null byte"⟩)
    else if name.contains '=' then (env, some ⟨.value, "illegal environment variable name"⟩)
    else addAll (env.put name v) rest

/-- Adds the bindings of an environment file to an environment. -/
def load (env : Data.Table String) (text : List Char) : Data.Table String × Option Fault :=
  addAll env (values env (read text))

end Teletype.Settings.EnvFile
