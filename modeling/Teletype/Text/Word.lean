/-!
# Shell words

A word is typed into a shell as it stands if the shell takes every character of it literally, and
between apostrophes otherwise. An apostrophe inside is written by closing the quotes, quoting it
with double quotes and opening them again.
-/

namespace Teletype.Text.Word

/-- The characters that a shell takes literally outside quotes. -/
def isPlain (c : Char) : Bool :=
  ('a' ≤ c && c ≤ 'z') || ('A' ≤ c && c ≤ 'Z') || ('0' ≤ c && c ≤ '9')
    || "_@%+=:,./-".toList.contains c

/-- One character between apostrophes. -/
def guarded (c : Char) : List Char :=
  if c == '\'' then ['\'', '"', '\'', '"', '\''] else [c]

/-- The spelling of a word in a command line. -/
def spell (s : List Char) : List Char :=
  if s.isEmpty then ['\'', '\'']
  else if s.all isPlain then s
  else '\'' :: s.flatMap guarded ++ ['\'']

/-- The spelling of a word in a command line. -/
def quote (s : String) : String := String.ofList (spell s.toList)

end Teletype.Text.Word
