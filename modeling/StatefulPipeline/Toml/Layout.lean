/-! What stands between the values of a TOML text: blanks, line ends and comments. A line ends with
a line feed, which a carriage return may precede; a carriage return has no other place. -/

namespace StatefulPipeline
namespace Toml

/-- A reader takes a value off the front of a text, or refuses the text. -/
abbrev Reader (α : Type) := List Char → Option (α × List Char)

def isBlank (c : Char) : Bool := c = ' ' ∨ c = '\t'

/-- Characters that may stand for themselves in comments and quoted texts: all but the control
characters, and the tab. -/
def isPlain (c : Char) : Bool := c = '\t' ∨ (0x20 ≤ c.toNat ∧ c.toNat ≠ 0x7f)

def skipBlanks (cs : List Char) : List Char := cs.dropWhile isBlank

def afterLineEnd? : List Char → Option (List Char)
  | [] => none
  | c :: cs =>
    if c = '\n' then some cs
    else if c = '\r' then
      match cs with
      | d :: ds => if d = '\n' then some ds else none
      | [] => none
    else none

def skipLines : List Char → List Char
  | [] => []
  | c :: cs =>
    if isBlank c = true ∨ c = '\n' then skipLines cs
    else if c = '\r' ∧ cs.head? = some '\n' then skipLines cs
    else c :: cs

/-- Drops blanks, line ends and comments; `comment` says that the text starts inside one. -/
def skipSpace (comment : Bool) : List Char → List Char
  | [] => []
  | c :: cs =>
    if c = '\n' then skipSpace false cs
    else if c = '\r' ∧ cs.head? = some '\n' then skipSpace comment cs
    else if comment then if isPlain c then skipSpace true cs else c :: cs
    else if isBlank c then skipSpace false cs
    else if c = '#' then skipSpace true cs
    else c :: cs

def skipComment : List Char → List Char
  | [] => []
  | c :: cs => if c = '#' then cs.dropWhile isPlain else c :: cs

/-- The lines after the current one, if only blanks and a comment are left of it. -/
def endLine (cs : List Char) : Option (List Char) :=
  match skipComment (skipBlanks cs) with
  | [] => some []
  | rest => afterLineEnd? rest

end Toml
end StatefulPipeline
