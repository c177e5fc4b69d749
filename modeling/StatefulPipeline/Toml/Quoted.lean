import StatefulPipeline.Numeral
import StatefulPipeline.Toml.Layout

/-! Quoted texts. There are four forms: on one line or on several, with escapes or literal. A
reader takes what follows the opening mark. A writer takes the first form that shows the text
with the fewest escapes. -/

namespace StatefulPipeline
namespace Toml

def quote : Char := '"'
def apostrophe : Char := '\x27'

/-- Reads pieces of text until the closing mark; `close` reads the mark, with the characters
before it that belong to the text, and `piece` reads one piece. -/
def pieces (close piece : Reader (List Char)) : (fuel : Nat) → Reader (List Char)
  | 0, _ => none
  | fuel + 1, cs =>
    match close cs with
    | some found => some found
    | none =>
      match piece cs with
      | none => none
      | some (s, rest) =>
        match pieces close piece fuel rest with
        | none => none
        | some (t, rest') => some (s ++ t, rest')

/-- Reads pieces to the closing mark; every piece takes a character at least. -/
def upTo (close piece : Reader (List Char)) : Reader (List Char) :=
  fun cs => pieces close piece (cs.length + 1) cs

def closeOne (mark : Char) : Reader (List Char)
  | [] => none
  | c :: cs => if c = mark then some ([], cs) else none

/-- Three closing marks; one or two more before them belong to the text. -/
def closeThree (mark : Char) : Reader (List Char)
  | a :: b :: c :: cs =>
    if a = mark ∧ b = mark ∧ c = mark then
      let extra := (cs.takeWhile fun d => d = mark).take 2
      some (extra, cs.drop extra.length)
    else none
  | _ => none

def hexDigit? (c : Char) : Option Nat :=
  if c.isDigit then some (c.toNat - 48)
  else if 'a'.toNat ≤ c.toNat ∧ c.toNat ≤ 'f'.toNat then some (c.toNat - 87)
  else if 'A'.toNat ≤ c.toNat ∧ c.toNat ≤ 'F'.toNat then some (c.toNat - 55)
  else none

/-- The number that `count` hexadecimal digits at the front of a text spell. -/
def hexDigits : (count : Nat) → (value : Nat) → Reader Nat
  | 0, value, cs => some (value, cs)
  | _ + 1, _, [] => none
  | count + 1, value, c :: cs =>
    match hexDigit? c with
    | none => none
    | some d => hexDigits count (16 * value + d) cs

/-- A character named by its code point in `count` hexadecimal digits. -/
def codePoint (count : Nat) : Reader (List Char) := fun cs =>
  match hexDigits count 0 cs with
  | some (n, rest) => if n.isValidChar then some ([Char.ofNat n], rest) else none
  | none => none

/-- The letters of the short escapes and the characters that they stand for. -/
def shortEscapes : List (Char × Char) :=
  [('b', '\x08'), ('t', '\t'), ('n', '\n'), ('f', '\x0c'), ('r', '\r'), ('"', '"'), ('\\', '\\')]

def escape : Reader (List Char)
  | [] => none
  | c :: cs =>
    match shortEscapes.find? fun e => e.1 = c with
    | some e => some ([e.2], cs)
    | none =>
      if c = 'u' then codePoint 4 cs
      else if c = 'U' then codePoint 8 cs
      else none

/-- A character or an escape of a text on one line. -/
def basicPiece : Reader (List Char)
  | [] => none
  | c :: cs =>
    if c = '\\' then escape cs
    else if isPlain c then some ([c], cs)
    else none

def literalPiece : Reader (List Char)
  | [] => none
  | c :: cs => if isPlain c then some ([c], cs) else none

/-- A line end counts as a line feed. -/
def orLineEnd (piece : Reader (List Char)) : Reader (List Char) := fun cs =>
  match afterLineEnd? cs with
  | some rest => some (['\n'], rest)
  | none => piece cs

/-- A backslash at the end of a line takes the line end and all blanks and line ends after it. -/
def joinedLine? : List Char → Option (List Char)
  | [] => none
  | c :: cs =>
    if c = '\\' then (afterLineEnd? (skipBlanks cs)).map skipLines else none

def basicLinesPiece : Reader (List Char) := fun cs =>
  match joinedLine? cs with
  | some rest => some ([], rest)
  | none => orLineEnd basicPiece cs

/-- A line end right after the opening marks is not part of the text. -/
def dropFirstLineEnd (cs : List Char) : List Char := (afterLineEnd? cs).getD cs

def basic : Reader (List Char) := upTo (closeOne quote) basicPiece
def literal : Reader (List Char) := upTo (closeOne apostrophe) literalPiece

def basicLines (cs : List Char) : Option (List Char × List Char) :=
  upTo (closeThree quote) basicLinesPiece (dropFirstLineEnd cs)

def literalLines (cs : List Char) : Option (List Char × List Char) :=
  upTo (closeThree apostrophe) (orLineEnd literalPiece) (dropFirstLineEnd cs)

def quotedLine : Reader (List Char)
  | [] => none
  | c :: cs =>
    if c = quote then basic cs
    else if c = apostrophe then literal cs
    else none

def afterThree? (mark : Char) : List Char → Option (List Char)
  | a :: b :: c :: cs => if a = mark ∧ b = mark ∧ c = mark then some cs else none
  | _ => none

def quoted : Reader (List Char) := fun cs =>
  match afterThree? quote cs with
  | some rest => basicLines rest
  | none =>
    match afterThree? apostrophe cs with
    | some rest => literalLines rest
    | none => quotedLine cs

/-- The length of the longest run of a mark; `run` marks stand right before the text. -/
def longestRun (mark : Char) (run : Nat) : List Char → Nat
  | [] => run
  | c :: cs =>
    if c = mark then longestRun mark (run + 1) cs else Nat.max run (longestRun mark 0 cs)

/-- Control characters that only an escape can write. -/
def needsEscape (c : Char) : Bool := !isPlain c && c != '\n'

inductive Form where
  | basic
  | literal
  | basicLines
  | literalLines
deriving DecidableEq, Repr

/-- The first form that shows the text as it is, or else a form with escapes. -/
def Form.of (cs : List Char) : Form :=
  let escapes := cs.any needsEscape
  let backslash := decide ('\\' ∈ cs)
  let lines := decide ('\n' ∈ cs)
  let quotes := longestRun quote 0 cs
  let apostrophes := longestRun apostrophe 0 cs
  if !escapes && !backslash && decide (quotes = 0) && !lines then .basic
  else if !escapes && decide (apostrophes = 0) && !lines then .literal
  else if !escapes && !backslash && decide (quotes ≤ 2) then .basicLines
  else if !escapes && decide (apostrophes ≤ 2) then .literalLines
  else if lines then .basicLines
  else .basic

/-- A character inside quotation marks: by a short escape if it has one, and a control character
by its code point. The quotation mark is left to the form. -/
def writeChar (c : Char) : List Char :=
  if c = quote then [c]
  else
    match shortEscapes.find? fun e => e.2 = c with
    | some e => ['\\', e.1]
    | none =>
      if isPlain c then [c]
      else '\\' :: 'u' :: (Numeral.hexPadded 4 c.toNat).map Char.toUpper

def writeBasic : List Char → List Char
  | [] => []
  | c :: cs => if c = quote then '\\' :: quote :: writeBasic cs else writeChar c ++ writeBasic cs

/-- The text of the form with escapes on several lines; every third quotation mark of a run, of
which `run` stand before the text, is escaped. -/
def writeBasicLines (run : Nat) : List Char → List Char
  | [] => []
  | c :: cs =>
    if c = quote then
      if run = 2 then '\\' :: quote :: writeBasicLines 0 cs
      else quote :: writeBasicLines (run + 1) cs
    else if c = '\n' then '\n' :: writeBasicLines 0 cs
    else writeChar c ++ writeBasicLines 0 cs

/-- A line end after the opening marks if the text has several lines. -/
def firstLineEnd (cs : List Char) : List Char := if '\n' ∈ cs then ['\n'] else []

def Form.write (form : Form) (cs : List Char) : List Char :=
  match form with
  | .basic => quote :: (writeBasic cs ++ [quote])
  | .literal => apostrophe :: (cs ++ [apostrophe])
  | .basicLines =>
    List.replicate 3 quote ++ firstLineEnd cs ++ writeBasicLines 0 cs ++ List.replicate 3 quote
  | .literalLines =>
    List.replicate 3 apostrophe ++ firstLineEnd cs ++ cs ++ List.replicate 3 apostrophe

def writeQuoted (cs : List Char) : List Char := (Form.of cs).write cs

end Toml
end StatefulPipeline
