import StatefulPipeline.Toml.Node
import StatefulPipeline.Toml.Number

/-! Reading TOML 1.0 texts: values, keys, lines and whole documents. -/

namespace StatefulPipeline
namespace Toml

/-- Arrays and inline tables may be nested this deep, and a key may have this many parts, less
one. -/
def depthLimit : Nat := 80

def isBareKeyChar (c : Char) : Bool := c.isAlphanum || c = '-' || c = '_'

def keyPart : Reader String := fun cs =>
  match cs.takeWhile isBareKeyChar with
  | [] => (quotedLine cs).map fun r => (String.ofList r.1, r.2)
  | part => some (String.ofList part, cs.dropWhile isBareKeyChar)

/-- The parts of a dotted key, `count` of them at most. -/
def keyParts : (count : Nat) → Reader (List String)
  | 0, _ => none
  | count + 1, cs =>
    match keyPart (skipBlanks cs) with
    | none => none
    | some (part, rest) =>
      match mark '.' (skipBlanks rest) with
      | none => some ([part], skipBlanks rest)
      | some rest' =>
        match keyParts count rest' with
        | none => none
        | some (parts, rest'') => some (part :: parts, rest'')

def key : Reader (List String) := keyParts (depthLimit - 1)

def pair (value : Reader Node) : Reader (List String × Node) := fun cs =>
  match key cs with
  | none => none
  | some (path, rest) =>
    match mark '=' rest with
    | none => none
    | some rest' =>
      match value (skipBlanks rest') with
      | none => none
      | some (node, rest'') => some ((path, node), rest'')

/-- The values of an array and its closing bracket; a comma may follow the last value. -/
def items (value : Reader Node) : (fuel : Nat) → Reader (List Node)
  | 0, _ => none
  | fuel + 1, cs =>
    match mark ']' (skipSpace false cs) with
    | some rest => some ([], rest)
    | none =>
      match value (skipSpace false cs) with
      | none => none
      | some (node, rest) =>
        match mark ']' (skipSpace false rest) with
        | some rest' => some ([node], rest')
        | none =>
          match mark ',' (skipSpace false rest) with
          | none => none
          | some rest' =>
            match items value fuel rest' with
            | none => none
            | some (nodes, rest'') => some (node :: nodes, rest'')

def inlinePairs (value : Reader Node) : (fuel : Nat) → Reader (List (List String × Node))
  | 0, _ => none
  | fuel + 1, cs =>
    match pair value cs with
    | none => none
    | some (p, rest) =>
      match mark '\x7d' (skipBlanks rest) with
      | some rest' => some ([p], rest')
      | none =>
        match mark ',' (skipBlanks rest) with
        | none => none
        | some rest' =>
          match inlinePairs value fuel rest' with
          | none => none
          | some (ps, rest'') => some (p :: ps, rest'')

def inlineTable (value : Reader Node) : Reader Node := fun cs =>
  match mark '\x7d' (skipBlanks cs) with
  | some rest => some (.table .inline [], rest)
  | none =>
    match inlinePairs value (cs.length + 1) cs with
    | none => none
    | some (ps, rest) => (setPaths ps []).map fun es => (.table .inline es, rest)

def scalar : Reader Node := fun cs =>
  match quoted cs with
  | some (s, rest) => some (.text (String.ofList s), rest)
  | none =>
    match word? "true".toList cs with
    | some rest => some (.boolean true, rest)
    | none =>
      match word? "false".toList cs with
      | some rest => some (.boolean false, rest)
      | none =>
        match moment cs with
        | some (_, rest) => some (.moment, rest)
        | none =>
          match float cs with
          | some (_, rest) => some (.float, rest)
          | none => (integer cs).map fun r => (.integer r.1, r.2)

/-- A value, with arrays and inline tables nested `depth` deep at most. -/
def value : (depth : Nat) → Reader Node
  | 0, cs => scalar cs
  | depth + 1, cs =>
    match mark '[' cs with
    | some rest => (items (value depth) (rest.length + 1) rest).map fun r => (.array r.1, r.2)
    | none =>
      match mark '\x7b' cs with
      | some rest => inlineTable (value depth) rest
      | none => scalar cs

def header : Reader Line := fun cs =>
  match word? "[[".toList cs with
  | some rest =>
    match key rest with
    | none => none
    | some (path, rest') =>
      (word? "]]".toList rest').map fun rest'' => (.header .element path, rest'')
  | none =>
    match mark '[' cs with
    | none => none
    | some rest =>
      match key rest with
      | none => none
      | some (path, rest') => (mark ']' rest').map fun rest'' => (.header .table path, rest'')

def line : Reader Line := fun cs =>
  match header cs with
  | some found => some found
  | none => (pair (value (depthLimit - 1)) cs).map fun r => (.pair r.1.1 r.1.2, r.2)

/-- The lines of a text; empty lines and comments say nothing. -/
def linesFrom : (fuel : Nat) → List Char → Option (List Line)
  | 0, _ => none
  | fuel + 1, cs =>
    match skipBlanks cs with
    | [] => some []
    | c :: rest =>
      match endLine (c :: rest) with
      | some rest' => linesFrom fuel rest'
      | none =>
        match line (c :: rest) with
        | none => none
        | some (l, rest') =>
          match endLine rest' with
          | none => none
          | some rest'' =>
            match linesFrom fuel rest'' with
            | none => none
            | some ls => some (l :: ls)

/-- A byte order mark at the start is passed over. -/
def dropByteOrderMark : List Char → List Char
  | [] => []
  | c :: cs => if c = '\ufeff' then cs else c :: cs

def lines (cs : List Char) : Option (List Line) :=
  linesFrom ((dropByteOrderMark cs).length + 1) (dropByteOrderMark cs)

/-- The tree of a document, if the text is one. -/
def document (text : String) : Option Entries :=
  match lines text.toList with
  | none => none
  | some ls => assemble ls

end Toml
end StatefulPipeline
