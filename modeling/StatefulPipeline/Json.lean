import StatefulPipeline.Numeral

/-! JSON values and their text over several lines. -/

namespace StatefulPipeline

/-- A value; the members of an object stand in the order in which they are written. -/
inductive Json where
  | null
  | boolean (value : Bool)
  | number (value : Nat)
  | text (value : String)
  | array (items : List Json)
  | object (members : List (String × Json))

namespace Json

def ofOption {α : Type} (f : α → Json) : Option α → Json
  | some a => f a
  | none => .null

/-- A character inside quotation marks. Control characters are escaped, the common ones by a
letter. -/
def writeChar (c : Char) : List Char :=
  if c = '"' then ['\\', '"']
  else if c = '\\' then ['\\', '\\']
  else if c = '\x08' then ['\\', 'b']
  else if c = '\x0c' then ['\\', 'f']
  else if c = '\n' then ['\\', 'n']
  else if c = '\r' then ['\\', 'r']
  else if c = '\t' then ['\\', 't']
  else if c.toNat < 0x20 then '\\' :: 'u' :: Numeral.hexPadded 4 c.toNat
  else [c]

def writeText (s : String) : List Char := '"' :: (s.toList.flatMap writeChar ++ ['"'])

def newLine (level : Nat) : List Char := '\n' :: List.replicate (2 * level) ' '

mutual

def write (level : Nat) : Json → List Char
  | null => "null".toList
  | boolean true => "true".toList
  | boolean false => "false".toList
  | number n => Numeral.decimal n
  | text s => writeText s
  | array [] => "[]".toList
  | array (j :: js) =>
    '[' :: (newLine (level + 1) ++ write (level + 1) j ++ writeItems (level + 1) js ++
      newLine level ++ [']'])
  | object [] => "\x7b\x7d".toList
  | object (m :: ms) =>
    '\x7b' :: (newLine (level + 1) ++ writeMember (level + 1) m ++ writeMembers (level + 1) ms ++
      newLine level ++ ['\x7d'])
termination_by structural j => j

def writeItems (level : Nat) : List Json → List Char
  | [] => []
  | j :: js => ',' :: (newLine level ++ write level j ++ writeItems level js)
termination_by structural js => js

def writeMembers (level : Nat) : List (String × Json) → List Char
  | [] => []
  | m :: ms => ',' :: (newLine level ++ writeMember level m ++ writeMembers level ms)
termination_by structural ms => ms

def writeMember (level : Nat) : String × Json → List Char
  | (name, j) => writeText name ++ ": ".toList ++ write level j
termination_by structural m => m

end

def toText (j : Json) : String := String.ofList (j.write 0)

end Json

end StatefulPipeline
