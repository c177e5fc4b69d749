import StatefulPipeline.Toml.Node
import StatefulPipeline.Toml.Quoted

/-! Writing TOML texts: a list of settings and headers, one to a line, with an empty line before a
header. -/

namespace StatefulPipeline
namespace Toml

/-- A value as it is written. -/
inductive Setting where
  | text (value : String)
  | number (value : Nat)
  | flag (value : Bool)
  | list (values : List String)
deriving DecidableEq, Repr

namespace Setting

/-- A list of two or more texts is written one text to a line. -/
def write : Setting → List Char
  | text s => writeQuoted s.toList
  | number n => Numeral.decimal n
  | flag true => "true".toList
  | flag false => "false".toList
  | list [] => "[]".toList
  | list [s] => '[' :: (writeQuoted s.toList ++ [']'])
  | list ss =>
    "[\n".toList ++ (ss.flatMap fun s => "    ".toList ++ writeQuoted s.toList ++ ",\n".toList) ++
      "]".toList

def node : Setting → Node
  | text s => .text s
  | number n => .integer n
  | flag b => .boolean b
  | list ss => .array (ss.map .text)

end Setting

/-- A line as it is written; keys are bare. -/
inductive Written where
  | setting (key : String) (value : Setting)
  | header (kind : HeaderKind) (path : List String)
deriving DecidableEq, Repr

namespace Written

def isHeader : Written → Bool
  | setting _ _ => false
  | header _ _ => true

def dotted (path : List String) : List Char := (String.intercalate "." path).toList

def write : Written → List Char
  | setting key value => key.toList ++ " = ".toList ++ value.write ++ ['\n']
  | header .table path => '[' :: (dotted path ++ "]\n".toList)
  | header .element path => "[[".toList ++ dotted path ++ "]]\n".toList

def line : Written → Line
  | setting key value => .pair [key] value.node
  | header kind path => .header kind path

def writeRest : List Written → List Char
  | [] => []
  | w :: ws => (if w.isHeader then ['\n'] else []) ++ w.write ++ writeRest ws

def writeAll : List Written → List Char
  | [] => []
  | w :: ws => w.write ++ writeRest ws

end Written

end Toml
end StatefulPipeline
