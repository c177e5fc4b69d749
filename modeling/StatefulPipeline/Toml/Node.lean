/-! The tree that a TOML text describes, and the rules by which its lines grow it: a key is set
once, a table is opened by one header, and dotted keys extend only tables that dotted keys made. -/

namespace StatefulPipeline
namespace Toml

/-- How a table came about: by its own header, by the header of a table inside it, by a dotted key,
or written in one line. -/
inductive TableKind where
  | header
  | implied
  | dotted
  | inline
deriving DecidableEq, Repr

inductive Node where
  | text (value : String)
  | integer (value : Int)
  | boolean (value : Bool)
  | float
  | moment
  | array (items : List Node)
  | table (kind : TableKind) (entries : List (String × Node))
  | tables (elements : List (List (String × Node)))

abbrev Entries := List (String × Node)

namespace Entries

def get? (key : String) : Entries → Option Node
  | [] => none
  | e :: es => if e.1 = key then some e.2 else get? key es

/-- Sets a key: in place if it is there, and at the end otherwise. -/
def set (key : String) (value : Node) : Entries → Entries
  | [] => [(key, value)]
  | e :: es => if e.1 = key then (key, value) :: es else e :: set key value es

end Entries

def updateLast {α : Type} (f : α → Option α) : List α → Option (List α)
  | [] => none
  | [a] => (f a).map fun b => [b]
  | a :: b :: bs => (updateLast f (b :: bs)).map fun cs => a :: cs

/-- Changes the entries at the end of a path. Tables that the path lacks are made on the way, of
kind `made`. The path may not lead into a value or a table in one line; if `made` is `dotted`, it
may not lead into a table with a header either. Of an array of tables it takes the last. -/
def descend (made : TableKind) (change : TableKind → Entries → Option Entries)
    (kind : TableKind) : (path : List String) → Entries → Option Entries
  | [], es => change kind es
  | key :: path, es =>
    match Entries.get? key es with
    | none =>
      (descend made change made path []).map fun sub => Entries.set key (.table made sub) es
    | some (.table kind' sub) =>
      if kind' = .inline ∨ (made = .dotted ∧ kind' = .header) then none
      else
        (descend made change kind' path sub).map fun sub' =>
          Entries.set key (.table kind' sub') es
    | some (.tables elements) =>
      (updateLast (descend made change .header path) elements).map fun elements' =>
        Entries.set key (.tables elements') es
    | some _ => none

def setNew (key : String) (value : Node) (es : Entries) : Option Entries :=
  match Entries.get? key es with
  | none => some (Entries.set key value es)
  | some _ => none

/-- Sets a dotted key; the table it is set in must be the first one, or one that dotted keys
made. -/
def setPath : (path : List String) → Node → Entries → Option Entries
  | [], _, _ => none
  | [key], value, es => setNew key value es
  | key :: path, value, es =>
    descend .dotted
      (fun kind sub =>
        if kind = .dotted then setNew ((key :: path).getLastD key) value sub else none)
      .header (key :: path.dropLast) es

def setPaths : List (List String × Node) → Entries → Option Entries
  | [], es => some es
  | p :: ps, es =>
    match setPath p.1 p.2 es with
    | none => none
    | some es' => setPaths ps es'

/-- What a header opens: a table, or one more element of an array of tables. -/
inductive HeaderKind where
  | table
  | element
deriving DecidableEq, Repr

structure Section where
  kind : HeaderKind
  path : List String
  pairs : List (List String × Node)

/-- Opens a table that has no header yet, or a new element, and sets its keys. -/
def openSection (kind : HeaderKind) (key : String) (pairs : List (List String × Node))
    (es : Entries) : Option Entries :=
  match kind, Entries.get? key es with
  | .table, none => (setPaths pairs []).map fun sub => Entries.set key (.table .header sub) es
  | .table, some (.table .implied sub) =>
    (setPaths pairs sub).map fun sub' => Entries.set key (.table .header sub') es
  | .element, none => (setPaths pairs []).map fun sub => Entries.set key (.tables [sub]) es
  | .element, some (.tables elements) =>
    (setPaths pairs []).map fun sub => Entries.set key (.tables (elements ++ [sub])) es
  | _, some _ => none

def addSection (root : Entries) (s : Section) : Option Entries :=
  match s.path.getLast? with
  | none => none
  | some key =>
    descend .implied (fun _ es => openSection s.kind key s.pairs es) .header s.path.dropLast root

def addSections : List Section → Entries → Option Entries
  | [], root => some root
  | s :: ss, root =>
    match addSection root s with
    | none => none
    | some root' => addSections ss root'

inductive Line where
  | pair (path : List String) (value : Node)
  | header (kind : HeaderKind) (path : List String)

/-- The pairs before the first header, and a section for each header. -/
def sections : List Line → List (List String × Node) × List Section
  | [] => ([], [])
  | .pair path value :: ls =>
    let (pairs, ss) := sections ls
    ((path, value) :: pairs, ss)
  | .header kind path :: ls =>
    let (pairs, ss) := sections ls
    ([], ⟨kind, path, pairs⟩ :: ss)

def assemble (ls : List Line) : Option Entries :=
  match sections ls with
  | (pairs, ss) =>
    match setPaths pairs [] with
    | none => none
    | some root => addSections ss root

end Toml
end StatefulPipeline
