/-! A directory that holds plain files only, and what a path names there. -/

namespace StatefulPipeline

abbrev Directory := List (String × ByteArray)

namespace Directory

/-- The name of a file of the directory that a path leads to. Empty parts and single points before
the name stay in the directory; every other part, or a slash in front, leads out of it. -/
def fileName? (path : String) : Option String :=
  let parts := (path.toList.splitOn '/').map String.ofList
  if parts.head? = some "" then none
  else
    match parts.filter fun p => p ≠ "" ∧ p ≠ "." with
    | [name] => if parts.getLast? = some name ∧ name ≠ ".." then some name else none
    | _ => none

def read? (dir : Directory) (path : String) : Option ByteArray :=
  match fileName? path with
  | some name => (dir.find? fun f => f.1 = name).map Prod.snd
  | none => none

end Directory
end StatefulPipeline
