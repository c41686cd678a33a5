import FacetedSearch.Text.Affix

/-!
# Directories

The files that a run may read, as a value. A path leads from folder to folder and ends at a file; it never leaves
the directory.
-/

namespace FacetedSearch.CommandLine

structure Directory where
  /-- The content of each file, by the names that lead to it. -/
  files : List (List String × String) := []

namespace Directory

/-- The directory that holds the given files, each with its path. -/
def ofFiles (files : List (String × String)) : Directory :=
  ⟨files.map fun (path, content) => ((Text.pieces '/' path).filter fun step => step != "" && step != ".", content)⟩

/-- A folder is there if a file lies below it. -/
def hasFolder (d : Directory) (folder : List String) : Bool :=
  d.files.any fun file => folder.isPrefixOf file.1 && folder != file.1

/-- The folder to which a step leads: an empty step or a dot stays, two dots go back, a name goes on. -/
def enter? (d : Directory) (folder : List String) : String → Option (List String)
  | "" | "." => some folder
  | ".." => if folder.isEmpty then none else some folder.dropLast
  | name => if d.hasFolder (folder ++ [name]) then some (folder ++ [name]) else none

def content? (d : Directory) (path : String) : Option String := do
  guard (Text.after? "/" path).isNone
  let steps := Text.pieces '/' path
  let folder ← steps.dropLast.foldlM d.enter? []
  let name ← steps.getLast?
  let file ← d.files.find? (·.1 == folder ++ [name])
  return file.2

end Directory

end FacetedSearch.CommandLine
