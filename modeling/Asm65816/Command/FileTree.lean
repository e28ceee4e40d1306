/-!
# Files by path

The input of the command is looked up by its path. `Entry` is what may stand there, and a `FileTree`
is a working directory with files and directories below it, in which a path is followed step by
step. A path may lead out of the working directory, upwards or because it is absolute; out there are
directories, and nothing is known by name.
-/

namespace Asm65816.Command

/-- What stands at a path. -/
inductive Entry where
  | file (content : List UInt8)
  | directory
  /-- A file that may not be read. -/
  | unreadable
  deriving DecidableEq, Repr

/-- The names of a path, from the first one down. -/
def steps (path : List Char) : List (List Char) := path.splitOn '/'

/-- Whether a step of a path stays in place. -/
def staysInPlace (name : List Char) : Bool := name = [] || name = ['.']

/-- A path without steps that stay in place. It remains absolute if it was; two
slashes in front, and no more, both count. -/
def normalPath (path : String) : String :=
  let chars := path.toList
  let names := (steps chars).filter (!staysInPlace ·)
  let root := match (chars.takeWhile (· = '/')).length with
    | 0 => []
    | 2 => ['/', '/']
    | _ => ['/']
  match root ++ ['/'].intercalate names with
  | [] => "."
  | chars => String.ofList chars

/-- The files and the directories below a working directory, each by the names that lead to it. -/
structure FileTree where
  entries : List (List (List Char) × Entry)

/-- Where a path has led so far. -/
inductive Place where
  /-- Below the working directory, or there, by the names that lead to it. -/
  | inside (names : List (List Char))
  /-- In some directory outside the working directory. -/
  | outside
  deriving DecidableEq, Repr

/-- The place of the directory that holds a directory. -/
def Place.parent : Place → Place
  | inside [] | outside => outside
  | inside names => inside names.dropLast

/-- The place of a name in a directory. Outside no name is known. -/
def Place.child? (name : List Char) : Place → Option Place
  | inside names => some (inside (names ++ [name]))
  | outside => none

namespace FileTree

/-- A tree of files and directories given by their paths. -/
def ofPaths (paths : List (String × Entry)) : FileTree :=
  ⟨paths.map fun (path, entry) => ((steps path.toList).filter (!staysInPlace ·), entry)⟩

/-- What stands at a place. The working directory and whatever has something below it is a
directory, and so is what can be reached outside. -/
def entry? (tree : FileTree) : Place → Option Entry
  | .outside | .inside [] => some .directory
  | .inside names =>
    match tree.entries.lookup names with
    | some entry => some entry
    | none => if tree.entries.any (names.isPrefixOf ·.1) then some .directory else none

/-- Follows the steps of a path from a place. Only a directory can be left through a step, also one
that stays in place. -/
def follow (tree : FileTree) (place : Place) : List (List Char) → Option Entry
  | [] => tree.entry? place
  | name :: rest =>
    if tree.entry? place = some .directory then
      if staysInPlace name then tree.follow place rest
      else if name = ['.', '.'] then tree.follow place.parent rest
      else match place.child? name with
        | some child => tree.follow child rest
        | none => none
    else none

/-- What stands at a path. An absolute path starts outside, the empty path leads nowhere. -/
def lookup (tree : FileTree) (path : String) : Option Entry :=
  match path.toList with
  | [] => none
  | '/' :: rest => tree.follow .outside (steps rest)
  | chars => tree.follow (.inside []) (steps chars)

end FileTree

end Asm65816.Command
