import GrammarText.File

/-!
# A folder to read from

A folder is a set of files and directories under relative paths, held as a value.  Reading a path in it follows the parts
of the path between slashes one by one, the way a file system does: an empty part and a dot stay where they are, two
dots go up, and any other part goes down.

* `Folder.ofList` makes a folder of its entries; the directories on the way to an entry are there as well;
* `Folder.contents` reads the file at a path, or says why there is none to read.

What lies above the folder is a directory about which nothing else is known.
-/

namespace GrammarText.CommandLine

/-- What a path in a folder leads to. -/
inductive Node where
  | file (bytes : ByteArray)
  | directory

/-- Files and directories under the parts of their paths. -/
structure Folder where
  entries : List (List String × Node)

/-- The parts of a path between its slashes. -/
def pathParts (path : String) : List String :=
  (path.toList.splitOn '/').map String.ofList

namespace Folder

/-- The folder with these files and directories. -/
def ofList (entries : List (String × Node)) : Folder :=
  ⟨entries.map fun e => (pathParts e.1, e.2)⟩

/-- What stands at a place below the folder, if anything does. -/
def node? (folder : Folder) (place : List String) : Option Node :=
  match folder.entries.lookup place with
  | some n => some n
  | none => if folder.entries.any fun e => place.isPrefixOf e.1 then some .directory else none

/-- Follows the parts of a path from a directory, which is above the folder if it is `none`. -/
def follow (folder : Folder) : Option (List String) → List String → Except ReadFailure ByteArray
  | _, [] => .error .isDirectory
  | place, "" :: rest => folder.follow place rest
  | place, "." :: rest => folder.follow place rest
  | none, ".." :: rest => folder.follow none rest
  | some [], ".." :: rest => folder.follow none rest
  | some place, ".." :: rest => folder.follow (some place.dropLast) rest
  | none, _ :: _ => .error .missing
  | some place, part :: rest =>
    match folder.node? (place ++ [part]) with
    | none => .error .missing
    | some .directory => folder.follow (some (place ++ [part])) rest
    | some (.file bytes) => if rest = [] then .ok bytes else .error .notDirectory

/-- What reading the file at a path gives; a path that starts with a slash starts above the folder. -/
def contents (folder : Folder) (path : String) : Except ReadFailure ByteArray :=
  folder.follow (if path.toList.head? = some '/' then none else some []) (pathParts path)

end Folder

end GrammarText.CommandLine
