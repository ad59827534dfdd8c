import LoxCalc.Text.Input

/-!
# The working folder

What the program sees of the place it runs in: files, and folders within folders. A path is
followed part by part from the working folder, keeping the folders passed through so that `..` leads
back. Of what lies outside the working folder only the way up is known.
-/

namespace LoxCalc
namespace CommandLine

/-- Why a script cannot be read. -/
inductive ReadFault where
  | missing
  | isFolder
  | notFolder
  | nameTooLong
  | undecodable (fault : Utf8.Fault)
  /-- A fault of the system, in its words. -/
  | system (reason : String)

/-- A fault in words. -/
def ReadFault.reason : ReadFault → String
  | .missing => "No such file or directory"
  | .isFolder => "Is a directory"
  | .notFolder => "Not a directory"
  | .nameTooLong => "File name too long"
  | .undecodable fault => fault.text
  | .system reason => reason

/-- Something in a folder. -/
inductive Entry where
  | file (bytes : List UInt8)
  | folder (contents : List (String × Entry))

/-- A folder, by names. -/
abbrev Folder := List (String × Entry)

namespace Folder

/-- What the folder of the given name holds; nothing if there is no such folder. -/
def contentsOf (folder : Folder) (name : String) : Folder :=
  match folder.lookup name with
  | some (.folder contents) => contents
  | _ => []

/-- Puts an entry under a name, in place of what was there. -/
def put (folder : Folder) (name : String) (entry : Entry) : Folder :=
  (name, entry) :: folder.filter (·.1 != name)

/-- Makes a folder at a path, with the folders on the way; what is there already stays. -/
def addFolder (folder : Folder) : List String → Folder
  | [] => folder
  | name :: rest => folder.put name (.folder (addFolder (folder.contentsOf name) rest))

/-- Puts a file at a path, with the folders on the way. -/
def addFile (folder : Folder) (bytes : List UInt8) : List String → Folder
  | [] => folder
  | [name] => folder.put name (.file bytes)
  | name :: rest => folder.put name (.folder (addFile (folder.contentsOf name) bytes rest))

/-- The parts of a path between slashes. -/
def parts (path : String) : List String :=
  path.splitOn "/"

/-- Whether a part of a path stays where it is. -/
def staysPut (part : String) : Bool :=
  part == "" || part == "."

/-- The names on the way to a place in the folder. -/
def names (path : String) : List String :=
  (parts path).filter (!staysPut ·)

/-- A place a path leads to. -/
inductive Place where
  /-- A folder, and the folders around it up to the working folder. -/
  | within (folder : Folder) (around : List Folder)
  /-- A folder outside the working folder. -/
  | outside
  | file (bytes : List UInt8)

/-- A name has at most that many bytes. -/
def longestName : Nat := 255

/-- A path has at most that many bytes. -/
def longestPath : Nat := 4095

/-- Goes up from a place. -/
def Place.up : Place → Except ReadFault Place
  | .within _ (folder :: around) => .ok (.within folder around)
  | .within _ [] => .ok .outside
  | .outside => .ok .outside
  | .file _ => .error .notFolder

/-- Goes from a place to what a name means there. -/
def Place.down (name : String) : Place → Except ReadFault Place
  | .within folder around =>
    match folder.lookup name with
    | some (.file bytes) => .ok (.file bytes)
    | some (.folder contents) => .ok (.within contents (folder :: around))
    | none => .error .missing
  | .outside => .error .missing
  | .file _ => .error .notFolder

/-- Goes from a place along one part of a path. Nothing leads on from a file, and a name that is
too long is refused before it is looked up. -/
def Place.enter (place : Place) (part : String) : Except ReadFault Place :=
  match place with
  | .file _ => .error .notFolder
  | _ =>
    if staysPut part then .ok place
    else if part = ".." then place.up
    else if longestName < part.utf8ByteSize then .error .nameTooLong
    else place.down part

/-- Reads the file at a path. -/
def read (folder : Folder) (path : String) : Except ReadFault (List UInt8) :=
  if path.isEmpty then .error .missing
  else if longestPath < path.utf8ByteSize then .error .nameTooLong
  else
    let start : Place := if path.toList.head? = some '/' then .outside else .within folder []
    match (parts path).foldlM Place.enter start with
    | .error fault => .error fault
    | .ok (.file bytes) => .ok bytes
    | .ok _ => .error .isFolder

end Folder
end CommandLine
end LoxCalc
