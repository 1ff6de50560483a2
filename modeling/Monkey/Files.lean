import Monkey.Path
import Monkey.Text.Fields

/-!
# Files

What a program sees of files: under each path a file, a directory, something that cannot be opened,
or a reason why there is nothing. A tree of files gives such a view, where a path is followed
component by component; a path may leave the tree upwards, but of what stands beside the tree
nothing is known.
-/

namespace Monkey

/-- Why a file cannot be read. -/
inductive FileError where
  | notFound
  | notADirectory
  | isADirectory
  | nameTooLong
  /-- The path has a character that no path can have. -/
  | nulCharacter
  | notText
  /-- Anything else, such as a missing permission, in the words of the system. -/
  | other (text : String)
deriving DecidableEq, Repr

/-- The words for an error. -/
def FileError.message : FileError → String
  | .notFound => "No such file or directory (os error 2)"
  | .notADirectory => "Not a directory (os error 20)"
  | .isADirectory => "Is a directory (os error 21)"
  | .nameTooLong => "File name too long (os error 36)"
  | .nulCharacter => "file name contained an unexpected NUL byte"
  | .notText => "stream did not contain valid UTF-8"
  | .other text => text

/-- What stands under a path. -/
inductive FileNode where
  | directory
  | file (content : ByteArray)
  /-- Something that is there and cannot be opened. -/
  | unreadable (error : FileError)

/-- What can be opened under each path. -/
structure Files where
  lookup : Path → Except FileError FileNode

namespace Files

/-- Whether something stands under a path. -/
def exists? (files : Files) (p : Path) : Bool :=
  match files.lookup p with
  | .ok _ => true
  | .error _ => false

/-- The text of a file. -/
def read (files : Files) (p : Path) : Except FileError String :=
  match files.lookup p with
  | .error e => .error e
  | .ok .directory => .error .isADirectory
  | .ok (.unreadable e) => .error e
  | .ok (.file content) =>
    match String.fromUTF8? content with
    | some text => .ok text
    | none => .error .notText

end Files

/-- Files and directories below the current directory, each under its components. A directory above
an entry need not be an entry itself. -/
structure FileTree where
  entries : List (List String × FileNode)

namespace FileTree

/-- The components of a relative path, without those that name nothing. -/
def components (path : String) : List String :=
  (Text.fields '/' path).filter fun c => c != "" && c != "."

/-- The tree with the given entries; the later of two under one path counts. -/
def ofList (entries : List (String × FileNode)) : FileTree :=
  ⟨(entries.map fun (path, node) => (components path, node)).reverse⟩

/-- What stands at a place in the tree. -/
def node? (t : FileTree) (place : List String) : Option FileNode :=
  match t.entries.lookup place with
  | some node => some node
  | none =>
    if place = [] ∨ t.entries.any fun e => place.isPrefixOf e.1 then some .directory else none

/-- Whether a component stays on the way from the tree up to the root. -/
def isUpward (c : String) : Bool := c == "" || c == "." || c == ".."

/-- What is said of a name under which nothing stands: a name has up to 255 bytes. -/
def missing (name : String) : FileError :=
  if 255 < name.utf8ByteSize then .nameTooLong else .notFound

/-- Follows components from a place above the tree, or from the root. Only the way up is known
there, and all on it are directories. -/
def followOutside (cs : List String) : Except FileError FileNode :=
  match cs.find? fun c => !isUpward c with
  | none => .ok .directory
  | some name => .error (missing name)

/-- Follows components from a directory in the tree. -/
def follow (t : FileTree) (place : List String) : List String → Except FileError FileNode
  | [] => .ok .directory
  | c :: others =>
    if c = "" ∨ c = "." then t.follow place others
    else if c = ".." then
      if place = [] then followOutside others else t.follow place.dropLast others
    else
      match t.node? (place ++ [c]) with
      | none => .error (missing c)
      | some .directory => t.follow (place ++ [c]) others
      | some leaf => if others.isEmpty then .ok leaf else .error .notADirectory

/-- The view of a program that runs in the tree. A path has less than 4096 bytes. -/
def files (t : FileTree) : Files where
  lookup p :=
    if p.text.isEmpty then .error .notFound
    else if p.text.toList.contains '\x00' then .error .nulCharacter
    else if 4096 ≤ p.text.utf8ByteSize then .error .nameTooLong
    else if p.isAbsolute then followOutside (Text.fields '/' p.text)
    else t.follow [] (Text.fields '/' p.text)

end FileTree

end Monkey
