import GreetingService.Files.Failure
import GreetingService.Text.Utf8

/-!
# Volumes

A volume holds files and directories under their paths, and a path is looked up from its top
directory. Reading a file finds its bytes or the reason why there are none.
-/

namespace GreetingService.Files

/-- The bytes of a file. -/
abbrev Content := List UInt8

/-- A way to read files by their paths. -/
abbrev Source := String → Except Failure Content

/-- What a path can lead to. -/
inductive Node where
  | file (content : Content)
  | directory

/-- Nodes with their paths, each path as the list of its parts. -/
abbrev Volume := List (List String × Node)

namespace Volume

/-- The longest part of a path, in bytes. -/
def longestName : Nat := 255

/-- A whole path has to be shorter than this, in bytes. -/
def pathLimit : Nat := 4096

/-- The parts of a path. -/
def parts (path : String) : List String :=
  path.splitOn "/"

/-- The volume with the given nodes under their paths. -/
def ofNodes (nodes : List (String × Node)) : Volume :=
  nodes.map fun (path, node) => ((parts path).filter fun part => part ≠ "" ∧ part ≠ ".", node)

/-- What stands at a list of parts. Every directory that something lies in exists. -/
def node? (v : Volume) (path : List String) : Option Node :=
  match v.lookup path with
  | some node => some node
  | none =>
    if path.isEmpty ∨ v.any fun (other, _) => path.isPrefixOf other then some .directory else none

/-- Follows the parts of a path from the directory `base`. Outside the volume, where `base` is
absent, there are directories above but no names. -/
def follow (v : Volume) : (base : Option (List String)) → List String → Except Failure Node
  | none, [] => .ok .directory
  | none, part :: rest =>
    if part = "" ∨ part = "." ∨ part = ".." then v.follow none rest
    else if longestName < part.utf8ByteSize then .error .nameTooLong
    else .error .notFound
  | some base, [] =>
    match v.node? base with
    | some node => .ok node
    | none => .error .notFound
  | some base, part :: rest =>
    match v.node? base with
    | none => .error .notFound
    | some (.file _) => .error .notADirectory
    | some .directory =>
      if part = "" ∨ part = "." then v.follow (some base) rest
      else if part = ".." then v.follow (if base.isEmpty then none else some base.dropLast) rest
      else if longestName < part.utf8ByteSize then .error .nameTooLong
      else v.follow (some (base ++ [part])) rest

/-- Reads the file at a path. -/
def read (v : Volume) : Source := fun path =>
  if path.contains '\x00' then .error .nulInPath
  else if path.isEmpty then .error .notFound
  else if pathLimit ≤ path.utf8ByteSize then .error .nameTooLong
  else
    let base := if path.startsWith "/" then none else some []
    match v.follow base (parts path) with
    | .error failure => .error failure
    | .ok (.file content) => .ok content
    | .ok .directory => .error .isADirectory

end Volume

/-- Reads a file that has to be a text. -/
def Source.readText (source : Source) (path : String) : Except Failure String := do
  let content ← source path
  match Text.ofBytes? content with
  | some text => .ok text
  | none => .error .notUtf8

/-- The mark of byte order that some writers put in front of a text. -/
def byteOrderMark : Content := [0xEF, 0xBB, 0xBF]

/-- A file without the mark of byte order in front. -/
def withoutMark (content : Content) : Content :=
  if byteOrderMark.isPrefixOf content then content.drop byteOrderMark.length else content

end GreetingService.Files
