import ArmControl.Host.Error

/-!
# The files of a host

A host keeps its files in a tree of directories.  A path names a place in the tree: it is walked name by
name (`Node.walk`), from the root if it begins with a slash and otherwise from the directory in which the
client runs.  `Node.read` is the `File` that a path leads to.

`Node.common` is a tree with no more than what every host has.
-/

namespace ArmControl

/-- What reading at a path gives. -/
inductive File
  | contents (bytes : ByteArray)
  /-- No file, and why. -/
  | unreadable (reason : String)
deriving Inhabited

/-- What stands at a place in the tree. -/
inductive Node
  | file (contents : String)
  | directory (entries : List (String × Node))
deriving Inhabited

namespace Node

/-- The longest name, in bytes. -/
def maxName : Nat := 255

/-- The longest path, in bytes. -/
def maxPath : Nat := 4095

def find? (name : String) : List (String × Node) → Option Node
  | [] => none
  | (other, node) :: rest => if other = name then some node else find? name rest

/-- Walks some names on from a node; `above` are the directories on the way to it, the nearest first.
An empty name and a dot stay, two dots go up, and nobody goes up from the root. -/
def walk : List Node → Node → List String → Except HostError Node
  | _, node, [] => .ok node
  | _, file _, _ :: _ => .error .notDirectory
  | above, directory entries, name :: names =>
    if name = "" ∨ name = "." then walk above (directory entries) names
    else if name = ".." then
      match above with
      | [] => walk [] (directory entries) names
      | parent :: above => walk above parent names
    else if maxName < name.utf8ByteSize then .error .nameTooLong
    else
      match find? name entries with
      | some node => walk (directory entries :: above) node names
      | none => .error .noSuchFile

/-- The place that a path leads to.  The client runs in a directory of the root that has nothing in it. -/
def lookUp (root : Node) (path : String) : Except HostError Node :=
  if path = "" then .error .noSuchFile
  else if maxPath < path.utf8ByteSize then .error .nameTooLong
  else if path.startsWith "/" then walk [] root (path.splitOn "/")
  else walk [root] (directory []) (path.splitOn "/")

/-- Reads what a path leads to. -/
def read (root : Node) (path : String) : File :=
  if path.toList.contains '\x00' then .unreadable nulMessage
  else
    match root.lookUp path with
    | .ok (file contents) => .contents contents.toUTF8
    | .ok (directory _) => .unreadable HostError.isDirectory.message
    | .error err => .unreadable err.message

/-- The places that every host has. -/
def common : Node :=
  let empty := directory []
  directory [
    ("bin", empty), ("boot", empty),
    ("dev", directory [("fd", empty), ("null", file ""), ("pts", empty), ("shm", empty)]),
    ("etc", directory [
      ("group", file "root:x:0:\n"), ("hostname", file "localhost\n"),
      ("hosts", file "127.0.0.1\tlocalhost\n"), ("passwd", file "root:x:0:0:root:/root:/bin/sh\n"),
      ("ssl", empty)]),
    ("home", empty), ("lib", empty), ("lib64", empty), ("media", empty), ("mnt", empty),
    ("opt", empty), ("proc", directory [("self", empty), ("sys", empty)]), ("root", empty),
    ("run", empty), ("sbin", empty), ("srv", empty), ("sys", empty), ("tmp", empty),
    ("usr", directory [
      ("bin", empty), ("include", empty), ("lib", empty), ("local", directory [("bin", empty)]),
      ("sbin", empty), ("share", empty)]),
    ("var", directory [
      ("cache", empty), ("lib", empty), ("log", empty), ("run", empty), ("spool", empty),
      ("tmp", empty)])]

end Node
end ArmControl
