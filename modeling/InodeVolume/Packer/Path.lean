/-!
# Paths

A path is cut at its slashes into parts. Before its first name it may take
detours, which stay among folders.
-/

namespace InodeVolume

namespace Packer

namespace Path

/-- The most bytes of a path. -/
def maxLength : Nat := 4095

def maxNameLength : Nat := 255

def isTooLong (path : String) : Bool := maxLength < path.utf8ByteSize

def isNameTooLong (name : String) : Bool := maxNameLength < name.utf8ByteSize

def parts (path : String) : List String := path.splitOn "/"

/-- A part that leads from a folder to a folder. -/
def isDetour (part : String) : Bool := part == "" || part == "." || part == ".."

def names (path : String) : List String := (parts path).dropWhile isDetour

/-- The first name belongs to another folder than the one where the path is used. -/
def leavesFolder (path : String) : Bool :=
  path.startsWith "/" || ((parts path).takeWhile isDetour).contains ".."

/-- Slashes and nothing else follow the first name, so it must be that of a folder. -/
def asksForFolder (path : String) : Bool :=
  match names path with
  | _ :: part :: rest => (part :: rest).all (· == "")
  | _ => false

end Path

end Packer

end InodeVolume
