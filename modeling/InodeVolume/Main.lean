import InodeVolume.Packer.Folder

/-!
# The packer's command line

Reads the files that are named, runs the packer, and writes the image and what
it printed.
-/

namespace InodeVolume

namespace Packer

def hostError : IO.Error → HostError
  | .noFileOrDirectory .. => .notFound
  | .invalidArgument .. => .nameTooLong
  | .resourceExhausted .. => .fileTooLarge
  | .inappropriateType _ 20 _ => .notDirectory
  | _ => .isDirectory

def hostFile (path : String) : IO (Except HostError SparseFile) := do
  try
    return .ok (.ofBytes (← IO.FS.readBinFile path).toList)
  catch e => return .error (hostError e)

def emptyFile (path : String) : IO (Except HostError Unit) := do
  try
    return .ok (← IO.FS.writeBinFile path .empty)
  catch e => return .error (hostError e)

def report (failure : Option Failure) : IO UInt32 := do
  match failure with
  | none => return 0
  | some e =>
    IO.eprintln (e.message.getD "the packer stopped")
    return e.exitCode.toUInt32

def packHost (image : String) (size reserved : Nat) (paths : List String) : IO UInt32 := do
  let target ← if refuses size reserved then pure (.ok ()) else emptyFile image
  let sources ← paths.mapM fun path => do
    if path = image then return (path, .ok Source.image)
    return (path, (← hostFile path).map Source.file)
  let packed := pack image target size reserved sources []
  packed.lines.forM IO.println
  if let some f := packed.image then
    IO.FS.writeBinFile image f.toByteArray
  report packed.failure

def catHost (image : String) (home : Sector) : IO UInt32 := do
  let disk : Except HostError ImageDisk := match ← hostFile image with
    | .ok content => .ok (.ofFile content)
    | .error .isDirectory => .ok .ofFolder
    | .error e => .error e
  match disk with
  | .error e => report (some (.host e))
  | .ok disk =>
    match (cat disk home).1 with
    | .error e => report (some e)
    | .ok data =>
      (← IO.getStdout).write (ByteArray.mk data.toArray)
      return 0

end Packer

end InodeVolume

def main (args : List String) : IO UInt32 := do
  match InodeVolume.Packer.Invocation.parse args with
  | none => InodeVolume.Packer.report (some .usage)
  | some ⟨image, .pack size reserved paths⟩ =>
    InodeVolume.Packer.packHost image size reserved paths
  | some ⟨image, .cat home⟩ => InodeVolume.Packer.catHost image home
