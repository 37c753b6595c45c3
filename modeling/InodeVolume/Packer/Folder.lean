import InodeVolume.Packer.Arguments
import InodeVolume.Packer.Basic
import InodeVolume.Packer.Path

/-!
# The packer in a folder

Runs a command line in a folder of files. Nothing outside the folder is known,
but for the other folders a path may begin with.
-/

namespace InodeVolume

namespace Packer

structure Folder where
  files : Std.TreeMap String SparseFile := ∅

inductive Place where
  | file (name : String) (content : SparseFile)
  | free (name : String)
  | folder
  | missing
  /-- On through a file, as if it were a folder. -/
  | throughFile
  /-- Nowhere, for its length or that of a name. -/
  | tooLong

namespace Folder

def ofFiles (files : List (String × SparseFile)) : Folder :=
  ⟨files.foldl (fun fs (name, f) => fs.insert name f) ∅⟩

/-- Where a path leads. A name is judged when the path comes to it. -/
def locate (d : Folder) (path : String) : Place :=
  if Path.isTooLong path then .tooLong
  else match Path.names path with
  | [] => .folder
  | name :: rest =>
    if Path.isNameTooLong name then .tooLong
    else if Path.leavesFolder path then .missing
    else match d.files[name]?, rest with
      | none, [] => .free name
      | none, _ => .missing
      | some f, [] => .file name f
      | some _, _ => .throughFile

def fileAt (d : Folder) (path : String) : Except HostError SparseFile :=
  match d.locate path with
  | .file _ f => .ok f
  | .folder => .error .isDirectory
  | .throughFile => .error .notDirectory
  | .tooLong => .error .nameTooLong
  | .free _ | .missing => .error .notFound

/-- The image at a path. A folder can be opened as well. -/
def imageAt (d : Folder) (path : String) : Except HostError ImageDisk :=
  match d.locate path with
  | .folder => .ok .ofFolder
  | _ => (d.fileAt path).map .ofFile

/-- The source at a path while an image is being made under the name `image`. -/
def sourceAt (d : Folder) (image path : String) : Except HostError Source :=
  match d.locate path with
  | .file name f => .ok (if name = image then .image else .file f)
  | _ => (d.fileAt path).map .file

def replace (d : Folder) (path : String) (content : SparseFile) : Folder :=
  match d.locate path with
  | .file name _ | .free name => ⟨d.files.insert name content⟩
  | _ => d

def target (d : Folder) (path : String) : Except HostError String :=
  if !Path.isTooLong path && Path.asksForFolder path then .error .isDirectory
  else match d.locate path with
  | .file name _ | .free name => .ok name
  | .folder => .error .isDirectory
  | .throughFile => .error .notDirectory
  | .tooLong => .error .nameTooLong
  | .missing => .error .notFound

end Folder

structure Outcome where
  output : List UInt8
  failure : Option Failure

def run (args : List String) (d : Folder) : Outcome × Folder :=
  match Invocation.parse args with
  | none => (⟨[], some .usage⟩, d)
  | some ⟨image, .cat home⟩ =>
    match d.imageAt image with
    | .error e => (⟨[], some (.host e)⟩, d)
    | .ok disk =>
      let (result, content) := cat disk home
      let d := d.replace image content
      match result with
      | .error e => (⟨[], some e⟩, d)
      | .ok data => (⟨data, none⟩, d)
  | some ⟨image, .pack size reserved paths⟩ =>
    let target := d.target image
    let sources := match target with
      | .error _ => []
      | .ok name =>
        let d := d.replace image (.zeros 0)
        paths.map fun path => (path, d.sourceAt name path)
    let packed := pack image (target.map fun _ => ()) size reserved sources []
    let output := (packed.lines.flatMap fun line => line.toUTF8.toList ++ [10])
    let d := match packed.image with
      | some content => d.replace image content
      | none => d
    (⟨output, packed.failure⟩, d)

end Packer

end InodeVolume
