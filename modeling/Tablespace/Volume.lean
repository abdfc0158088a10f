import Tablespace.Fault
import Tablespace.FileImage

/-!
# Files and folders

A volume holds files in folders. A file is found by its **path**, the names
of the folders on the way to it and its own name; as a text, names are
separated by slashes, an empty name and a point stand for the folder one is
in, and two points for the folder around it. Many texts lead to one file,
and the file is the same file whichever was used (`Volume.locate`).
-/

namespace Tablespace

/-- **A path from the root**: names of folders, and then a name in the
last. -/
abbrev Path := List String

/-- **Files and folders.** -/
structure Volume where
  /-- The folders below the root. -/
  folders : List Path
  /-- The files and what they hold. -/
  files : List (Path × FileImage)
  deriving DecidableEq

namespace Volume

/-- The volume with nothing in it. -/
def empty : Volume := ⟨[], []⟩

/-- What a file holds; nothing, where there is no such file. -/
def content (v : Volume) (path : Path) : FileImage :=
  ((v.files.find? (·.1 = path)).map (·.2)).getD .empty

/-- Whether there is such a file. -/
def hasFile (v : Volume) (path : Path) : Bool :=
  v.files.any (·.1 = path)

/-- The volume with other content in a file, which is made if need be. -/
def put (v : Volume) (path : Path) (image : FileImage) : Volume :=
  if v.hasFile path then
    { v with files := v.files.map fun f => if f.1 = path then (path, image) else f }
  else { v with files := v.files ++ [(path, image)] }

/-- **The file that names lead to from a folder**, there or to be made
there. The folders on the way must be there. A slash behind the last name
asks for a folder, so no file is found. -/
def walk (v : Volume) : (here : Path) → List String → Except FileFlaw Path
  | _, [] => .error .isDirectory
  | here, name :: rest =>
    if name = "" ∨ name = "." then v.walk here rest
    else if name = ".." then v.walk here.dropLast rest
    else
      let next := here ++ [name]
      if next ∈ v.folders then v.walk next rest
      else if rest = [] then .ok next
      else if rest.all (· = "") then .error .isDirectory
      else if v.hasFile next then .error .notDirectory
      else .error .notFound

/-- **The file that a path as a text leads to.** -/
def locate (v : Volume) (text : String) : Except FileFlaw Path :=
  v.walk [] ((text.splitToList (· = '/')))

/-- **Opens a file**: finds it, and makes it if it is not there. -/
def openFile (v : Volume) (text : String) : Except FileFlaw (Path × Volume) :=
  (v.locate text).map fun path =>
    (path, if v.hasFile path then v else v.put path .empty)

end Volume

end Tablespace
