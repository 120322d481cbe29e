import HardSector.Geometry
import HardSector.Notice
import HardSector.Storage.FileTree

/-!
# Blank images

A blank image has the size of a whole disk and one filler byte throughout. It is only made where
nothing exists, so no file is ever replaced by one.
-/

namespace HardSector.Blank

/-- The byte that an empty directory entry starts with, and so the filler of a blank disk. -/
def filler : UInt8 := 0xE5

/-- The image of a blank disk. -/
def image : Bytes := Array.replicate Geometry.eightInch.diskSize filler

/-- Why a blank image was not made. -/
inductive Failure where
  | exists (path : String)
  | cannotCreate (cause : StorageError)
deriving DecidableEq, Repr

namespace Failure

/-- The text of a failure. -/
def message : Failure → String
  | .exists path => (DiskError.imageExists path).message
  | .cannotCreate cause => s!"Failed to create the requested disk image: {cause.message}"

/-- What a failure tells the operator besides its text. -/
def notices : Failure → List Notice
  | .exists path => [.imageExists path]
  | .cannotCreate _ => []

end Failure

/-- Make a blank image at a path that names nothing yet. -/
def create (tree : FileTree) (path : String) : Except Failure FileTree :=
  if tree.contains path then .error (.exists path)
  else
    match tree.create path image with
    | .error cause => .error (.cannotCreate cause)
    | .ok tree => .ok tree

@[simp] theorem size_image : image.size = Geometry.eightInch.diskSize := by simp [image]

end HardSector.Blank
