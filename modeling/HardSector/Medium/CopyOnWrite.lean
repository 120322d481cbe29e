import HardSector.Medium
import HardSector.Patch.Pool
import HardSector.Storage.FileTree

/-!
# Copy-on-write media

A copy-on-write medium never changes its image. Stores become patches in the pool that the media of
a controller share, and a patch hides the sector of the image it was written over. Releasing the
medium gives its patches back, and the image shows again.
-/

namespace HardSector

/-- A read-only image with a table of patches over it. -/
structure CopyOnWrite where
  image : Bytes
  patches : PatchTable := .empty
  name : Option String := none
deriving DecidableEq, Repr

namespace CopyOnWrite

/-- What an offset and a count select of the image. -/
def imageBytes (disk : CopyOnWrite) (offset count : Nat) : Bytes :=
  disk.image.extract offset (offset + count)

/-- The bytes at an offset: those of the image, the first of them hidden by the patch of the sector
that holds the offset, if there is one. The patch alone counts as read then. -/
def look (disk : CopyOnWrite) (pool : PatchPool) (offset count : Nat) : Bytes × Nat :=
  let bytes := disk.imageBytes offset count
  match pool.patch disk.patches (Geometry.eightInch.sectorIndex offset) with
  | none => (bytes, bytes.size)
  | some patch =>
    let shown := patch.toArray.extract 0 count
    (shown ++ bytes.extract shown.size bytes.size, shown.size)

/-- A description for the operator. -/
def describe (disk : CopyOnWrite) : String :=
  disk.name.getD "<memory>" ++ s!" (copy-on-write, {disk.image.size} bytes)"

instance : Described CopyOnWrite where
  size disk := disk.image.size
  describe := describe

instance {W : Type} : Medium CopyOnWrite PatchPool W where
  fetch disk site offset count :=
    let (bytes, counted) := disk.look site.shared offset count
    ⟨bytes, .ok counted, disk, site⟩
  store disk site offset data :=
    match disk, site with
    | ⟨image, patches, name⟩, ⟨pool, host, notices⟩ =>
      let change := pool.store patches (Geometry.eightInch.sectorIndex offset) data
      ⟨.ok (), ⟨image, change.table, name⟩, ⟨change.pool, host, notices ++ change.notices⟩⟩
  release disk site :=
    match disk, site with
    | ⟨image, patches, name⟩, ⟨pool, host, notices⟩ =>
      let change := pool.clear patches
      (⟨image, change.table, name⟩, ⟨change.pool, host, notices ++ change.notices⟩)

/-- An image read from a file, and what to tell the operator about its size. -/
def ofFile (tree : FileTree) (path : String) : Except StorageError CopyOnWrite × List Notice :=
  match tree.read path with
  | .error cause => (.error cause, [])
  | .ok image =>
    (.ok { image := image, name := some path },
      if image.size < Geometry.eightInch.diskSize then [.imageShort path image.size] else [])

end CopyOnWrite

end HardSector
