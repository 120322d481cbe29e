import HardSector.Geometry
import HardSector.Medium
import HardSector.Storage.FileTree
import HardSector.Storage.Stream

/-!
# Media written in place

A medium in place reads and writes a stream directly. The stream may be held by the medium itself,
be one of several that the host keeps by number, or be a file of a file tree; a handle says which,
and `Backing` how the stream is reached through it. The length of the medium is the length of the
stream when it was opened, and grows with the stores that succeed.
-/

namespace HardSector

/-- Handles of type `H` through which a stream on a host `W` is reached. -/
class Backing (H W : Type) where
  /-- The stream behind a handle. -/
  stream : H → W → Stream
  /-- Put the stream behind a handle back after use. -/
  restore : H → W → Stream → H × W

/-- A stream that is its own handle. -/
instance {W : Type} : Backing Stream W where
  stream s _ := s
  restore _ host s := (s, host)

/-- The number of a stream that the host keeps. -/
structure StreamNumber where
  number : Nat
deriving DecidableEq, Repr

instance : Backing StreamNumber (Array Stream) where
  stream handle host := (host[handle.number]?).getD { contents := #[] }
  restore handle host s := (handle, host.setIfInBounds handle.number s)

/-- An open file of a file tree, and the position in it. -/
structure FileHandle where
  location : Location
  position : Nat := 0
deriving DecidableEq, Repr

/-- No offset in a file may exceed a signed sixty-four-bit number. -/
def FileHandle.farthest : Nat := 0x7FFFFFFFFFFFFFFF

instance : Backing FileHandle FileTree where
  stream handle tree :=
    { contents := (tree.file? handle.location).getD #[]
      position := handle.position
      farthest := some FileHandle.farthest }
  restore handle tree s :=
    ({ handle with position := s.position }, tree.write handle.location s.contents)

/-- A medium whose image is the stream behind a handle. -/
structure InPlace (H : Type) where
  handle : H
  length : Nat
  path : Option String := none
deriving DecidableEq, Repr

namespace InPlace

variable {H W : Type} [Backing H W]

/-- The stream of a medium. -/
def stream (disk : InPlace H) (host : W) : Stream := Backing.stream disk.handle host

/-- The medium and its host after the stream has been used. -/
def restore (disk : InPlace H) (host : W) (s : Stream) : InPlace H × W :=
  let (handle, host) := Backing.restore disk.handle host s
  ({ disk with handle := handle }, host)

/-- A medium over the stream behind a handle: the length is found by seeking to the end and back.
The handle and the host come back also when that fails. -/
def open? (handle : H) (host : W) : Except StorageError (InPlace H) × H × W :=
  let s := Backing.stream handle host
  let size := s.contents.size
  match s.seek size with
  | (.error cause, s) =>
    let (handle, host) := Backing.restore handle host s
    (.error cause, handle, host)
  | (.ok (), s) =>
    match s.seek 0 with
    | (.error cause, s) =>
      let (handle, host) := Backing.restore handle host s
      (.error cause, handle, host)
    | (.ok (), s) =>
      let (handle, host) := Backing.restore handle host s
      (.ok { handle := handle, length := size }, handle, host)

/-- Read a stream from an offset on. -/
def fetchStream (s : Stream) (offset count : Nat) : Stream.Reading :=
  match s.seek offset with
  | (.error cause, s) => ⟨#[], .error cause, s⟩
  | (.ok (), s) => s.readFully count

/-- Write to a stream from an offset on and flush it. -/
def storeStream (s : Stream) (offset : Nat) (data : Bytes) : Except StorageError Unit × Stream :=
  match s.seek offset with
  | (.error cause, s) => (.error cause, s)
  | (.ok (), s) =>
    match s.writeAll data with
    | (.error cause, s) => (.error cause, s)
    | (.ok (), s) => s.flush

/-- A description for the operator. -/
def describe (disk : InPlace H) : String :=
  disk.path.getD "<stream>" ++ s!" ({disk.length} bytes)"

instance {H : Type} : Described (InPlace H) where
  size := length
  describe := describe

instance : Medium (InPlace H) Unit W where
  fetch disk site offset count :=
    let reading := fetchStream (disk.stream site.host) offset count
    let (disk, host) := disk.restore site.host reading.stream
    let outcome :=
      match reading.outcome with
      | .ok () => .ok reading.delivered.size
      | .error cause => .error (.storage cause)
    ⟨reading.delivered, outcome, disk, { site with host := host }⟩
  store disk site offset data :=
    let (outcome, s) := storeStream (disk.stream site.host) offset data
    let (disk, host) := disk.restore site.host s
    match outcome with
    | .ok () =>
      ⟨.ok (), { disk with length := max disk.length (offset + data.size) },
        { site with host := host }⟩
    | .error cause => ⟨.error (.storage cause), disk, { site with host := host }⟩
  release disk site :=
    let (outcome, s) := (disk.stream site.host).flush
    let (disk, host) := disk.restore site.host s
    let site := { site with host := host }
    match outcome with
    | .ok () => (disk, site)
    | .error cause => (disk, site.note [.flushFailed cause])

/-- A file of a file tree, opened for reading and writing, and what to tell the operator about it.
-/
def ofFile (tree : FileTree) (path : String) :
    Except StorageError (InPlace FileHandle) × List Notice :=
  match tree.findFile path with
  | .error cause => (.error cause, [.openFailed path cause])
  | .ok (location, bytes) =>
    (.ok { handle := { location := location }, length := bytes.size, path := some path },
      if bytes.size < Geometry.eightInch.diskSize then [.imageShort path bytes.size] else [])

end InPlace

end HardSector
