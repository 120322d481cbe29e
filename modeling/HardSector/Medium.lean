import HardSector.Bytes
import HardSector.Notice

/-!
# Media

A medium is what a drive reads and writes: sectors are fetched from it and stored to it by offset,
and it is released when it leaves the drive. A medium works on a site: a resource shared by the
media of one controller, a host around the controller, and the notices raised so far.
-/

namespace HardSector

/-- Where a medium is at work: the resource it shares with the other media of its controller, the
host around the controller, and the notices raised so far, oldest first. -/
structure Site (R W : Type) where
  shared : R
  host : W
  notices : List Notice := []

/-- Add notices to those of a site. -/
def Site.note {R W : Type} (site : Site R W) (notices : List Notice) : Site R W :=
  { site with notices := site.notices ++ notices }

/-- What a fetch brought: the bytes that were delivered, in order, and whether it succeeded. A
success tells how many bytes count as read. -/
structure Fetched (M R W : Type) where
  delivered : Bytes
  outcome : Except DiskError Nat
  medium : M
  site : Site R W

/-- What a store or a release left behind, and whether it succeeded. -/
structure Stored (M R W : Type) where
  outcome : Except DiskError Unit
  medium : M
  site : Site R W

/-- What can be told of a medium without using it: the size of its image and a description. -/
class Described (M : Type) where
  size : M → Nat
  describe : M → String

/-- Media of type `M` that share a resource `R` on a host `W`. -/
class Medium (M R W : Type) extends Described M where
  /-- Fetch at most `count` bytes from an offset on. -/
  fetch (medium : M) (site : Site R W) (offset count : Nat) : Fetched M R W
  /-- Store bytes at an offset. -/
  store (medium : M) (site : Site R W) (offset : Nat) (data : Bytes) : Stored M R W
  /-- Give up what the medium holds of the shared resource, as it leaves a drive. -/
  release (medium : M) (site : Site R W) : M × Site R W

end HardSector
