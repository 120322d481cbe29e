import HardSector.Controller
import Mathlib.Data.Finset.Card

/-!
# Media as stores of sectors

To the drives of a controller a medium is a store of sectors: a fetch brings the bytes of
a sector, and a store changes them for one sector or, if there is no room, for none. What
a kind of media needs for that, alone and together with the other media of the controller,
is gathered here, so that it can be forgotten when a controller is followed over a run.
-/

namespace HardSector

/-- The number of sectors of a disk. -/
abbrev diskSectors : Nat := 2464

/-- A sector of the disk in one of the drives. -/
abbrev Place : Type := Fin driveCount × Fin diskSectors

/-- The contents of a sector. -/
abbrev Sector : Type := Vector UInt8 sectorSize

/-- The sectors of the disk are numbered track by track. -/
theorem Geometry.place_mul {track sector : Nat} (htrack : track ≤ 76) (hsector : sector < 32) :
    (Fin.ofNat diskSectors (track * 32 + sector)).val * sectorSize =
      eightInch.offset track sector := by
  have hlt : track * 32 + sector < 2464 := by omega
  rw [eightInch_offset]
  change (track * 32 + sector) % 2464 * 137 = track * 4384 + sector * 137
  rw [Nat.mod_eq_of_lt hlt]
  omega

/-- The media in the drives of a controller, what they share and the host around them. -/
structure Rack (M R W : Type) where
  media : Fin driveCount → Option M
  shared : R
  host : W

namespace Rack

variable {M R W : Type}

/-- What an operation on the medium of a drive has left. -/
def put (rack : Rack M R W) (n : Fin driveCount) (medium : Option M) (shared : R) (host : W) :
    Rack M R W :=
  ⟨Function.update rack.media n medium, shared, host⟩

/-- The media after something was done to one of them. -/
theorem media_put (rack : Rack M R W) (n : Fin driveCount) (medium : Option M) (shared : R)
    (host : W) (n' : Fin driveCount) :
    (rack.put n medium shared host).media n' = if n' = n then medium else rack.media n' :=
  Function.update_apply ..

/-- A medium that is put where it is leaves everything as it is. -/
theorem put_self {rack : Rack M R W} {n : Fin driveCount} {medium : Option M}
    (hmedium : rack.media n = medium) : rack.put n medium rack.shared rack.host = rack := by
  unfold put
  rw [← hmedium, Function.update_eq_self]

/-- What the medium in a drive shows of a sector, given what media show. -/
def view (sector : M → R → W → Fin diskSectors → Sector) (rack : Rack M R W)
    (n : Fin driveCount) (k : Fin diskSectors) : Option Sector :=
  (rack.media n).map fun medium => sector medium rack.shared rack.host k

/-- What is seen after something was done to one of the media. -/
theorem view_put (sector : M → R → W → Fin diskSectors → Sector) (rack : Rack M R W)
    (n : Fin driveCount) (medium : Option M) (shared : R) (host : W) (n' : Fin driveCount)
    (k' : Fin diskSectors) :
    (rack.put n medium shared host).view sector n' k' =
      (if n' = n then medium else rack.media n').map fun medium =>
        sector medium shared host k' := by
  unfold view
  rw [media_put]
  rfl

end Rack

/-- The sector in a buffer, of the size of a sector. -/
def Buffer.window (buffer : Buffer) : Sector :=
  ⟨buffer.sector, by
    simp only [Buffer.sector, Array.size_extract, Vector.size_toArray]
    rfl⟩

/-- A buffer that begins with the bytes of a sector holds that sector. -/
theorem Buffer.window_eq {buffer : Buffer} {bytes : Sector}
    (hbuffer : ∀ i < sectorSize, buffer[i]? = bytes[i]?) : buffer.window = bytes := by
  ext i hi
  have hlt : i < bufferSize := Nat.lt_trans hi (by decide)
  have hbyte := hbuffer i hi
  rw [Vector.getElem?_eq_getElem hlt, Vector.getElem?_eq_getElem hi] at hbyte
  rw [← Option.some.inj hbyte]
  simp only [Buffer.window, Buffer.sector, Vector.getElem_mk, Array.getElem_extract,
    Vector.getElem_toArray, Nat.zero_add]

/-- A byte put behind the first bytes of a sector in a buffer continues them. -/
theorem Buffer.prefix_set {buffer : Buffer} {bytes : Sector} {count : Nat} {byte : UInt8}
    (hbyte : bytes[count]? = some byte) (hbelow : ∀ i < count, buffer[i]? = bytes[i]?) :
    ∀ i < count + 1, (buffer.setIfInBounds count byte)[i]? = bytes[i]? := by
  have hcount : count < sectorSize := (Vector.getElem?_eq_some_iff.mp hbyte).1
  intro i hi
  rw [Vector.getElem?_setIfInBounds]
  by_cases heq : count = i
  · subst heq
    rw [if_pos rfl, if_pos (Nat.lt_trans hcount (by decide)), hbyte]
  · rw [if_neg heq]
    exact hbelow i (by omega)

/-- A sector is its bytes but the last, and the last. -/
theorem exists_last_byte (bytes : Sector) :
    ∃ byte, bytes[sectorSize - 1]? = some byte ∧
      bytes.toList = bytes.toList.take (sectorSize - 1) ++ [byte] := by
  have hlength : sectorSize - 1 < bytes.toList.length := by simp
  refine ⟨bytes.toList[sectorSize - 1], ?_, ?_⟩
  · rw [Vector.getElem?_eq_getElem (by decide), Vector.getElem_toList]
  · rw [← List.take_succ_eq_append_getElem hlength, List.take_of_length_le (by simp)]

/-- The bytes of a sector come first in the buffer that they were fetched into. -/
theorem Buffer.getElem?_ofDelivered (bytes : Sector) {i : Nat} (hi : i < sectorSize) :
    (ofDelivered bytes.toArray)[i]? = bytes[i]? := by
  have hlt : i < bufferSize := Nat.lt_trans hi (by decide)
  rw [Vector.getElem?_eq_getElem hlt, Vector.getElem?_eq_getElem hi, ofDelivered,
    Vector.getElem_ofFn, if_pos hi, Array.getD_eq_getD_getElem?, Vector.getElem?_toArray,
    Vector.getElem?_eq_getElem hi, Option.getD_some]

/-- Whatever was delivered, there are zeros in the slack. -/
theorem Buffer.getElem?_ofDelivered_of_le (bytes : Bytes) {i : Nat} (hi : sectorSize ≤ i)
    (hlt : i < bufferSize) : (ofDelivered bytes)[i]? = some 0 := by
  rw [Vector.getElem?_eq_getElem hlt, ofDelivered, Vector.getElem_ofFn, if_neg (Nat.not_lt.mpr hi)]

/-- Only the bytes of a sector, read with zeros past the end, come into a buffer. -/
theorem Buffer.ofDelivered_congr {bytes bytes' : Bytes}
    (hbytes : ∀ i < sectorSize, bytes.getD i 0 = bytes'.getD i 0) :
    ofDelivered bytes = ofDelivered bytes' := by
  ext i hi
  simp only [ofDelivered, Vector.getElem_ofFn]
  split
  · next hlt => rw [hbytes i hlt]
  · rfl

/-- A piece of the size of a sector is delivered as the sector. -/
theorem Buffer.ofDelivered_extract (bytes : Bytes) (start : Nat) :
    ofDelivered (bytes.extract start (start + sectorSize)) =
      ofDelivered (bytes.padded start sectorSize).toArray := by
  apply ofDelivered_congr
  intro i hi
  have hpadded : (bytes.padded start sectorSize).toArray.getD i 0 = bytes.getD (start + i) 0 := by
    rw [Array.getD_eq_getD_getElem?, Vector.getElem?_toArray, Vector.getElem?_eq_getElem hi,
      Bytes.getElem_padded, Option.getD_some]
  rw [hpadded, Bytes.getD_extract]
  split
  · rfl
  · rw [Array.getD_eq_getD_getElem?, Array.getElem?_eq_none (by omega), Option.getD_none]

/-- A kind of media that are stores of sectors. -/
structure Sectored (M R W : Type) [Medium M R W] where
  /-- What the media in the drives keep. Nothing was stored but at the places. -/
  Sane : Finset Place → Rack M R W → Prop
  /-- What a medium shows of a sector. -/
  sector : M → R → W → Fin diskSectors → Sector
  /-- Media that may be put into a drive. -/
  Fresh : M → Prop
  /-- Places for which there is room, however often they are stored to. -/
  Fits : Finset Place → Prop
  /-- There is room for fewer places as well. -/
  fits_mono : ∀ {places places'}, places ⊆ places' → Fits places' → Fits places
  /-- How many stores found no room. -/
  lost : R → Nat
  /-- A fetch brings the bytes of its sector and changes nothing that can be seen. -/
  fetch : ∀ {places rack n medium} (k : Fin diskSectors) (notices : List Notice),
    Sane places rack → rack.media n = some medium →
    ∃ delivered count medium' shared host,
      Medium.fetch medium (⟨rack.shared, rack.host, notices⟩ : Site R W) (k.val * sectorSize)
        sectorSize = ⟨delivered, .ok count, medium', ⟨shared, host, notices⟩⟩ ∧
      Buffer.ofDelivered delivered =
        Buffer.ofDelivered (sector medium rack.shared rack.host k).toArray ∧
      lost shared = lost rack.shared ∧ Sane places (rack.put n (some medium') shared host) ∧
      ∀ n' k', (rack.put n (some medium') shared host).view sector n' k' = rack.view sector n' k'
  /-- A store changes its sector, and no other, or is lost. -/
  store : ∀ {places rack n medium} (k : Fin diskSectors) (data : Sector) (notices : List Notice),
    Sane places rack → rack.media n = some medium →
    ∃ medium' shared host notices', ∃ kept : Bool,
      Medium.store medium (⟨rack.shared, rack.host, notices⟩ : Site R W) (k.val * sectorSize)
        data.toArray = ⟨.ok (), medium', ⟨shared, host, notices'⟩⟩ ∧
      (Fits (insert (n, k) places) → kept = true) ∧
      (lost shared = lost rack.shared + if kept then 0 else 1) ∧
      Sane (insert (n, k) places) (rack.put n (some medium') shared host) ∧
      ∀ n' k', (rack.put n (some medium') shared host).view sector n' k' =
        if kept = true ∧ n' = n ∧ k' = k then some data else rack.view sector n' k'
  /-- A medium that leaves its drive takes nothing from the others. -/
  release : ∀ {places rack n medium} (notices : List Notice),
    Sane places rack → rack.media n = some medium →
    ∃ medium' shared host notices',
      Medium.release medium (⟨rack.shared, rack.host, notices⟩ : Site R W) =
        (medium', ⟨shared, host, notices'⟩) ∧
      lost shared = lost rack.shared ∧ Sane places (rack.put n none shared host) ∧
      ∀ n' k', n' ≠ n →
        (rack.put n none shared host).view sector n' k' = rack.view sector n' k'
  /-- A fresh medium may come into an empty drive. -/
  accept : ∀ {places rack n medium}, Sane places rack → rack.media n = none → Fresh medium →
    Sane places (rack.put n (some medium) rack.shared rack.host)

end HardSector
