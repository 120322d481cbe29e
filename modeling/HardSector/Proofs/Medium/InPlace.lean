import HardSector.Medium.InPlace
import HardSector.Proofs.Medium.Sectored
import HardSector.Proofs.Storage.Cooperative

/-!
# Media in place as stores of sectors

A medium over a cooperative stream shows the bytes of the stream, with zeros past its end.
It always has room, and a store past the end makes the stream longer.
-/

namespace HardSector

/-- A sector lies within the disk. -/
theorem sector_le_diskSize (k : Fin diskSectors) :
    k.val * sectorSize + sectorSize ≤ Geometry.eightInch.diskSize := by
  have hlt : k.val < 2464 := k.isLt
  change k.val * 137 + 137 ≤ 337568
  omega

/-- What a splice of one sector leaves of the sectors. -/
theorem Bytes.padded_splice {bytes contents : Bytes} {k : Fin diskSectors} {data : Sector}
    (hcontents : ∀ i, contents.getD i 0 =
      (bytes.splice (k.val * sectorSize) data.toArray).getD i 0) (k' : Fin diskSectors) :
    contents.padded (k'.val * sectorSize) sectorSize =
      if k' = k then data else bytes.padded (k'.val * sectorSize) sectorSize := by
  by_cases hk : k' = k
  · subst hk
    rw [if_pos rfl]
    ext i hi
    have hplace : k'.val * sectorSize + i - k'.val * sectorSize = i := by omega
    rw [getElem_padded, hcontents, getD_splice, Vector.size_toArray, if_pos (by omega), hplace,
      Array.getD_eq_getD_getElem?, Vector.getElem?_toArray, Vector.getElem?_eq_getElem hi,
      Option.getD_some]
  · rw [if_neg hk]
    ext i hi
    have hne : k'.val ≠ k.val := fun heq => hk (Fin.ext heq)
    have hlt : i < 137 := hi
    have hout : ¬(k.val * 137 ≤ k'.val * 137 + i ∧ k'.val * 137 + i < k.val * 137 + 137) := by
      omega
    rw [getElem_padded, getElem_padded, hcontents, getD_splice, Vector.size_toArray, if_neg hout]

namespace InPlace

variable {W : Type} {file : InPlace Stream}

/-- What a medium shows of a sector. -/
def shows (file : InPlace Stream) (_ : Unit) (_ : W) (k : Fin diskSectors) : Sector :=
  file.handle.contents.padded (k.val * sectorSize) sectorSize

/-- Reading a sector of a cooperative stream brings its bytes, as many as there are. -/
theorem fetchStream_eq {s : Stream} (hs : s.Cooperative) (k : Fin diskSectors) :
    ∃ s', fetchStream s (k.val * sectorSize) sectorSize =
        ⟨s.contents.extract (k.val * sectorSize) (k.val * sectorSize + sectorSize), .ok (), s'⟩ ∧
      s'.Cooperative ∧ s'.contents = s.contents := by
  have hinside := sector_le_diskSize k
  have hoffset : k.val * sectorSize < Geometry.eightInch.diskSize :=
    Nat.lt_of_lt_of_le (Nat.lt_add_of_pos_right (by decide)) hinside
  obtain ⟨s', hseek, hsought, hcontents, hposition⟩ := hs.seek (hs.inside _ hoffset).1
  obtain ⟨last, hread, hdone, hsame⟩ := hsought.readFully sectorSize
  rw [hcontents, hposition] at hread
  refine ⟨last, ?_, hdone, hsame.trans hcontents⟩
  unfold fetchStream
  simp only [hseek, hread]

/-- Writing a sector of a cooperative stream splices the bytes into it. -/
theorem storeStream_eq {s : Stream} (hs : s.Cooperative) (k : Fin diskSectors) (data : Sector) :
    ∃ s', storeStream s (k.val * sectorSize) data.toArray = (.ok (), s') ∧ s'.Cooperative ∧
      ∀ i, s'.contents.getD i 0 =
        (s.contents.splice (k.val * sectorSize) data.toArray).getD i 0 := by
  have hinside := sector_le_diskSize k
  have hoffset : k.val * sectorSize < Geometry.eightInch.diskSize :=
    Nat.lt_of_lt_of_le (Nat.lt_add_of_pos_right (by decide)) hinside
  obtain ⟨s', hseek, hsought, hcontents, hposition⟩ := hs.seek (hs.inside _ hoffset).1
  rw [← hposition, ← data.size_toArray] at hinside
  obtain ⟨s'', hwrite, hwritten, hbytes⟩ := hsought.writeAll hinside
  obtain ⟨last, hflush, hdone, hsame⟩ := hwritten.flush
  refine ⟨last, ?_, hdone, fun i => ?_⟩
  · unfold storeStream
    simp only [hseek, hwrite, hflush]
  · rw [hsame, hbytes, hcontents, hposition]

/-- A fetch delivers the bytes of the stream, as many as there are. -/
theorem fetch_eq (hs : file.handle.Cooperative) (site : Site Unit W) (k : Fin diskSectors) :
    ∃ s count, Medium.fetch file site (k.val * sectorSize) sectorSize =
        ⟨file.handle.contents.extract (k.val * sectorSize) (k.val * sectorSize + sectorSize),
          .ok count, { file with handle := s }, site⟩ ∧
      s.Cooperative ∧ s.contents = file.handle.contents := by
  obtain ⟨s, hfetch, hdone, hsame⟩ := fetchStream_eq hs k
  refine ⟨s, (file.handle.contents.extract (k.val * sectorSize)
    (k.val * sectorSize + sectorSize)).size, ?_, hdone, hsame⟩
  simp only [Medium.fetch, stream, Backing.stream, restore, Backing.restore, hfetch]

/-- A store splices the bytes into the stream. -/
theorem store_eq (hs : file.handle.Cooperative) (site : Site Unit W) (k : Fin diskSectors)
    (data : Sector) :
    ∃ s length, Medium.store file site (k.val * sectorSize) data.toArray =
        ⟨.ok (), { file with handle := s, length := length }, site⟩ ∧
      s.Cooperative ∧ ∀ i, s.contents.getD i 0 =
        (file.handle.contents.splice (k.val * sectorSize) data.toArray).getD i 0 := by
  obtain ⟨s, hstore, hdone, hbytes⟩ := storeStream_eq hs k data
  refine ⟨s, max file.length (k.val * sectorSize + sectorSize), ?_, hdone, hbytes⟩
  simp only [Medium.store, stream, Backing.stream, restore, Backing.restore, hstore,
    Vector.size_toArray]

/-- A release flushes the stream. -/
theorem release_eq (hs : file.handle.Cooperative) (site : Site Unit W) :
    ∃ s, Medium.release file site = ({ file with handle := s }, site) := by
  obtain ⟨s, hflush, _, _⟩ := hs.flush
  refine ⟨s, ?_⟩
  simp only [Medium.release, stream, Backing.stream, restore, Backing.restore, hflush]

/-- All media in the drives are over cooperative streams. -/
def Willing (rack : Rack (InPlace Stream) Unit W) : Prop :=
  ∀ n file, rack.media n = some file → file.handle.Cooperative

/-- One more medium over a cooperative stream. -/
theorem Willing.put {rack : Rack (InPlace Stream) Unit W} (h : Willing rack) (n : Fin driveCount)
    {medium : Option (InPlace Stream)}
    (hmedium : ∀ file, medium = some file → file.handle.Cooperative) :
    Willing (rack.put n medium rack.shared rack.host) := by
  intro n' file hfile
  rw [Rack.media_put] at hfile
  split at hfile
  · exact hmedium file hfile
  · exact h n' file hfile

/-- Media over cooperative streams are stores of sectors, and never lose one. -/
def sectored : Sectored (InPlace Stream) Unit W where
  Sane _ := Willing
  sector := shows
  Fresh file := file.handle.Cooperative
  Fits _ := True
  fits_mono _ _ := trivial
  lost _ := 0
  fetch {places rack n file} k notices hsane hmedium := by
    obtain ⟨s, count, hfetch, hs, hsame⟩ :=
      fetch_eq (hsane n file hmedium) ⟨rack.shared, rack.host, notices⟩ k
    refine ⟨_, count, { file with handle := s }, rack.shared, rack.host, hfetch,
      Buffer.ofDelivered_extract _ _, rfl, hsane.put n ?_, fun n' k' => ?_⟩
    · rintro _ ⟨⟩
      exact hs
    · rw [Rack.view_put]
      split
      · next heq =>
        rw [heq, Rack.view, hmedium, Option.map_some, Option.map_some, shows, hsame, shows]
      · rfl
  store {places rack n file} k data notices hsane hmedium := by
    obtain ⟨s, length, hstore, hs, hbytes⟩ :=
      store_eq (hsane n file hmedium) ⟨rack.shared, rack.host, notices⟩ k data
    refine ⟨{ file with handle := s, length := length }, rack.shared, rack.host, notices, true,
      hstore, fun _ => rfl, rfl, hsane.put n ?_, fun n' k' => ?_⟩
    · rintro _ ⟨⟩
      exact hs
    · have hpadded := Bytes.padded_splice hbytes k'
      rw [Rack.view_put]
      by_cases hn : n' = n
      · subst hn
        rw [if_pos rfl, Rack.view, hmedium, Option.map_some, Option.map_some, shows, hpadded]
        simp only [true_and]
        split <;> rfl
      · rw [if_neg hn, if_neg fun hchanged => hn hchanged.2.1]
        rfl
  release {places rack n file} notices hsane hmedium := by
    obtain ⟨s, hrelease⟩ := release_eq (hsane n file hmedium) ⟨rack.shared, rack.host, notices⟩
    refine ⟨_, rack.shared, rack.host, notices, hrelease, rfl, hsane.put n nofun,
      fun n' k' hne => ?_⟩
    rw [Rack.view_put, if_neg hne]
    rfl
  accept {places rack n file} hsane hempty hfresh := by
    refine hsane.put n ?_
    rintro _ ⟨⟩
    exact hfresh

end InPlace

end HardSector
