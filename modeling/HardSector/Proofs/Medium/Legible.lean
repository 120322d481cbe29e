import HardSector.Proofs.Medium.CopyOnWrite
import HardSector.Proofs.Medium.InPlace

/-!
# Media that can be read

A fetch from a copy-on-write medium never fails, and one from a medium in place does not as
long as the stream behind it is cooperative, whoever keeps the stream. Such a fetch brings
the bytes that the medium shows of the sector and changes nothing that any medium shows.
What happened to other media, and how much room the pool has, is of no concern here.
-/

namespace HardSector

/-- Media of which sectors are read. -/
class Legible (M R W : Type) [Medium M R W] where
  /-- Nothing that is done to the medium fails. -/
  Reliable : M → R → W → Prop
  /-- What a medium shows of a sector. -/
  shows : M → R → W → Fin diskSectors → Sector
  /-- A store leaves a reliable medium reliable. -/
  store : ∀ {medium : M} {site : Site R W} (k : Fin diskSectors) (data : Sector),
    Reliable medium site.shared site.host →
    let stored := Medium.store medium site (k.val * sectorSize) data.toArray
    Reliable stored.medium stored.site.shared stored.site.host
  /-- A fetch brings the bytes of its sector, and neither this medium nor another shows anything
  else after it. -/
  fetch : ∀ {medium : M} {site : Site R W} (k : Fin diskSectors),
    Reliable medium site.shared site.host →
    ∃ delivered count medium' site',
      Medium.fetch medium site (k.val * sectorSize) sectorSize =
        ⟨delivered, .ok count, medium', site'⟩ ∧
      Buffer.ofDelivered delivered =
        Buffer.ofDelivered (shows medium site.shared site.host k).toArray ∧
      shows medium' site'.shared site'.host = shows medium site.shared site.host ∧
      ∀ other : M, shows other site'.shared site'.host = shows other site.shared site.host

/-- A copy-on-write medium shows patches, or else its image with zeros past the end. -/
instance {W : Type} : Legible CopyOnWrite PatchPool W where
  Reliable _ _ _ := True
  shows := CopyOnWrite.shows
  store _ _ _ := trivial
  fetch {disk site} _ _ :=
    ⟨_, _, disk, site, rfl, CopyOnWrite.ofDelivered_look .., rfl, fun _ => rfl⟩

/-- Handles with which a stream that is put back is found again. -/
class LawfulBacking (H W : Type) [Backing H W] : Prop where
  /-- A cooperative stream is cooperative when it is found again. -/
  cooperative : ∀ (handle : H) (host : W) {s : Stream}, s.Cooperative →
    (Backing.stream (Backing.restore handle host s).1
      (Backing.restore handle host s).2).Cooperative
  /-- A stream that is put back with its bytes unchanged changes no bytes. -/
  contents : ∀ (handle : H) (host : W) {s : Stream},
    s.contents = (Backing.stream handle host).contents →
    (Backing.stream (Backing.restore handle host s).1
        (Backing.restore handle host s).2).contents = s.contents ∧
      ∀ other : H, (Backing.stream other (Backing.restore handle host s).2).contents =
        (Backing.stream other host).contents

instance {W : Type} : LawfulBacking Stream W where
  cooperative _ _ _ hs := hs
  contents _ _ _ _ := ⟨rfl, fun _ => rfl⟩

/-- A stream of no bytes on which nothing fails. -/
theorem Stream.cooperative_empty : Stream.Cooperative { contents := #[] } :=
  ⟨nofun, nofun, nofun, nofun, fun _ _ => ⟨rfl, rfl⟩⟩

instance : LawfulBacking StreamNumber (Array Stream) where
  cooperative handle host {s} hs := by
    change Stream.Cooperative
      (((host.setIfInBounds handle.number s)[handle.number]?).getD { contents := #[] })
    rw [Array.getElem?_setIfInBounds_self]
    split
    · exact hs
    · exact Stream.cooperative_empty
  contents handle host {s} hcontents := by
    have hother (number : Nat) :
        (((host.setIfInBounds handle.number s)[number]?).getD { contents := #[] }).contents =
          ((host[number]?).getD { contents := #[] }).contents := by
      rw [Array.getElem?_setIfInBounds]
      split
      · next heq =>
        subst heq
        split
        · exact hcontents
        · next hout => rw [Array.getElem?_eq_none (Nat.le_of_not_lt hout)]
      · rfl
    exact ⟨(hother handle.number).trans hcontents.symm, fun other => hother other.number⟩

/-- Nothing makes an open file fail. -/
theorem FileHandle.cooperative (handle : FileHandle) (tree : FileTree) :
    (Backing.stream handle tree).Cooperative := by
  refine ⟨nofun, nofun, nofun, nofun, fun offset hoffset => ⟨?_, rfl⟩⟩
  have hlimit : Geometry.eightInch.diskSize ≤ FileHandle.farthest := by decide
  exact decide_eq_true (Nat.le_trans (Nat.le_of_lt hoffset) hlimit)

/-- An open file is found again. -/
instance : LawfulBacking FileHandle FileTree where
  cooperative _ _ _ _ := FileHandle.cooperative _ _
  contents handle tree {s} hcontents := by
    have hother (location : Location) :
        ((tree.write handle.location s.contents).file? location).getD #[] =
          (tree.file? location).getD #[] := by
      by_cases heq : location = handle.location
      · subst heq
        by_cases hroot : handle.location = []
        · rw [hroot]
          rfl
        · refine Eq.trans ?_ hcontents
          unfold FileTree.file? FileTree.write
          rw [FileTree.get?_put_self _ _ hroot]
          rfl
      · unfold FileTree.file? FileTree.write
        rw [FileTree.get?_put_of_ne _ _ heq]
    exact ⟨(hother handle.location).trans hcontents.symm, fun other => hother other.location⟩

/-- A medium in place is reliable while its stream is cooperative, and shows the bytes of the stream
with zeros past the end. -/
instance {H W : Type} [Backing H W] [LawfulBacking H W] : Legible (InPlace H) Unit W where
  Reliable disk _ host := (disk.stream host).Cooperative
  shows disk _ host k := (disk.stream host).contents.padded (k.val * sectorSize) sectorSize
  store {disk site} k data hreliable := by
    obtain ⟨s, hstore, hs, _⟩ := InPlace.storeStream_eq hreliable k data
    simp only [Medium.store, hstore]
    exact LawfulBacking.cooperative disk.handle site.host hs
  fetch {disk site} k hreliable := by
    obtain ⟨s, hfetch, _, hsame⟩ := InPlace.fetchStream_eq hreliable k
    obtain ⟨hself, hother⟩ := LawfulBacking.contents disk.handle site.host hsame
    refine ⟨_, ((disk.stream site.host).contents.extract (k.val * sectorSize)
      (k.val * sectorSize + sectorSize)).size, (disk.restore site.host s).1,
      { site with host := (disk.restore site.host s).2 }, ?_, Buffer.ofDelivered_extract _ _,
      ?_, fun other => ?_⟩
    · simp only [Medium.fetch, hfetch]
    · funext k'
      exact congrArg (fun contents => Bytes.padded contents _ _) (hself.trans hsame)
    · funext k'
      exact congrArg (fun contents => Bytes.padded contents _ _) (hother other.handle)

end HardSector
