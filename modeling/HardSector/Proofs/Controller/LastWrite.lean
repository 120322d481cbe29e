import HardSector.Proofs.Controller.Transfer
import HardSector.Proofs.Medium.CopyOnWrite

/-!
# The last write to a sector is read back

A sector written to a copy-on-write medium is read back as it was written, whatever else a
guest and the operator do meanwhile, as long as the pool kept the sector, its medium stays
in its drive and nothing else is written there.
-/

namespace HardSector

/-- A sound drive at the start of a sector has its buffer there. -/
theorem Drive.Positioned.place_mul {M : Type} {drive : Drive M} {track sector : Nat}
    (hpositioned : drive.Positioned track sector) (hsound : drive.Sound) :
    drive.place.val * sectorSize = Geometry.eightInch.offset track sector :=
  hsound.offset_eq.symm.trans hpositioned.offset_eq

namespace Controller

/-- The head comes over the sector that is reported. -/
theorem place_of_reports {M R W : Type} [Medium M R W] {h : Hosted (Controller M R) W}
    (hsound : Sound h) (hloaded : h.device.selectedDrive.isLoaded = true) {s : Nat} (hs : s < 32)
    (hreports : Reports h s) :
    (obey h .sector).2.device.selectedDrive.place.val * sectorSize =
      Geometry.eightInch.offset h.device.selectedDrive.track s := by
  obtain ⟨_, hpositioned⟩ := obey_sector hloaded
  have hmul := hpositioned.place_mul (hsound.perform (.command .sector) _)
  rwa [coming_of_reports hloaded hs hreports] at hmul

section Sectors

variable {M R W : Type} [Medium M R W] {S : Sectored M R W} {n : Fin driveCount}
  {k : Fin diskSectors} {bytes : Sector} {h : Hosted (Controller M R) W}

/-- Bytes that were filled in and stored are kept. -/
theorem keeps_of_filling {lost : Nat} (hf : Filling S k bytes lost 0 h)
    (hstored : S.lost (afterCommands h (bytes.toList.map .write)).device.shared = lost) :
    Keeps S h.device.selected k bytes (afterCommands h (bytes.toList.map .write)) := by
  obtain ⟨hsteady, hclean, hview⟩ := hf.writes_sector
  have hselected : (afterCommands h (bytes.toList.map .write)).device.selected =
      h.device.selected := by
    refine Run.final_induct
      (P := fun h' : Hosted (Controller M R) W => h'.device.selected = h.device.selected) rfl ?_
    intro h' command hcommand heq
    obtain ⟨byte, _, rfl⟩ := List.mem_map.mp hcommand
    exact heq
  rw [← hselected]
  refine ⟨hsteady, hview hstored, fun hpending => ?_⟩
  have hdirty : (afterCommands h (bytes.toList.map .write)).device.selectedDrive.dirty = true :=
    hpending.1
  rw [hclean] at hdirty
  cases hdirty

/-- Kept bytes are read when their sector has come under the head of the selected drive. -/
theorem reads_kept (hkeeps : Keeps S n k bytes h) (hselected : h.device.selected = n) {s : Nat}
    (hs : s < 32)
    (hoffset : k.val * sectorSize =
      Geometry.eightInch.offset h.device.selectedDrive.track s)
    (hreports : Reports h s) :
    Run.answers obey (obey h .sector).2 (List.replicate sectorSize .read) =
      bytes.toList.map .byte := by
  subst hselected
  obtain ⟨_, hpositioned⟩ := obey_sector (h := h) hkeeps.loaded
  have hnext : Keeps S h.device.selected k bytes (obey h .sector).2 :=
    hkeeps.obey fun byte hwrite => nomatch hwrite
  have hplace : (obey h .sector).2.device.selectedDrive.place = k := by
    have hmul := place_of_reports hkeeps.sound hkeeps.loaded hs hreports
    rw [← hoffset] at hmul
    exact Fin.ext (Nat.eq_of_mul_eq_mul_right (by decide) hmul)
  obtain ⟨places, hsteady⟩ := hnext.steady
  refine reads_sector hsteady ?_ hpositioned.fetched_eq
  rw [hplace]
  exact hnext.shown

end Sectors

/-- Last write wins on copy-on-write media. Let a guest let a sector come under the head of a loaded
drive, enable writing without stepping and write the bytes of a sector, and let the pool drop none
of them. Then whatever is done after that, if it writes nothing while the buffer of this drive
lies at the sector and changes media of other drives only: the drive can be selected again and
brought back to the track, and in whatever way that is done, the sector comes again within a turn,
and whenever it comes, the next reads bring exactly these bytes. -/
theorem last_write_is_read {W : Type} (capacity : Nat) (base : UInt16) (host : W)
    (past : List (Operation CopyOnWrite)) (control : UInt8) (bytes : Sector) (s : Nat)
    (later : List (Operation CopyOnWrite)) :
    let start := after (fresh (M := CopyOnWrite) (PatchPool.ofCapacity capacity) base host) past
    let n := start.device.selected
    let track := start.device.selectedDrive.track
    let enabled := afterCommands start [.sector, .function control]
    let written := afterCommands enabled (bytes.toList.map .write)
    let last := after written later
    (∀ drive medium, .load drive medium ∈ past → medium.patches = .empty) →
    start.device.selectedDrive.isLoaded = true →
    s < 32 → Reports start s →
    (Control.ofByte control).writeEnable = true → (Control.ofByte control).stepIn = false →
    (Control.ofByte control).stepOut = false →
    written.device.shared.droppedWrites = enabled.device.shared.droppedWrites →
    SparesAlong (fun medium => medium.patches = .empty) n (Geometry.eightInch.offset track s)
      written later →
    (∃ (select : UInt8) (controls : List UInt8),
      let near := afterCommands last (.select select :: controls.map .function)
      near.device.selected = n ∧ near.device.selectedDrive.track = track) ∧
    ∀ (select : UInt8) (controls : List UInt8),
      let near := afterCommands last (.select select :: controls.map .function)
      near.device.selected = n → near.device.selectedDrive.track = track →
      (∃ count < 32, Reports (afterCommands near (List.replicate count .sector)) s) ∧
      ∀ count, Reports (afterCommands near (List.replicate count .sector)) s →
        Run.answers obey (afterCommands near (List.replicate (count + 1) .sector))
          (List.replicate 137 .read) = bytes.toList.map .byte := by
  intro start n track enabled written last hfresh hloaded hs hreports henable hin hout hkept hspares
  let S : Sectored CopyOnWrite PatchPool W :=
    CopyOnWrite.sectored (min capacity PatchPool.capacityLimit)
  obtain ⟨places, hsteady⟩ :=
    (Steady.start (S := S) base (CopyOnWrite.Patched.start capacity host nofun)).after hfresh
  obtain ⟨_, hpositioned⟩ := obey_sector (h := start) hloaded
  have hoffset := hpositioned.place_mul ((hsteady.obey .sector).sound _)
  have hfilling := filling_enabled hsteady hloaded henable hin hout bytes
  obtain ⟨k, hk⟩ : ∃ k, (obey start .sector).2.device.selectedDrive.place = k := ⟨_, rfl⟩
  rw [hk, coming_of_reports hloaded hs hreports] at hoffset
  rw [hk] at hfilling
  have hkeeps : Keeps S n k bytes last := by
    refine (keeps_of_filling hfilling hkept).after ?_
    rw [hoffset]
    exact hspares
  refine ⟨track_comes hkeeps.sound hkeeps.loaded (Nat.le_of_lt_succ ?_), ?_⟩
  · exact Nat.lt_succ_of_le (hsteady.sound n).track_le
  intro select controls near hselected htrack
  have hnear : Keeps S n k bytes near := by
    refine hkeeps.afterCommands fun byte hmem => ?_
    simp at hmem
  have hnearLoaded : near.device.selectedDrive.isLoaded = true := by
    have hdrive := hnear.loaded
    rwa [← hselected] at hdrive
  refine ⟨sector_comes hnearLoaded hs, fun count hcount => ?_⟩
  obtain ⟨hturned, _, hstill, _⟩ := coming_after_sectors hnearLoaded count
  have hturn : Keeps S n k bytes (afterCommands near (List.replicate count .sector)) := by
    refine hnear.afterCommands fun byte hmem => ?_
    exact nomatch List.eq_of_mem_replicate hmem
  rw [List.replicate_succ', afterCommands, Run.final_append]
  refine reads_kept hturn (hturned.trans hselected) hs ?_ hcount
  rw [hstill, htrack]
  exact hoffset

/-- A sector of an empty image is written and, after a change of media in another drive, read back a
turn later. -/
theorem last_write_is_read_in_empty_image :
    let past : List (Operation CopyOnWrite) := [.load 0 { image := #[] }]
    let bytes : Sector := Vector.replicate sectorSize 7
    let later : List (Operation CopyOnWrite) := [.load 1 { image := #[1] }, .command .flush]
    let start := after (fresh (W := Unit) (PatchPool.ofCapacity 1) 8 ()) past
    let enabled := afterCommands start [.sector, .function 0x80]
    let written := afterCommands enabled (bytes.toList.map .write)
    let near := afterCommands (after written later) [.select 0]
    Run.answers obey (afterCommands near (List.replicate 32 .sector)) (List.replicate 137 .read) =
      bytes.toList.map .byte := by
  intro past bytes later
  have hfresh : ∀ drive medium, .load drive medium ∈ past → medium.patches = .empty := by
    intro drive medium hload
    obtain ⟨rfl, rfl⟩ : drive = 0 ∧ medium = { image := #[] } := by simpa [past] using hload
    rfl
  obtain ⟨_, hnear⟩ := last_write_is_read 1 8 () past 0x80 bytes 0 later hfresh
    (by decide +kernel) (by decide) (by decide +kernel) (by decide) (by decide) (by decide)
    (by decide +kernel) ⟨⟨by decide, rfl⟩, fun byte hwrite => (nomatch hwrite), trivial⟩
  obtain ⟨_, hread⟩ := hnear 0 [] (by decide +kernel) (by decide +kernel)
  exact hread 31 (by decide +kernel)

end Controller

end HardSector
