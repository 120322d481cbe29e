import HardSector.Medium.InPlace
import HardSector.Proofs.Controller.Sound
import HardSector.Proofs.Controller.TrackZero
import HardSector.Proofs.Drive.Lines

/-!
# The state of every drive

What the fields of a drive have to do with each other, in every state that a controller can come
to. The head is at a sector of the disk and the buffer lies where that sector begins, so that the
number of the sector can be computed from there; the buffer and its pointer, the count of written
bytes and the lines agree with what was done last. Media that fail change nothing of this.
-/

namespace HardSector

/-! ## The sector under the head -/

/-- The number of a sector of the disk fits into sixteen bits. -/
theorem Geometry.toNat_sectorIndex {track sector : Nat} (htrack : track ≤ 76)
    (hsector : sector < 32) :
    (eightInch.sectorIndex (eightInch.offset track sector)).toNat = track * 32 + sector := by
  have hfits : track * 32 + sector < UInt16.size := by
    change _ < 65536
    omega
  rw [sectorIndex_offset, UInt16.toNat_ofNat_of_lt' hfits]

/-- Different sectors of the disk have different numbers. -/
theorem Geometry.sectorIndex_inj {track sector track' sector' : Nat} (htrack : track ≤ 76)
    (hsector : sector < 32) (htrack' : track' ≤ 76) (hsector' : sector' < 32)
    (hindex : eightInch.sectorIndex (eightInch.offset track' sector') =
      eightInch.sectorIndex (eightInch.offset track sector)) :
    track' = track ∧ sector' = sector := by
  have hnumber := congrArg UInt16.toNat hindex
  rw [toNat_sectorIndex htrack' hsector', toNat_sectorIndex htrack hsector] at hnumber
  omega

namespace Drive.Sound

variable {M : Type} {drive : Drive M}

/-- The buffer of a sound drive lies where a sector of its track begins, and no other sector of the
disk has the number that is computed from there. -/
theorem exists_sector (h : drive.Sound) :
    ∃ j < 32, drive.offset = drive.track * 4384 + j * 137 ∧
      137 ∣ drive.offset ∧ drive.offset < 337568 ∧
      (Geometry.eightInch.sectorIndex drive.offset).toNat = drive.track * 32 + j ∧
      ∀ track ≤ 76, ∀ sector < 32,
        Geometry.eightInch.sectorIndex (Geometry.eightInch.offset track sector) =
          Geometry.eightInch.sectorIndex drive.offset →
        track = drive.track ∧ sector = j := by
  obtain ⟨j, hj, hoffset⟩ := h.offset
  have htrack := h.track_le
  rw [hoffset]
  refine ⟨j, hj, rfl, ?_, ?_, Geometry.toNat_sectorIndex htrack hj,
    fun track htrack' sector hsector => Geometry.sectorIndex_inj htrack hj htrack' hsector⟩
  · rw [Geometry.eightInch_offset]
    exact ⟨drive.track * 32 + j, by omega⟩
  · rw [Geometry.eightInch_offset]
    omega

/-- A sound drive without a medium is as it was at the start. -/
theorem blank (h : drive.Sound) (hunloaded : drive.isLoaded = false) :
    drive.status.bits = 0xE7 ∧ drive.track = 0 ∧ drive.sector = 0 ∧ drive.writeCount = 0 ∧
      drive.pointer = 0 ∧ drive.offset = 0 ∧ drive.buffer = .zero ∧ drive.dirty = false := by
  have hshell := h.blank_of_unloaded hunloaded
  exact ⟨congrArg (fun drive => drive.status.bits) hshell, congrArg Drive.track hshell,
    congrArg Drive.sector hshell, congrArg Drive.writeCount hshell, congrArg Drive.pointer hshell,
    congrArg Drive.offset hshell, congrArg Drive.buffer hshell, congrArg Drive.dirty hshell⟩

end Drive.Sound

/-! ## The count and the lines -/

namespace Controller

variable {M R W : Type} [Medium M R W]

/-- The lines that no command moves stay in a loaded drive as loading has set them. -/
theorem lasting_standing :
    Lasting (fun drive : Drive M => drive.isLoaded = true → drive.status.standing = 0x20) R W where
  empty _ := nofun
  loaded _ _ _ := by
    have hloaded : Status.loaded.standing = 0x20 := by decide
    exact hloaded
  flush {bay} hstanding hloaded :=
    bay.standing_flush.trans (hstanding (bay.isLoaded_flush ▸ hloaded))
  obey {bay} command hstanding hloaded :=
    (bay.standing_follow _).trans (hstanding (bay.isLoaded_follow _ ▸ hloaded))

/-- Less than a sector is counted in any drive: a count that reaches it starts again. -/
theorem lasting_counted : Lasting (fun drive : Drive M => drive.writeCount < sectorSize) R W where
  empty _ := Nat.zero_lt_succ _
  loaded _ _ := Nat.zero_lt_succ _
  flush {bay} hcount := bay.writeCount_flush ▸ hcount
  obey {bay} command hcount := by
    rw [Bay.follow_motions]
    cases command with
    | function byte =>
      dsimp only
      cases hloaded : bay.drive.isLoaded with
      | false =>
        rw [(Bay.unloaded hloaded).1]
        exact hcount
      | true =>
        rw [Bay.writeCount_function hloaded]
        split
        · exact Nat.zero_lt_succ _
        · exact hcount
    | sector => exact bay.writeCount_nextSector ▸ hcount
    | read => exact bay.writeCount_readByte ▸ hcount
    | write byte =>
      dsimp only
      cases hloaded : bay.drive.isLoaded with
      | false =>
        rw [(Bay.unloaded hloaded).2.2.1]
        exact hcount
      | true =>
        rw [(Bay.counted_writeByte hloaded hcount byte).2.1]
        exact Nat.mod_lt _ (by decide)
    | _ => exact hcount

/-! ## Runs -/

/-- In a loaded drive the line of track zero tells where the head is, and the lines that no command
moves are as loading has set them. -/
theorem lines_after (shared : R) (base : UInt16) (host : W) (ops : List (Operation M))
    (n : Fin driveCount)
    (hloaded : (bay (after (fresh shared base host) ops) n).drive.isLoaded = true) :
    let drive := (bay (after (fresh shared base host) ops) n).drive
    (drive.status.isAsserted .trackZero = true ↔ drive.track = 0) ∧
      drive.status.isAsserted .moveHead = true ∧ drive.status.isAsserted .sectorTrue = true ∧
      drive.status.isAsserted .interruptEnable = false ∧ drive.status.bits &&& 0x10 = 0 := by
  intro drive
  have hzero : drive.status.isAsserted .trackZero = decide (drive.track = 0) :=
    lasting_honest.after shared base host ops n hloaded
  have hstanding : drive.status.standing = 0x20 :=
    lasting_standing.after shared base host ops n hloaded
  -- Each of these lines, and the bit without one, is told by the standing bits alone.
  have hbits (mask : UInt8) (hstays : 0x3A &&& mask = mask) :
      drive.status.bits &&& mask = 0x20 &&& mask := by
    rw [Status.bits_and_of_standing hstays, hstanding]
  have hline (line : StatusLine) (hstays : 0x3A &&& line.mask = line.mask) :
      drive.status.isAsserted line = (0x20 &&& line.mask == 0) := by
    rw [Status.isAsserted, hbits _ hstays]
  rw [hzero, decide_eq_true_iff, hline .moveHead (by decide), hline .sectorTrue (by decide),
    hline .interruptEnable (by decide), hbits 0x10 (by decide)]
  exact ⟨Iff.rfl, by decide⟩

/-- For every kind of media, whatever these answer, and after every run, the fields of every drive
agree. The head is on the disk and the buffer where a sector of its track begins, which has a number
of its own; less than a sector is counted, and the pointer is at most behind the buffer. Bytes are
pending only in a loaded drive whose buffer stands for the sector, and the pointer of a buffer that
does not has passed one byte at most. A loaded drive has the lines that loading set, but for those
that commands move, and an empty one is as it was at the start. -/
theorem drive_fields_agree (shared : R) (base : UInt16) (host : W) (ops : List (Operation M))
    (n : Fin driveCount) :
    let drive := (bay (after (fresh shared base host) ops) n).drive
    drive.track ≤ 76 ∧ drive.sector ≤ 32 ∧ drive.writeCount < 137 ∧ drive.pointer ≤ 139 ∧
      (∃ j < 32, drive.offset = drive.track * 4384 + j * 137 ∧
        137 ∣ drive.offset ∧ drive.offset < 337568 ∧
        (Geometry.eightInch.sectorIndex drive.offset).toNat = drive.track * 32 + j ∧
        ∀ track ≤ 76, ∀ sector < 32,
          Geometry.eightInch.sectorIndex (Geometry.eightInch.offset track sector) =
            Geometry.eightInch.sectorIndex drive.offset →
          track = drive.track ∧ sector = j) ∧
      (drive.dirty = true → drive.isLoaded = true ∧ drive.fetched = true) ∧
      (drive.fetched = false → drive.pointer ≤ 1) ∧
      (drive.isLoaded = true →
        (drive.status.isAsserted .trackZero = true ↔ drive.track = 0) ∧
        drive.status.isAsserted .moveHead = true ∧ drive.status.isAsserted .sectorTrue = true ∧
        drive.status.isAsserted .interruptEnable = false ∧ drive.status.bits &&& 0x10 = 0) ∧
      (drive.isLoaded = false →
        drive.status.bits = 0xE7 ∧ drive.track = 0 ∧ drive.sector = 0 ∧ drive.writeCount = 0 ∧
        drive.pointer = 0 ∧ drive.offset = 0 ∧ drive.buffer = .zero ∧ drive.dirty = false) := by
  intro drive
  have hsound : drive.Sound := sound_after shared base host ops n
  exact ⟨hsound.track_le, hsound.sector_le, lasting_counted.after shared base host ops n,
    hsound.pointer_le, hsound.exists_sector,
    fun hdirty => ⟨hsound.loaded_of_dirty hdirty, hsound.fetched_of_dirty hdirty⟩,
    hsound.pointer_of_unfetched, lines_after shared base host ops n, hsound.blank⟩

/-- A byte is pending in a drive over track one, a fetch has failed in another after two bytes, and
a third is empty. -/
theorem drive_fields_agree_beside_failed_fetch :
    let file : InPlace Stream := { handle := { contents := #[1, 2, 3] }, length := 3 }
    let failing : InPlace Stream :=
      { handle :=
          { contents := #[17, 34, 51], script := { reads := [.limit 2, .fail "unplugged"] } }
        length := 3 }
    let ops : List (Operation (InPlace Stream)) :=
      [.load 0 file, .command (.function 0x01), .command .sector, .command (.write 7),
        .load 1 failing, .command (.select 1), .command .sector, .command .read]
    let pending := (bay (after (fresh (W := Unit) () 8 ()) ops) 0).drive
    let failed := (bay (after (fresh (W := Unit) () 8 ()) ops) 1).drive
    let empty := (bay (after (fresh (W := Unit) () 8 ()) ops) 2).drive
    (pending.dirty = true ∧ pending.fetched = true ∧ pending.track = 1 ∧
        pending.status.isAsserted .trackZero ≠ true) ∧
      (failed.fetched = false ∧ failed.pointer ≤ 1) ∧ empty.buffer = .zero := by
  intro file failing ops pending failed empty
  obtain ⟨-, -, -, -, -, hpending, -, hlines, -⟩ := drive_fields_agree (W := Unit) () 8 () ops 0
  obtain ⟨-, -, -, -, -, -, hunfetched, -, -⟩ := drive_fields_agree (W := Unit) () 8 () ops 1
  obtain ⟨-, -, -, -, -, -, -, -, hempty⟩ := drive_fields_agree (W := Unit) () 8 () ops 2
  have hdirty : pending.dirty = true := by decide +kernel
  have htrack : pending.track = 1 := by decide +kernel
  have hfailed : failed.fetched = false := by decide +kernel
  obtain ⟨hloaded, hfetched⟩ := hpending hdirty
  obtain ⟨-, -, -, -, -, -, hbuffer, -⟩ := hempty (by decide +kernel)
  refine ⟨⟨hdirty, hfetched, htrack, fun hzero => ?_⟩, ⟨hfailed, hunfetched hfailed⟩, hbuffer⟩
  have houter : pending.track = 0 := (hlines hloaded).1.mp hzero
  exact absurd (htrack.symm.trans houter) (by decide)

end Controller

end HardSector
