import HardSector.Proofs.Controller.Operation
import HardSector.Proofs.Medium.Delivery

/-!
# Reads of sectors that cannot be fetched

A fetch that fails leaves in the buffer what the stream has delivered before, and zeros
behind it. The read that asked for the sector brings the first byte of the buffer all the
same, so it reads zero only if nothing had come yet or the sector begins with a zero.
-/

namespace HardSector

/-- A buffer begins with the first byte that was delivered, or with a zero if there is none. -/
theorem Buffer.getElem?_ofDelivered_zero (bytes : Bytes) :
    (ofDelivered bytes)[0]? = some (bytes.getD 0 0) := by
  have hinside : 0 < bufferSize := by decide
  rw [Vector.getElem?_eq_getElem hinside]
  simp only [ofDelivered, Vector.getElem_ofFn, if_pos (show 0 < sectorSize by decide)]

/-- A read of a sector that cannot be fetched brings the first byte that was delivered. The sector
will be fetched again, and the operator is told. -/
theorem Bay.readByte_of_failed_fetch {M R W : Type} [Medium M R W] {bay : Bay M R W}
    {medium medium' : M} {delivered : Bytes} {cause : DiskError} {site : Site R W}
    (hmedium : bay.drive.medium = some medium) (hfetched : bay.drive.fetched = false)
    (hfetch : Medium.fetch medium bay.site bay.drive.offset sectorSize =
      ⟨delivered, .error cause, medium', site⟩) :
    bay.readByte.1 = .ok (delivered.getD 0 0) ∧ bay.readByte.2.drive.fetched = false ∧
      bay.readByte.2.site = site.note [.readFailed bay.drive.number bay.drive.offset cause] := by
  have hloaded : bay.drive.isLoaded = true := congrArg Option.isSome hmedium
  have hready := ready_of_failed_fetch hmedium hfetched hfetch
  have hbyte : bay.ready.drive.buffer[bay.ready.drive.pointer]? = some (delivered.getD 0 0) := by
    rw [hready]
    exact Buffer.getElem?_ofDelivered_zero delivered
  rw [readByte_eq hloaded, hbyte, hready]
  refine ⟨rfl, ?_, rfl⟩
  exact (Bool.or_false _).trans hfetched

/-- A medium in place that fails to fetch a sector has delivered bytes from its start, though not
all of them. -/
theorem InPlace.delivered_of_failed_fetch {H W : Type} [Backing H W] {file : InPlace H}
    {site : Site Unit W} {offset : Nat} {cause : DiskError}
    (hfailed : (Medium.fetch file site offset sectorSize).outcome = .error cause) :
    ∃ n < sectorSize, (Medium.fetch file site offset sectorSize).delivered.size = n ∧
      (Medium.fetch file site offset sectorSize).delivered =
        (file.stream site.host).contents.extract offset (offset + n) := by
  cases hreading : (fetchStream (file.stream site.host) offset sectorSize).outcome with
  | error cause => exact failed_fetchStream hreading (by decide)
  | ok done =>
    have hok : (Medium.fetch file site offset sectorSize).outcome =
        .ok (fetchStream (file.stream site.host) offset sectorSize).delivered.size := by
      simp only [Medium.fetch, hreading]
    cases hok.symm.trans hfailed

/-- The first byte of a piece is the one where it starts. -/
theorem Bytes.getD_zero_extract {bytes : Bytes} {start n : Nat}
    (hsize : (bytes.extract start (start + n)).size = n) :
    (bytes.extract start (start + n)).getD 0 0 = if n = 0 then 0 else bytes.getD start 0 := by
  rw [Array.size_extract] at hsize
  rw [getD_extract, hsize, Nat.add_zero]
  by_cases hzero : n = 0
  · rw [if_pos hzero, if_neg (by omega)]
  · rw [if_neg hzero, if_pos (by omega)]

namespace Controller

variable {H W : Type} [Backing H W]

/-- Whatever has been done to a controller of media in place, and whatever the calls on a stream
lead to: a read that has to fetch the sector of a loaded drive, and cannot, brings the first byte of
the sector if at least one byte was delivered before the failure, and zero if none was. What was
delivered are the first bytes of the sector, though not all. The sector will be fetched again, and
the operator is told. -/
theorem read_of_failed_fetch (base : UInt16) (host : W) (ops : List (Operation (InPlace H)))
    (file : InPlace H) (cause : DiskError) :
    let h := after (fresh () base host) ops
    let drive := h.device.selectedDrive
    let fetched : Fetched (InPlace H) Unit W :=
      Medium.fetch file ⟨(), h.host, h.notices⟩ drive.offset sectorSize
    let contents := (file.stream h.host).contents
    drive.medium = some file → drive.fetched = false → fetched.outcome = .error cause →
      ∃ n < sectorSize, fetched.delivered.size = n ∧
        fetched.delivered = contents.extract drive.offset (drive.offset + n) ∧
        (obey h .read).1 = .byte (if n = 0 then 0 else contents.getD drive.offset 0) ∧
        ((obey h .read).1 = .byte 0 ↔ n = 0 ∨ contents.getD drive.offset 0 = 0) ∧
        (obey h .read).2.device.selectedDrive.fetched = false ∧
        (obey h .read).2.notices =
          h.notices ++ [.readFailed drive.number drive.offset cause] := by
  intro h drive fetched contents hmedium hfetched hfailed
  obtain ⟨n, hn, hsize, hdelivered⟩ := InPlace.delivered_of_failed_fetch hfailed
  have hfirst : fetched.delivered.getD 0 0 = if n = 0 then 0 else contents.getD drive.offset 0 := by
    have hpiece := hsize
    rw [hdelivered] at hpiece
    exact (congrArg (fun bytes : Bytes => bytes.getD 0 0) hdelivered).trans
      (Bytes.getD_zero_extract hpiece)
  have hfetch : Medium.fetch file (bay h h.device.selected).site
      (bay h h.device.selected).drive.offset sectorSize =
        ⟨fetched.delivered, .error cause, fetched.medium, fetched.site⟩ := by
    rw [← hfailed]
    rfl
  obtain ⟨hbyte, hagain, hsite⟩ :=
    Bay.readByte_of_failed_fetch hmedium hfetched hfetch
  have hafter : (obey h .read).2 = onBay h.device.selected (fun bay => bay.readByte.2) h := rfl
  have hreply : (obey h .read).1 = .byte (if n = 0 then 0 else contents.getD drive.offset 0) := by
    rw [← hfirst]
    exact congrArg Reply.ofResult hbyte
  refine ⟨n, hn, hsize, hdelivered, hreply, ?_, ?_, ?_⟩
  · rw [hreply]
    by_cases hzero : n = 0 <;> simp [hzero]
  · have hdrive :=
      congrArg Bay.drive (bay_onBay_self h.device.selected (fun bay => bay.readByte.2) h)
    exact (congrArg Drive.fetched hdrive).trans hagain
  · exact congrArg Site.notices hsite

/-- A stream is interrupted and then delivers two bytes of a sector before it fails. -/
theorem read_of_failed_fetch_after_two_bytes :
    let file : InPlace Stream :=
      { handle :=
          { contents := #[17, 34, 51]
            script := { reads := [.interrupt "signal", .limit 2, .fail "unplugged"] } }
        length := 3 }
    let h := after (fresh (W := Unit) () 8 ()) [.load 0 file, .command .sector]
    (obey h .read).1 = .byte 17 ∧
      (obey h .read).2.notices = [.readFailed 0 0 (.storage (.fault "unplugged"))] := by
  intro file
  obtain ⟨n, hn, hsize, -, hreply, -, -, hnotices⟩ :=
    read_of_failed_fetch (W := Unit) 8 () [.load 0 file, .command .sector] file
      (.storage (.fault "unplugged")) rfl rfl (by decide +kernel)
  have htwo : n = 2 := by
    rw [← hsize]
    decide +kernel
  rw [htwo, if_neg (by decide)] at hreply
  refine ⟨hreply.trans (congrArg Reply.byte ?_), hnotices.trans ?_⟩
  · decide +kernel
  · decide +kernel

/-- A sector that cannot be fetched does not read as zero: the byte that came before the failure is
read. -/
theorem delivered_byte_is_read :
    let file : InPlace Stream :=
      { handle :=
          { contents := #[17]
            script := { reads := [.limit 1, .fail "unplugged"] } }
        length := 1 }
    let h := after (fresh (W := Unit) () 8 ()) [.load 0 file, .command .sector]
    h.device.selectedDrive.medium = some file ∧ h.device.selectedDrive.fetched = false ∧
      (Medium.fetch file (⟨(), h.host, h.notices⟩ : Site Unit Unit) h.device.selectedDrive.offset
        sectorSize).outcome = .error (.storage (.fault "unplugged")) ∧
      (obey h .read).1 = .byte 17 := by
  exact ⟨rfl, rfl, rfl, rfl⟩

end Controller

end HardSector
