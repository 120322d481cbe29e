import HardSector.Proofs.Drive.Panel
import HardSector.Proofs.Medium.Sectored

/-!
# Writing byte after byte

The bytes written to a drive are counted round a sector, and the buffer is stored whenever
the count comes round. Whether that is when the buffer is full depends on where the count
stood when the head came to the sector: the two agree only if it began at zero. A transfer
that a control byte opened ends when the count comes round.
-/

namespace HardSector

namespace Drive

variable {M M' : Type} {drive : Drive M} {drive' : Drive M'}

/-- How many bytes of the transfer that is open the drive has taken. No transfer is open while the
write line is negated. -/
def transfer (drive : Drive M) : Option Nat :=
  if drive.status.isAsserted .writeEnable then some drive.writeCount else none

/-- The panel of a drive shows the transfer. -/
theorem transfer_congr (hpanel : drive.panel = drive'.panel) :
    drive.transfer = drive'.transfer := by
  obtain ⟨-, -, -, hstatus, hcount, -, -⟩ := Panel.mk.inj hpanel
  unfold transfer
  rw [hstatus, hcount]

/-- The transfer does not care about the other lines. -/
theorem transfer_of_line (hline : drive.status.isAsserted .writeEnable =
      drive'.status.isAsserted .writeEnable) (hcount : drive.writeCount = drive'.writeCount) :
    drive.transfer = drive'.transfer := by
  unfold transfer
  rw [hline, hcount]

/-- A step leaves the transfer alone. -/
theorem transfer_stepped (drive : Drive M) :
    drive.steppedIn.transfer = drive.transfer ∧ drive.steppedOut.transfer = drive.transfer := by
  constructor
  · exact transfer_of_line (Status.isAsserted_negate_of_ne _ (by decide)) rfl
  · refine transfer_of_line ?_ rfl
    change (if drive.track - 1 = 0 then drive.status.assert .trackZero
      else drive.status).isAsserted .writeEnable = drive.status.isAsserted .writeEnable
    split
    · exact Status.isAsserted_assert_of_ne _ (by decide)
    · rfl

/-- A control byte that enables writing opens a transfer, and another leaves it alone. -/
theorem transfer_commanded (control : Control) (drive : Drive M) :
    (drive.commanded control).transfer =
      if control.writeEnable then some 0 else drive.transfer := by
  unfold commanded
  cases control.writeEnable with
  | true =>
    unfold transfer
    simp only [if_true, Status.isAsserted_assert_self]
  | false => exact transfer_of_line (isAsserted_headCommands (by decide) (by decide) _ _) rfl

/-- A byte taken into the buffer belongs to the transfer that is open. -/
theorem transfer_written (byte : UInt8) (drive : Drive M) :
    (drive.written byte).transfer = drive.transfer.map (· + 1) := by
  unfold transfer written
  split <;> rfl

/-- No transfer is open when one has been completed. -/
theorem transfer_completed (drive : Drive M) : drive.completed.transfer = none := by
  unfold transfer completed negate
  simp only [Status.isAsserted_negate_self, Bool.false_eq_true, if_false]

end Drive

namespace Bay

section Taken

variable {M R W : Type} {start bay : Bay M R W} {bytes : Sector} {count : Nat}

/-- A bay in which the first bytes of a sector have been written since it was in some state, from
the start of the buffer on, and nothing has been stored. -/
structure Taken (start : Bay M R W) (bytes : Sector) (count : Nat) (bay : Bay M R W) : Prop where
  site_eq : bay.site = start.site
  medium_eq : bay.drive.medium = start.drive.medium
  offset_eq : bay.drive.offset = start.drive.offset
  pointer_eq : bay.drive.pointer = count
  count_eq : bay.drive.writeCount = count
  filled : ∀ i < count, bay.drive.buffer[i]? = bytes[i]?

/-- The next byte of the sector comes into the buffer. -/
theorem Taken.take (ht : Taken start bytes count bay) {byte : UInt8}
    (hbyte : bytes[count]? = some byte) :
    Taken start bytes (count + 1) (bay.update (Drive.written byte)) := by
  have hcount : count < sectorSize := (Vector.getElem?_eq_some_iff.mp hbyte).1
  have hplace : min bay.drive.pointer (bufferSize - 1) = count := by
    rw [ht.pointer_eq]
    exact Nat.min_eq_left (Nat.le_trans (Nat.le_of_lt hcount) (by decide))
  refine ⟨ht.site_eq, ht.medium_eq, ht.offset_eq, ?_, congrArg (· + 1) ht.count_eq, ?_⟩
  · exact congrArg (· + 1) hplace
  · have hbuffer : (bay.update (Drive.written byte)).drive.buffer =
        bay.drive.buffer.setIfInBounds count byte := by
      rw [← hplace]
      rfl
    rw [hbuffer]
    exact Buffer.prefix_set hbyte ht.filled

end Taken

variable {M R W : Type} [Medium M R W]

/-! ## Counting -/

/-- A flush keeps the count of written bytes. -/
@[simp] theorem writeCount_flush (bay : Bay M R W) :
    bay.flush.drive.writeCount = bay.drive.writeCount := by
  obtain ⟨medium, hdrive, _⟩ := bay.flush_drive
  rw [hdrive]
  unfold Drive.flushed
  split <;> rfl

/-- Steps keep the count of written bytes. -/
theorem writeCount_step (bay : Bay M R W) :
    bay.stepIn.drive.writeCount = bay.drive.writeCount ∧
      bay.stepOut.drive.writeCount = bay.drive.writeCount := by
  rw [stepIn_eq, stepOut_eq]
  exact ⟨bay.writeCount_flush, bay.writeCount_flush⟩

/-- A control byte starts the count of written bytes again if it enables writing. -/
theorem writeCount_function {bay : Bay M R W} (hloaded : bay.drive.isLoaded = true)
    (control : Control) :
    (bay.function control).drive.writeCount =
      if control.writeEnable then 0 else bay.drive.writeCount := by
  have hstep : ((if control.stepOut then stepOut else id)
      ((if control.stepIn then stepIn else id) bay)).drive.writeCount = bay.drive.writeCount := by
    cases control.stepIn <;> cases control.stepOut <;> simp [writeCount_step]
  rw [function_eq control hloaded, ← hstep]
  rfl

/-- The next sector comes under the head without any effect on the count of written bytes. -/
theorem writeCount_nextSector (bay : Bay M R W) :
    bay.nextSector.2.drive.writeCount = bay.drive.writeCount := by
  cases hloaded : bay.drive.isLoaded with
  | false => rw [(unloaded hloaded).2.1]
  | true =>
    rw [nextSector_eq hloaded]
    exact bay.writeCount_flush

/-- A read keeps the count of written bytes. -/
theorem writeCount_readByte (bay : Bay M R W) :
    bay.readByte.2.drive.writeCount = bay.drive.writeCount := by
  have hready : bay.ready.drive.writeCount = bay.drive.writeCount := by
    cases hloaded : bay.drive.isLoaded with
    | false => rw [ready_of_unloaded hloaded]
    | true =>
      cases hfetched : bay.drive.fetched with
      | true => rw [ready_of_fetched hfetched]
      | false =>
        obtain ⟨buffer, complete, medium, hdrive⟩ := ready_drive hloaded hfetched
        rw [hdrive]
        rfl
  cases hloaded : bay.drive.isLoaded with
  | false => rw [(unloaded hloaded).2.2.2]
  | true =>
    rw [readByte_eq hloaded]
    split
    · exact hready
    · exact hready

/-- The count of written bytes goes round with the size of a sector, and nothing is pending exactly
when it has come round. -/
theorem counted_writeByte {bay : Bay M R W} (hloaded : bay.drive.isLoaded = true)
    (hcount : bay.drive.writeCount < sectorSize) (byte : UInt8) :
    (bay.writeByte byte).drive.isLoaded = true ∧
      (bay.writeByte byte).drive.writeCount = (bay.drive.writeCount + 1) % sectorSize ∧
      ((bay.writeByte byte).drive.dirty = false ↔
        (bay.drive.writeCount + 1) % sectorSize = 0) := by
  rw [writeByte_eq byte hloaded]
  by_cases hfull : bay.drive.writeCount + 1 = sectorSize
  · rw [if_pos hfull, hfull, Nat.mod_self]
    refine ⟨(isLoaded_flush _).trans hloaded, rfl, ?_⟩
    exact ⟨fun _ => rfl, fun _ => dirty_flush (bay.update (Drive.written byte))⟩
  · rw [if_neg hfull, Nat.mod_eq_of_lt (by omega)]
    exact ⟨hloaded, rfl, nofun, nofun⟩

/-- The bay after bytes were written, one after the other. -/
def writeBytes (bay : Bay M R W) (bytes : List UInt8) : Bay M R W := bytes.foldl writeByte bay

/-- The count of written bytes after several of them. -/
theorem counted_writeBytes {bay : Bay M R W} (hloaded : bay.drive.isLoaded = true)
    (hcount : bay.drive.writeCount < sectorSize) (bytes : List UInt8) :
    (bay.writeBytes bytes).drive.isLoaded = true ∧
      (bay.writeBytes bytes).drive.writeCount =
        (bay.drive.writeCount + bytes.length) % sectorSize ∧
      (bytes ≠ [] → ((bay.writeBytes bytes).drive.dirty = false ↔
        (bay.drive.writeCount + bytes.length) % sectorSize = 0)) := by
  induction bytes generalizing bay with
  | nil => exact ⟨hloaded, (Nat.mod_eq_of_lt hcount).symm, fun hne => absurd rfl hne⟩
  | cons byte bytes ih =>
    obtain ⟨hstill, hone, hclean⟩ := counted_writeByte hloaded hcount byte
    have hlt : (bay.writeByte byte).drive.writeCount < sectorSize := by
      rw [hone]
      exact Nat.mod_lt _ (by decide)
    obtain ⟨hlast, hmore, hrest⟩ := ih hstill hlt
    have hsum : ((bay.writeByte byte).drive.writeCount + bytes.length) % sectorSize =
        (bay.drive.writeCount + (byte :: bytes).length) % sectorSize := by
      rw [hone, Nat.mod_add_mod, List.length_cons]
      congr 1
      omega
    refine ⟨hlast, hmore.trans hsum, fun _ => ?_⟩
    cases bytes with
    | nil => exact hclean
    | cons next bytes =>
      rw [← hsum]
      exact hrest (List.cons_ne_nil _ _)

/-! ## The transfer -/

/-- A flush leaves the transfer alone. -/
theorem transfer_flush (bay : Bay M R W) : bay.flush.drive.transfer = bay.drive.transfer := by
  obtain ⟨_, _, _, hstatus⟩ := bay.registers_flush
  unfold Drive.transfer
  rw [hstatus, writeCount_flush]

/-- A read leaves the transfer alone. -/
theorem transfer_readByte (bay : Bay M R W) :
    bay.readByte.2.drive.transfer = bay.drive.transfer := by
  rw [readByte_follow]
  exact Drive.transfer_congr bay.panel_read

/-- The next sector comes under the head without any effect on the transfer. -/
theorem transfer_nextSector (bay : Bay M R W) :
    bay.nextSector.2.drive.transfer = bay.drive.transfer := by
  cases hloaded : bay.drive.isLoaded with
  | false => rw [(unloaded hloaded).2.1]
  | true =>
    rw [nextSector_eq hloaded]
    exact bay.transfer_flush

/-- Whatever else it commands, a control byte opens a transfer if it enables writing and leaves the
transfer alone if not. -/
theorem transfer_function {bay : Bay M R W} (hloaded : bay.drive.isLoaded = true)
    (control : Control) :
    (bay.function control).drive.transfer =
      if control.writeEnable then some 0 else bay.drive.transfer := by
  have hin (bay : Bay M R W) : bay.stepIn.drive.transfer = bay.drive.transfer := by
    rw [stepIn_eq, drive_update, (Drive.transfer_stepped _).1, transfer_flush]
  have hout (bay : Bay M R W) : bay.stepOut.drive.transfer = bay.drive.transfer := by
    rw [stepOut_eq, drive_update, (Drive.transfer_stepped _).2, transfer_flush]
  have hsteps : ((if control.stepOut then stepOut else id)
      ((if control.stepIn then stepIn else id) bay)).drive.transfer = bay.drive.transfer := by
    cases control.stepIn <;> cases control.stepOut <;> simp [hin, hout]
  rw [function_eq control hloaded, drive_update, Drive.transfer_commanded, hsteps]

/-- A written byte is counted by the transfer that is open, and the last byte of a sector ends
it. -/
theorem transfer_writeByte {bay : Bay M R W} (hloaded : bay.drive.isLoaded = true) (byte : UInt8) :
    (bay.writeByte byte).drive.transfer =
      (bay.drive.transfer.map (· + 1)).filter fun count => count ≠ sectorSize := by
  rw [writeByte_eq byte hloaded]
  by_cases hfull : bay.drive.writeCount + 1 = sectorSize
  · rw [if_pos hfull, drive_update, Drive.transfer_completed]
    unfold Drive.transfer
    split
    · rw [Option.map_some, hfull]
      rfl
    · rfl
  · rw [if_neg hfull, drive_update, Drive.transfer_written]
    unfold Drive.transfer
    split
    · rw [Option.map_some, Option.filter_some, if_pos (decide_eq_true hfull)]
    · rfl

/-! ## A whole sector -/

/-- The bytes of a sector but the last, one after the other. -/
theorem Taken.writes {start : Bay M R W} {bytes : Sector} {count : Nat}
    (ht : Taken start bytes 0 start) (hloaded : start.drive.isLoaded = true)
    (hcount : count < sectorSize) :
    Taken start bytes count (start.writeBytes (bytes.toList.take count)) := by
  induction count with
  | zero => exact ht
  | succ count ih =>
    have hlength : count < bytes.toList.length := by
      rw [Vector.length_toList]
      omega
    have hbyte : bytes[count]? = some bytes.toList[count] := by
      rw [Vector.getElem?_eq_getElem (by omega), Vector.getElem_toList]
    have hsome := ih (by omega)
    have hstill : (start.writeBytes (bytes.toList.take count)).drive.isLoaded = true :=
      (congrArg Option.isSome hsome.medium_eq).trans hloaded
    have hnot : (start.writeBytes (bytes.toList.take count)).drive.writeCount + 1 ≠ sectorSize := by
      rw [hsome.count_eq]
      omega
    have hnext := hsome.take hbyte
    rw [List.take_succ_eq_append_getElem hlength, writeBytes, List.foldl_append]
    change Taken start bytes (count + 1)
      ((start.writeBytes (bytes.toList.take count)).writeByte bytes.toList[count])
    rw [writeByte_eq _ hstill, if_neg hnot]
    exact hnext

/-- The bytes of a whole sector, written from the start of the buffer with the count at zero, are
stored where the buffer lies, in one store that nothing else comes before. -/
theorem writeBytes_stores {bay : Bay M R W} {medium : M} (hmedium : bay.drive.medium = some medium)
    (hpointer : bay.drive.pointer = 0) (hcount : bay.drive.writeCount = 0) (bytes : Sector) :
    let stored := Medium.store medium bay.site bay.drive.offset bytes.toArray
    (bay.writeBytes bytes.toList).drive.medium = some stored.medium ∧
      (bay.writeBytes bytes.toList).site.shared = stored.site.shared ∧
      (bay.writeBytes bytes.toList).site.host = stored.site.host := by
  intro stored
  have hloaded : bay.drive.isLoaded = true := congrArg Option.isSome hmedium
  have hstart : Taken bay bytes 0 bay :=
    ⟨rfl, rfl, rfl, hpointer, hcount, fun i hi => absurd hi (Nat.not_lt_zero i)⟩
  obtain ⟨byte, hbyte, hsplit⟩ := exists_last_byte bytes
  have halmost := hstart.writes hloaded (show sectorSize - 1 < sectorSize by decide)
  generalize hbay : bay.writeBytes (bytes.toList.take (sectorSize - 1)) = almost at halmost
  have hlast : bay.writeBytes bytes.toList = almost.writeByte byte := by
    rw [hsplit, writeBytes, List.foldl_append, ← hbay]
    rfl
  have hstill : almost.drive.isLoaded = true :=
    (congrArg Option.isSome halmost.medium_eq).trans hloaded
  have hfull : almost.drive.writeCount + 1 = sectorSize := congrArg (· + 1) halmost.count_eq
  have hwhole := halmost.take hbyte
  have hwindow : (almost.update (Drive.written byte)).drive.buffer.window = bytes :=
    Buffer.window_eq hwhole.filled
  have hsector : (almost.update (Drive.written byte)).drive.buffer.sector = bytes.toArray :=
    congrArg Vector.toArray hwindow
  have hdirty : (almost.update (Drive.written byte)).drive.dirty = true := rfl
  have hstore := storeSector_leaves (hwhole.medium_eq.trans hmedium)
  rw [hwhole.site_eq, hwhole.offset_eq, hsector] at hstore
  rw [hlast, writeByte_eq byte hstill, if_pos hfull, flush_eq, if_pos hdirty]
  exact hstore

end Bay

end HardSector
