import HardSector.Proofs.Controller.Keeping
import HardSector.Proofs.Controller.Positioning

/-!
# Reading and writing whole sectors

Once a sector is under the head, reads bring its bytes one by one. Writes after a
write-enable fill the buffer from its start, and the last byte of the sector stores it.
-/

namespace HardSector

/-- The first bytes of the buffer that a sector was fetched into are the sector. -/
theorem Buffer.take_ofDelivered (bytes : Sector) :
    (Buffer.ofDelivered bytes.toArray).toList.take sectorSize = bytes.toList := by
  apply List.ext_getElem?
  intro i
  rw [List.getElem?_take, Vector.getElem?_toList, Vector.getElem?_toList]
  split
  · next hi => exact getElem?_ofDelivered bytes hi
  · next hi => exact (Vector.getElem?_eq_none (Nat.not_lt.mp hi)).symm

namespace Controller

variable {M R W : Type} [Medium M R W]

/-! ## Reading -/

/-- The selected drive is loaded and, once ready, has a buffer with its pointer at some place. -/
structure Streams (h : Hosted (Controller M R) W) (buffer : Buffer) (pointer : Nat) : Prop where
  loaded : h.device.selectedDrive.isLoaded = true
  fetched : (bay h h.device.selected).ready.drive.fetched = true
  buffer_eq : (bay h h.device.selected).ready.drive.buffer = buffer
  pointer_eq : (bay h h.device.selected).ready.drive.pointer = pointer

/-- A fetch that succeeds puts the pointer at the start of what was delivered. -/
theorem streams_of_received {h : Hosted (Controller M R) W} {buffer : Buffer}
    (hloaded : h.device.selectedDrive.isLoaded = true)
    (hshell : (bay h h.device.selected).ready.drive.shell =
      (bay h h.device.selected).drive.shell.received buffer true) : Streams h buffer 0 := by
  refine ⟨hloaded, ?_, congrArg Drive.buffer hshell, congrArg Drive.pointer hshell⟩
  have hor : (bay h h.device.selected).ready.drive.fetched =
      ((bay h h.device.selected).drive.fetched || true) := congrArg Drive.fetched hshell
  rw [hor, Bool.or_true]

/-- A read brings the byte at the pointer of the buffer that is ready, and passes it. -/
theorem Streams.readByte_eq {h : Hosted (Controller M R) W} {buffer : Buffer} {pointer : Nat}
    (hs : Streams h buffer pointer) (hpointer : pointer < bufferSize) :
    (bay h h.device.selected).readByte =
      (.ok buffer[pointer], (bay h h.device.selected).ready.update Drive.passed) := by
  rw [Bay.readByte_eq hs.loaded, hs.buffer_eq, hs.pointer_eq, Vector.getElem?_eq_getElem hpointer]

/-- The bay of a drive that a byte was read from. -/
theorem Streams.bay_read {h : Hosted (Controller M R) W} {buffer : Buffer} {pointer : Nat}
    (hs : Streams h buffer pointer) (hpointer : pointer < bufferSize) :
    bay (obey h .read).2 h.device.selected =
      (bay h h.device.selected).ready.update Drive.passed := by
  have hself : bay (obey h .read).2 h.device.selected = (bay h h.device.selected).readByte.2 :=
    bay_onBay_self _ (fun bay => bay.readByte.2) h
  rw [hself, hs.readByte_eq hpointer]

/-- A read brings the byte at the pointer and moves on. -/
theorem Streams.read {h : Hosted (Controller M R) W} {buffer : Buffer} {pointer : Nat}
    (hs : Streams h buffer pointer) (hpointer : pointer < bufferSize - 1) :
    (obey h .read).1 = .byte (buffer.get ⟨pointer, Nat.lt_of_lt_of_le hpointer (Nat.sub_le _ _)⟩) ∧
      Streams (obey h .read).2 buffer (pointer + 1) := by
  have hlt : pointer < bufferSize := Nat.lt_of_lt_of_le hpointer (Nat.sub_le _ _)
  have hreply : (obey h .read).1 = .ofResult (bay h h.device.selected).readByte.1 := rfl
  have hselected : (obey h .read).2.device.selected = h.device.selected := rfl
  have hafter := hs.bay_read hlt
  have hstill : ((bay h h.device.selected).ready.update Drive.passed).ready =
      (bay h h.device.selected).ready.update Drive.passed := Bay.ready_of_fetched hs.fetched
  refine ⟨by rw [hreply, hs.readByte_eq hlt]; rfl, ?_, ?_, ?_, ?_⟩
  · have hdrive : (obey h .read).2.device.selectedDrive =
        (bay (obey h .read).2 h.device.selected).drive := rfl
    rw [hdrive, hafter]
    exact (Bay.isLoaded_ready _).trans hs.loaded
  · rw [hselected, hafter, hstill]
    exact hs.fetched
  · rw [hselected, hafter, hstill]
    exact hs.buffer_eq
  · rw [hselected, hafter, hstill]
    have hmin : min (pointer + 1) (bufferSize - 1) = pointer + 1 := Nat.min_eq_left hpointer
    rw [← hmin, ← hs.pointer_eq]
    rfl

/-- Reads bring the bytes from the pointer on. -/
theorem Streams.answers {h : Hosted (Controller M R) W} {buffer : Buffer} {pointer : Nat}
    (hs : Streams h buffer pointer) {count : Nat} (hcount : pointer + count ≤ bufferSize - 1) :
    Run.answers obey h (List.replicate count .read) =
      ((buffer.toList.drop pointer).take count).map .byte := by
  induction count generalizing h pointer with
  | zero => rfl
  | succ count ih =>
    have hpointer : pointer < bufferSize - 1 := by omega
    obtain ⟨hbyte, hnext⟩ := hs.read hpointer
    have hlength : pointer < buffer.toList.length := by
      rw [Vector.length_toList]
      omega
    rw [List.replicate_succ, Run.answers, hbyte, ih hnext (by omega),
      List.drop_eq_getElem_cons hlength, List.take_succ_cons, List.map_cons]
    rfl

/-- With a sector under the head and nothing read of it yet, the next reads bring its bytes. -/
theorem reads_sector {S : Sectored M R W} {places : Finset Place}
    {h : Hosted (Controller M R) W} (hs : Steady S places h) {bytes : Sector}
    (hview : view S h h.device.selected h.device.selectedDrive.place = some bytes)
    (hfetched : h.device.selectedDrive.fetched = false) :
    Run.answers obey h (List.replicate sectorSize .read) = bytes.toList.map .byte := by
  obtain ⟨_, _, _, hready⟩ := hs.ready h.device.selected
  have hshell := hready bytes hview hfetched
  rw [bay_onBay_self] at hshell
  have hloaded : h.device.selectedDrive.isLoaded = true := by
    have hsome := isSome_view S h h.device.selected h.device.selectedDrive.place
    rw [hview] at hsome
    exact hsome.symm
  have hstreams := streams_of_received hloaded hshell
  rw [hstreams.answers (by decide), List.drop_zero, Buffer.take_ofDelivered]

/-! ## Writing -/

/-- The selected drive takes the bytes of a sector: so many have been written since the
write-enable, from the start of the buffer on, and none has been stored. -/
structure Filling (S : Sectored M R W) (k : Fin diskSectors) (bytes : Sector) (lost count : Nat)
    (h : Hosted (Controller M R) W) : Prop where
  steady : ∃ places, Steady S places h
  loaded : h.device.selectedDrive.isLoaded = true
  place : h.device.selectedDrive.place = k
  pointer : h.device.selectedDrive.pointer = count
  written : h.device.selectedDrive.writeCount = count
  filled : ∀ i < count, h.device.selectedDrive.buffer[i]? = bytes[i]?
  lost_eq : S.lost h.device.shared = lost

namespace Filling

variable {S : Sectored M R W} {k : Fin diskSectors} {bytes : Sector} {lost count : Nat}
  {h : Hosted (Controller M R) W}

/-- What a taken byte leaves in the buffer. -/
theorem filled_take (hf : Filling S k bytes lost count h) {byte : UInt8}
    (hbyte : bytes[count]? = some byte) :
    ∀ i < count + 1, (h.device.selectedDrive.move (.take byte)).buffer[i]? = bytes[i]? := by
  have hcount : count < sectorSize := (Vector.getElem?_eq_some_iff.mp hbyte).1
  have hplace : min h.device.selectedDrive.pointer (bufferSize - 1) = count := by
    rw [hf.pointer]
    exact Nat.min_eq_left (Nat.le_trans (Nat.le_of_lt hcount) (by decide))
  have hbuffer : (h.device.selectedDrive.move (.take byte)).buffer =
      h.device.selectedDrive.buffer.setIfInBounds count byte := by
    rw [← hplace]
    rfl
  rw [hbuffer]
  exact Buffer.prefix_set hbyte hf.filled

/-- What a taken byte leaves of the controller. -/
theorem steady_take (hf : Filling S k bytes lost count h) (byte : UInt8) :
    ∃ places, Steady S places
      (onBay h.device.selected (Bay.update (Drive.move (.take byte))) h) := by
  obtain ⟨places, hs⟩ := hf.steady
  exact ⟨places, hs.move ((hs.sound _).written hf.loaded byte)⟩

/-- A byte before the last is taken into the buffer. -/
theorem write (hf : Filling S k bytes lost count h) (hcount : count + 1 < sectorSize)
    {byte : UInt8} (hbyte : bytes[count]? = some byte) :
    Filling S k bytes lost (count + 1) (obey h (.write byte)).2 := by
  have hwrite : (obey h (.write byte)).2 =
      onBay h.device.selected (Bay.update (Drive.move (.take byte))) h := by
    refine onBay_congr (fun bay => bay.writeByte byte) _ ?_
    have hnot : (bay h h.device.selected).drive.writeCount + 1 ≠ sectorSize := by
      have hwritten : (bay h h.device.selected).drive.writeCount = count := hf.written
      omega
    exact (Bay.writeByte_eq _ hf.loaded).trans (if_neg hnot)
  have hdrive : (obey h (.write byte)).2.device.selectedDrive =
      h.device.selectedDrive.move (.take byte) := by
    rw [hwrite]
    exact congrArg Bay.drive (bay_onBay_self _ _ h)
  have hshared : (obey h (.write byte)).2.device.shared = h.device.shared := by
    rw [hwrite]
    rfl
  refine ⟨hwrite ▸ hf.steady_take byte, ?_, ?_, ?_, ?_, ?_, hshared ▸ hf.lost_eq⟩
  · rw [hdrive]
    exact hf.loaded
  · rw [hdrive]
    exact hf.place
  · rw [hdrive]
    have hpointer : min h.device.selectedDrive.pointer (bufferSize - 1) + 1 = count + 1 := by
      have hsize : bufferSize = sectorSize + 2 := rfl
      rw [hf.pointer, Nat.min_eq_left (by omega)]
    exact hpointer
  · rw [hdrive]
    exact congrArg (· + 1) hf.written
  · rw [hdrive]
    exact hf.filled_take hbyte

/-- The last byte stores the sector, unless there is no room. -/
theorem finish (hf : Filling S k bytes lost (sectorSize - 1) h) {byte : UInt8}
    (hbyte : bytes[sectorSize - 1]? = some byte) :
    (∃ places, Steady S places (obey h (.write byte)).2) ∧
      (obey h (.write byte)).2.device.selectedDrive.dirty = false ∧
      (S.lost (obey h (.write byte)).2.device.shared = lost →
        view S (obey h (.write byte)).2 h.device.selected k = some bytes) := by
  obtain ⟨places, hs⟩ := hf.steady_take byte
  let taken := onBay h.device.selected (Bay.update (Drive.move (.take byte))) h
  let flushed := onBay h.device.selected Bay.flush taken
  have hwrite : (obey h (.write byte)).2 =
      onBay h.device.selected (Bay.update (Drive.move .complete)) flushed := by
    have hfull : (bay h h.device.selected).drive.writeCount + 1 = sectorSize := by
      have hwritten : (bay h h.device.selected).drive.writeCount = sectorSize - 1 := hf.written
      rw [hwritten]
      rfl
    have hmotions : onBay h.device.selected (Bay.update (Drive.move .complete)) flushed =
        onBay h.device.selected (fun bay =>
          ((bay.update (Drive.move (.take byte))).flush).update (Drive.move .complete)) h := by
      have hfirst := onBay_comp h.device.selected (Bay.update (Drive.move (.take byte))) h Bay.flush
      have hsecond := onBay_comp h.device.selected
        (fun bay => (bay.update (Drive.move (.take byte))).flush) h
        (Bay.update (Drive.move .complete))
      rw [hsecond, hfirst]
    rw [hmotions]
    refine onBay_congr (fun bay => bay.writeByte byte) _ ?_
    exact (Bay.writeByte_eq _ hf.loaded).trans (if_pos hfull)
  have hdrive : (bay taken h.device.selected).drive =
      h.device.selectedDrive.move (.take byte) := congrArg Bay.drive (bay_onBay_self _ _ h)
  have hwindow : (bay taken h.device.selected).drive.buffer.window = bytes := by
    rw [hdrive]
    exact Buffer.window_eq (hf.filled_take hbyte)
  obtain ⟨kept, hflushed, _, hlost, hview⟩ := hs.flush h.device.selected
  have hclean : (bay flushed h.device.selected).drive.dirty = false := by
    rw [bay_onBay_self]
    exact Bay.dirty_flush _
  have hstill : (bay flushed h.device.selected).drive.isLoaded = true := by
    rw [bay_onBay_self, Bay.isLoaded_flush, hdrive]
    exact hf.loaded
  rw [hwrite]
  refine ⟨⟨_, hflushed.move ((hflushed.sound _).completed hstill)⟩, ?_, fun hkept => ?_⟩
  · have hlast : (onBay h.device.selected (Bay.update (Drive.move .complete))
        flushed).device.selectedDrive = (bay flushed h.device.selected).drive.move .complete :=
      congrArg Bay.drive (bay_onBay_self _ _ flushed)
    rw [hlast]
    exact hclean
  · rw [view, rack_move]
    have hlost : S.lost flushed.device.shared = lost +
        (if (bay taken h.device.selected).drive.dirty = true ∧ kept = false then 1 else 0) := by
      rw [hlost, ← hf.lost_eq]
      rfl
    have hdirty : (bay taken h.device.selected).drive.dirty = true := by
      rw [hdrive]
      rfl
    have hplace : (bay taken h.device.selected).drive.place = k := by
      rw [hdrive]
      exact hf.place
    have hkept : S.lost flushed.device.shared = lost := hkept
    have htrue : kept = true := by
      cases kept with
      | true => rfl
      | false =>
        rw [hkept, if_pos ⟨hdirty, rfl⟩] at hlost
        omega
    exact (hview h.device.selected k).trans (by
      rw [if_pos ⟨hdirty, htrue, rfl, hplace.symm⟩, hwindow])

/-- The bytes before the last, one after the other. -/
theorem writes (hf : Filling S k bytes lost 0 h) {count : Nat} (hcount : count < sectorSize) :
    Filling S k bytes lost count (afterCommands h ((bytes.toList.take count).map .write)) := by
  induction count with
  | zero => exact hf
  | succ count ih =>
    have hlength : count < bytes.toList.length := by
      rw [Vector.length_toList]
      omega
    have hbyte : bytes[count]? = some bytes.toList[count] := by
      rw [Vector.getElem?_eq_getElem (by omega), Vector.getElem_toList]
    have hnext := (ih (by omega)).write hcount hbyte
    rwa [List.take_succ_eq_append_getElem hlength, List.map_append, afterCommands,
      Run.final_append]

/-- All bytes of a sector, one after the other, store the sector unless there is no room. -/
theorem writes_sector (hf : Filling S k bytes lost 0 h) :
    (∃ places, Steady S places (afterCommands h (bytes.toList.map .write))) ∧
      (afterCommands h (bytes.toList.map .write)).device.selectedDrive.dirty = false ∧
      (S.lost (afterCommands h (bytes.toList.map .write)).device.shared = lost →
        view S (afterCommands h (bytes.toList.map .write))
          (afterCommands h (bytes.toList.map .write)).device.selected k = some bytes) := by
  have hlast := hf.writes (show sectorSize - 1 < sectorSize by decide)
  obtain ⟨byte, hbyte, hsplit⟩ := exists_last_byte bytes
  have hafter : afterCommands h (bytes.toList.map .write) =
      (obey (afterCommands h ((bytes.toList.take (sectorSize - 1)).map .write))
        (.write byte)).2 := by
    conv_lhs => rw [hsplit]
    rw [List.map_append, afterCommands, Run.final_append]
    rfl
  rw [hafter]
  exact hlast.finish hbyte

end Filling

/-- A sector under the head and a write-enable begin a transfer from the start of the buffer. -/
theorem filling_enabled {S : Sectored M R W} {places : Finset Place}
    {h : Hosted (Controller M R) W} (hs : Steady S places h)
    (hloaded : h.device.selectedDrive.isLoaded = true) {control : UInt8}
    (henable : (Control.ofByte control).writeEnable = true)
    (hin : (Control.ofByte control).stepIn = false)
    (hout : (Control.ofByte control).stepOut = false) (bytes : Sector) :
    Filling S (obey h .sector).2.device.selectedDrive.place bytes
      (S.lost (afterCommands h [.sector, .function control]).device.shared) 0
      (afterCommands h [.sector, .function control]) := by
  obtain ⟨_, hpositioned⟩ := obey_sector hloaded
  have hsteady := (hs.obey .sector).obey (.function control)
  have hdrive : (obey (obey h .sector).2 (.function control)).2.device.selectedDrive =
      (obey h .sector).2.device.selectedDrive.move (.obey (Control.ofByte control)) := by
    rw [obey_function_of_still hpositioned.loaded hin hout]
    exact congrArg Bay.drive (bay_onBay_self _ _ _)
  have hcount : ((obey h .sector).2.device.selectedDrive.move
      (.obey (Control.ofByte control))).writeCount = 0 := if_pos henable
  refine ⟨⟨_, hsteady⟩, ?_, ?_, ?_, ?_, fun i hi => absurd hi (Nat.not_lt_zero i), rfl⟩
  · exact (congrArg Drive.isLoaded hdrive).trans hpositioned.loaded
  · exact (congrArg Drive.place hdrive).trans rfl
  · exact (congrArg Drive.pointer hdrive).trans hpositioned.pointer_eq
  · exact (congrArg Drive.writeCount hdrive).trans hcount

end Controller

end HardSector
