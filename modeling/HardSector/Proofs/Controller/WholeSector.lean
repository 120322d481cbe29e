import HardSector.Proofs.Controller.Positioning
import HardSector.Proofs.Controller.Steady
import HardSector.Proofs.Drive.Writing
import HardSector.Proofs.Medium.CopyOnWrite
import HardSector.Proofs.Medium.InPlace

/-!
# When a whole sector is stored as it was written

The bytes that a guest writes are counted from the last write-enable on, whatever sectors
they were meant for. Let the next sector come under the head and write as many bytes as
a sector has: they are stored as they are, with nothing left over, exactly if the bytes
counted before make up whole sectors.
-/

namespace HardSector.Controller

/-! ## The bytes counted -/

section Counted

variable {M R W : Type} {n : Fin driveCount} {count : Nat} {h : Hosted (Controller M R) W}

/-- The count that a drive keeps is the number of bytes it has taken, less whole sectors. -/
def Counted (n : Fin driveCount) (count : Nat) (h : Hosted (Controller M R) W) : Prop :=
  (bay h n).drive.writeCount = count % sectorSize

/-- What is done to a bay without an effect on the count of the drive there. -/
theorem Counted.onBay (hc : Counted n count h) {m : Fin driveCount} {act : Bay M R W → Bay M R W}
    (hact : m = n → (act (bay h m)).drive.writeCount = (bay h m).drive.writeCount) :
    Counted n count (onBay m act h) := by
  unfold Counted
  rw [drive_onBay]
  split
  · next heq =>
    subst heq
    exact (hact rfl).trans hc
  · exact hc

end Counted

variable {M R W : Type} [Medium M R W]

/-- How many bytes a drive has taken since write-enable was last asserted there or its medium was
changed, after one more operation. -/
def tallied (n : Fin driveCount) (h : Hosted (Controller M R) W) (count : Nat) :
    Operation M → Nat
  | .load drive _ => if drive = n then 0 else count
  | .eject drive => if drive = n then 0 else count
  | .command (.function byte) =>
    if h.device.selected = n ∧ (bay h n).drive.isLoaded = true ∧
        (Control.ofByte byte).writeEnable = true then 0
    else count
  | .command (.write _) =>
    if h.device.selected = n ∧ (bay h n).drive.isLoaded = true then count + 1 else count
  | .command _ => count

/-- How many bytes a drive has taken since write-enable was last asserted there or its medium was
changed, in the course of a run that begins with a number of them. -/
def tally (n : Fin driveCount) :
    Hosted (Controller M R) W → Nat → List (Operation M) → Nat
  | _, count, [] => count
  | h, count, op :: ops => tally n (perform h op).2 (tallied n h count op) ops

namespace Counted

variable {n : Fin driveCount} {count : Nat} {h : Hosted (Controller M R) W}

/-- A control byte starts the count again if it enables writing at a loaded drive. -/
theorem function (hc : Counted n count h) (byte : UInt8) :
    Counted n (tallied n h count (.command (.function byte))) (obey h (.function byte)).2 := by
  have hafter : (obey h (.function byte)).2 = HardSector.Controller.onBay h.device.selected
      (fun bay => bay.function (Control.ofByte byte)) h := rfl
  rw [hafter, tallied]
  by_cases henables : h.device.selected = n ∧ (bay h n).drive.isLoaded = true ∧
      (Control.ofByte byte).writeEnable = true
  · rw [if_pos henables]
    obtain ⟨rfl, hloaded, henable⟩ := henables
    unfold Counted
    rw [bay_onBay_self, Bay.writeCount_function hloaded, if_pos henable]
    rfl
  · rw [if_neg henables]
    refine hc.onBay ?_
    rintro rfl
    cases hloaded : (bay h h.device.selected).drive.isLoaded with
    | false => rw [(Bay.unloaded hloaded).1]
    | true =>
      rw [Bay.writeCount_function hloaded, if_neg]
      exact fun henable => henables ⟨rfl, hloaded, henable⟩

/-- A written byte is counted at the selected drive, if this is loaded. -/
theorem write (hc : Counted n count h) (byte : UInt8) :
    Counted n (tallied n h count (.command (.write byte))) (obey h (.write byte)).2 := by
  have hafter : (obey h (.write byte)).2 = HardSector.Controller.onBay h.device.selected
      (fun bay => bay.writeByte byte) h := rfl
  rw [hafter, tallied]
  by_cases htakes : h.device.selected = n ∧ (bay h n).drive.isLoaded = true
  · rw [if_pos htakes]
    obtain ⟨rfl, hloaded⟩ := htakes
    have hcount : (bay h h.device.selected).drive.writeCount = count % sectorSize := hc
    have hlt : (bay h h.device.selected).drive.writeCount < sectorSize := by
      rw [hcount]
      exact Nat.mod_lt _ (by decide)
    unfold Counted
    rw [bay_onBay_self, (Bay.counted_writeByte hloaded hlt byte).2.1, hcount, Nat.mod_add_mod]
  · rw [if_neg htakes]
    refine hc.onBay ?_
    rintro rfl
    have hempty : (bay h h.device.selected).drive.isLoaded = false :=
      Bool.eq_false_iff.mpr fun hloaded => htakes ⟨rfl, hloaded⟩
    rw [(Bay.unloaded hempty).2.2.1]

/-- An operation adds to the count what it should. -/
theorem perform (hc : Counted n count h) (op : Operation M) :
    Counted n (tallied n h count op) (perform h op).2 := by
  cases op with
  | load drive medium =>
    unfold Counted
    rw [drive_perform_load, tallied]
    split
    · rfl
    · exact hc
  | eject drive =>
    unfold Counted
    rw [drive_perform_eject, tallied]
    split
    · rfl
    · exact hc
  | command command =>
    cases command with
    | select byte => exact hc
    | status => exact hc
    | function byte => exact hc.function byte
    | sector =>
      have hkept : Counted n count
          (Controller.onBay h.device.selected (fun bay => bay.nextSector.2) h) :=
        hc.onBay fun _ => Bay.writeCount_nextSector _
      exact hkept
    | read =>
      have hkept : Counted n count
          (Controller.onBay h.device.selected (fun bay => bay.readByte.2) h) :=
        hc.onBay fun _ => Bay.writeCount_readByte _
      exact hkept
    | write byte => exact hc.write byte
    | flush =>
      exact flushAll_induct (P := Counted n count)
        (fun m h hc => hc.onBay fun _ => Bay.writeCount_flush _) hc

/-- A run adds to the count what it should. -/
theorem after (hc : Counted n count h) (ops : List (Operation M)) :
    Counted n (tally n h count ops) (after h ops) := by
  induction ops generalizing h count with
  | nil => exact hc
  | cons op ops ih => exact ih (hc.perform op)

end Counted

/-! ## A sector comes and is written -/

section Approach

variable {h : Hosted (Controller M R) W} {controls : List UInt8}

/-- Bytes are written to the bay of the selected drive. -/
theorem bay_writes (h : Hosted (Controller M R) W) (bytes : List UInt8) :
    (afterCommands h (bytes.map .write)).device.selected = h.device.selected ∧
      bay (afterCommands h (bytes.map .write)) h.device.selected =
        (bay h h.device.selected).writeBytes bytes := by
  induction bytes generalizing h with
  | nil => exact ⟨rfl, rfl⟩
  | cons byte bytes ih =>
    obtain ⟨hselected, hbay⟩ := ih (obey h (.write byte)).2
    have hone : bay (obey h (.write byte)).2 h.device.selected =
        (bay h h.device.selected).writeByte byte :=
      bay_onBay_self h.device.selected (fun bay => bay.writeByte byte) h
    refine ⟨hselected, hbay.trans ?_⟩
    change (bay (obey h (.write byte)).2 h.device.selected).writeBytes bytes = _
    rw [hone]
    rfl

/-- Control bytes that do not step change nothing at the selected bay but the status register and
the count of written bytes. -/
theorem bay_controls (hloaded : h.device.selectedDrive.isLoaded = true)
    (hstill : ∀ control ∈ controls, (Control.ofByte control).stepIn = false ∧
      (Control.ofByte control).stepOut = false) :
    (afterCommands h (controls.map .function)).device.selected = h.device.selected ∧
      ∃ status count, bay (afterCommands h (controls.map .function)) h.device.selected =
        (bay h h.device.selected).update fun drive =>
          { drive with status := status, writeCount := count } := by
  induction controls generalizing h with
  | nil => exact ⟨rfl, _, _, rfl⟩
  | cons control controls ih =>
    obtain ⟨hin, hout⟩ := hstill control List.mem_cons_self
    have hone : bay (obey h (.function control)).2 h.device.selected =
        (bay h h.device.selected).update (Drive.move (.obey (Control.ofByte control))) := by
      rw [obey_function_of_still hloaded hin hout, bay_onBay_self]
    have hstillLoaded : (obey h (.function control)).2.device.selectedDrive.isLoaded = true :=
      (congrArg (fun bay => bay.drive.isLoaded) hone).trans hloaded
    obtain ⟨hselected, status, count, hbay⟩ := ih hstillLoaded fun control hmem =>
      hstill control (List.mem_cons_of_mem _ hmem)
    refine ⟨hselected, status, count, hbay.trans ?_⟩
    change (bay (obey h (.function control)).2 h.device.selected).update _ = _
    rw [hone]
    rfl

/-- The next sector comes under the head of a loaded drive, and control bytes follow that do not
step: what was pending has been stored, and the buffer is at its start and empty. -/
theorem bay_approach (hloaded : h.device.selectedDrive.isLoaded = true)
    (hstill : ∀ control ∈ controls, (Control.ofByte control).stepIn = false ∧
      (Control.ofByte control).stepOut = false) :
    (afterCommands h (.sector :: controls.map .function)).device.selected = h.device.selected ∧
      ∃ status count,
        bay (afterCommands h (.sector :: controls.map .function)) h.device.selected =
          ((bay h h.device.selected).flush.update Drive.advanced).update fun drive =>
            { drive with status := status, writeCount := count } := by
  have hone : bay (obey h .sector).2 h.device.selected =
      (bay h h.device.selected).flush.update Drive.advanced := by
    have hself : bay (obey h .sector).2 h.device.selected =
        (bay h h.device.selected).nextSector.2 :=
      bay_onBay_self h.device.selected (fun bay => bay.nextSector.2) h
    rw [hself,
      Bay.nextSector_eq (show (bay h h.device.selected).drive.isLoaded = true from hloaded)]
  obtain ⟨hselected, status, count, hbay⟩ := bay_controls (obey_sector hloaded).2.loaded hstill
  refine ⟨hselected, status, count, hbay.trans ?_⟩
  change (bay (obey h .sector).2 h.device.selected).update _ = _
  rw [hone]

/-- A whole sector is written after it has come under the head. Nothing is pending in the end
exactly if the count of written bytes stood at zero, and then the bytes went to the medium in one
store. -/
theorem writes_whole_sector (hloaded : h.device.selectedDrive.isLoaded = true)
    (hstill : ∀ control ∈ controls, (Control.ofByte control).stepIn = false ∧
      (Control.ofByte control).stepOut = false) (bytes : Sector) {written : Nat}
    (hcounted : Counted h.device.selected written
      (afterCommands h (.sector :: controls.map .function))) :
    let before := afterCommands h (.sector :: controls.map .function)
    let last := afterCommands before (bytes.toList.map .write)
    let flushed := (bay h h.device.selected).flush
    (last.device.selectedDrive.dirty = false ↔ sectorSize ∣ written) ∧
      (sectorSize ∣ written → ∀ medium, flushed.drive.medium = some medium →
        let stored := Medium.store medium flushed.site
          (Geometry.eightInch.offset h.device.selectedDrive.track h.device.selectedDrive.coming)
          bytes.toArray
        last.device.selectedDrive.medium = some stored.medium ∧
          last.device.shared = stored.site.shared ∧ last.host = stored.site.host) := by
  intro before last flushed
  obtain ⟨hselected, status, count, hbefore⟩ := bay_approach hloaded hstill
  obtain ⟨hsame, hlast⟩ := bay_writes before bytes.toList
  rw [hselected] at hsame hlast
  have hdrive : last.device.selectedDrive = (bay last h.device.selected).drive := by
    rw [← hsame]
    rfl
  have hstillLoaded : (bay before h.device.selected).drive.isLoaded = true := by
    rw [hbefore]
    exact (Bay.isLoaded_flush _).trans hloaded
  have hcount : (bay before h.device.selected).drive.writeCount = written % sectorSize := hcounted
  have hround : sectorSize ∣ written ↔ written % sectorSize = 0 := Nat.dvd_iff_mod_eq_zero
  refine ⟨?_, fun hwhole medium hmedium => ?_⟩
  · have hlt : (bay before h.device.selected).drive.writeCount < sectorSize := by
      rw [hcount]
      exact Nat.mod_lt _ (by decide)
    have hsome : bytes.toList ≠ [] := by
      intro hnil
      have hlength := congrArg List.length hnil
      rw [Vector.length_toList] at hlength
      cases hlength
    obtain ⟨_, _, hclean⟩ := Bay.counted_writeBytes hstillLoaded hlt bytes.toList
    rw [hdrive, hlast, hclean hsome, hcount, Vector.length_toList, Nat.add_mod_right, Nat.mod_mod,
      hround]
  · have hoffset : (bay before h.device.selected).drive.offset = Geometry.eightInch.offset
        h.device.selectedDrive.track h.device.selectedDrive.coming := by
      obtain ⟨_, htrack, hsector, _⟩ := Bay.registers_flush (bay h h.device.selected)
      rw [hbefore]
      change flushed.drive.advanced.offset = _
      unfold Drive.advanced Drive.coming
      rw [htrack, hsector]
      rfl
    have hzero := hcount.trans (hround.mp hwhole)
    have hthere : (bay before h.device.selected).drive.medium = some medium := by
      rw [hbefore]
      exact hmedium
    have hpointer : (bay before h.device.selected).drive.pointer = 0 := by
      rw [hbefore]
      rfl
    have hstores := Bay.writeBytes_stores hthere hpointer hzero bytes
    have hsite : (bay before h.device.selected).site = flushed.site := by
      rw [hbefore]
      rfl
    rw [hoffset, hsite, ← hlast] at hstores
    rw [hdrive]
    exact hstores

end Approach

/-- A stream on which nothing fails is such a stream still when the buffer has been flushed. -/
theorem cooperative_flush {W : Type} {bay : Bay (InPlace Stream) Unit W} (hsound : bay.drive.Sound)
    (hwilling : ∀ file, bay.drive.medium = some file → file.handle.Cooperative)
    {file : InPlace Stream} (hfile : bay.flush.drive.medium = some file) :
    file.handle.Cooperative := by
  rw [Bay.flush_eq] at hfile
  split at hfile
  · next hdirty =>
    obtain ⟨old, hold⟩ := Option.isSome_iff_exists.mp (hsound.loaded_of_dirty hdirty)
    obtain ⟨hmedium, _⟩ := Bay.storeSector_leaves hold
    obtain ⟨s, length, hstore, hs, _⟩ :=
      InPlace.store_eq (hwilling old hold) bay.site bay.drive.place bay.drive.buffer.window
    rw [← hsound.offset_eq] at hstore
    have hstored : bay.storeSector.drive.medium = some { old with handle := s, length := length } :=
      hmedium.trans (congrArg (fun stored => some stored.medium) hstore)
    obtain rfl := Option.some.inj (hfile.symm.trans hstored)
    exact hs
  · exact hwilling file hfile

/-- A store on a copy-on-write medium leaves the bytes of the sector in its patch, if there is room.
-/
theorem Steady.patch_store {W : Type} {capacity : Nat} {places : Finset Place}
    {h : Hosted (Controller CopyOnWrite PatchPool) W}
    (hs : Steady (CopyOnWrite.sectored capacity) places h) {n : Fin driveCount}
    {disk : CopyOnWrite} (hdisk : (bay h n).drive.medium = some disk) {index : UInt16}
    (hroom : h.device.shared.patch disk.patches index ≠ none ∨
      h.device.shared.used < h.device.shared.capacity) (bytes : Sector) :
    let change := h.device.shared.store disk.patches index bytes.toArray
    change.pool.patch change.table index = some bytes := by
  intro change
  obtain ⟨chains, harena⟩ := hs.sane.arena
  have htable : disk.patches = CopyOnWrite.tables (rack h) n := CopyOnWrite.patches_eq hdisk
  have hchange : change =
      (rack h).shared.store (CopyOnWrite.tables (rack h) n) index bytes.toArray :=
    congrArg (fun table => h.device.shared.store table index bytes.toArray) htable
  cases hresult : change.result with
  | false =>
    rw [hchange] at hresult
    have hrefused := harena.store_dropped hresult
    rw [htable] at hroom
    rcases hroom with hpatched | hlt
    · exact absurd hrefused.unpatched hpatched
    · exact absurd hrefused.full (Nat.ne_of_lt hlt)
  | true =>
    rw [hchange] at hresult
    have hpatch := (harena.store_kept hresult).patch n index
    rw [Function.update_self, if_pos ⟨rfl, rfl⟩, PatchPool.overwrite_sector, ← hchange] at hpatch
    exact hpatch

/-- A run that ends with commands goes through them at last. -/
theorem after_append_commands (h : Hosted (Controller M R) W) (ops : List (Operation M))
    (commands : List Command) :
    after h (ops ++ commands.map .command) = afterCommands (after h ops) commands := by
  rw [after, Run.final_append]
  change after (after h ops) (commands.map .command) = _
  generalize after h ops = start
  induction commands generalizing start with
  | nil => rfl
  | cons command commands ih => exact ih (obey start command).2

/-- A run on a new controller that ends with commands is counted from zero on. -/
theorem counted_run (n : Fin driveCount) (shared : R) (base : UInt16) (host : W)
    (ops : List (Operation M)) (commands : List Command) :
    Counted n (tally n (fresh shared base host) 0 (ops ++ commands.map .command))
      (afterCommands (after (fresh shared base host) ops) commands) := by
  have hnew : Counted n 0 (fresh (M := M) shared base host) := by
    simp [Counted, bay, fresh, ofShared]
  rw [← after_append_commands]
  exact hnew.after _

/-- Let the next sector come under the head of a loaded drive, let control bytes follow that do not
step, and write the bytes of a sector. Whatever was done to the controller before, nothing is
pending in the end exactly if the bytes that the drive had taken since write-enable was last
asserted there, or since its medium came in, made up whole sectors. If so, the sector is stored as
it was written: on a copy-on-write medium, as long as the sector has a patch or the pool has room
for one, and on a medium in place, as long as the stream does not fail. -/
theorem whole_sector_stored_iff {W : Type} (base : UInt16) (host : W) (controls : List UInt8)
    (bytes : Sector)
    (hstill : ∀ control ∈ controls, (Control.ofByte control).stepIn = false ∧
      (Control.ofByte control).stepOut = false) :
    (∀ (capacity : Nat) (past : List (Operation CopyOnWrite)),
      let new := fresh (M := CopyOnWrite) (PatchPool.ofCapacity capacity) base host
      let start := after new past
      let before := afterCommands start (.sector :: controls.map .function)
      let last := afterCommands before (bytes.toList.map .write)
      let index := Geometry.eightInch.sectorIndex (Geometry.eightInch.offset
        start.device.selectedDrive.track start.device.selectedDrive.coming)
      let written := tally start.device.selected new 0
        (past ++ (.sector :: controls.map .function).map .command)
      (∀ drive medium, .load drive medium ∈ past → medium.patches = .empty) →
      start.device.selectedDrive.isLoaded = true →
      (∀ disk, before.device.selectedDrive.medium = some disk →
        before.device.shared.patch disk.patches index ≠ none ∨
          before.device.shared.used < before.device.shared.capacity) →
      (last.device.selectedDrive.dirty = false ↔ 137 ∣ written) ∧
        (137 ∣ written → ∃ disk, last.device.selectedDrive.medium = some disk ∧
          last.device.shared.patch disk.patches index = some bytes)) ∧
    ∀ past : List (Operation (InPlace Stream)),
      let new := fresh (M := InPlace Stream) () base host
      let start := after new past
      let before := afterCommands start (.sector :: controls.map .function)
      let last := afterCommands before (bytes.toList.map .write)
      let offset := Geometry.eightInch.offset start.device.selectedDrive.track
        start.device.selectedDrive.coming
      let written := tally start.device.selected new 0
        (past ++ (.sector :: controls.map .function).map .command)
      (∀ file, start.device.selectedDrive.medium = some file → file.handle.Cooperative) →
      start.device.selectedDrive.isLoaded = true →
      (last.device.selectedDrive.dirty = false ↔ 137 ∣ written) ∧
        (137 ∣ written → ∃ file, last.device.selectedDrive.medium = some file ∧
          file.handle.contents.padded offset 137 = bytes) := by
  constructor
  · intro capacity past new start before last index written hfresh hloaded hroom
    have hcounted : Counted start.device.selected written before :=
      counted_run _ _ base host past _
    obtain ⟨hclean, hstores⟩ := writes_whole_sector hloaded hstill bytes hcounted
    refine ⟨hclean, fun hwhole => ?_⟩
    obtain ⟨disk, hdisk⟩ := Option.isSome_iff_exists.mp
      ((Bay.isLoaded_flush (bay start start.device.selected)).trans hloaded)
    obtain ⟨hlast, hshared, _⟩ := hstores hwhole disk hdisk
    obtain ⟨hselected, status, count, happroach⟩ := bay_approach hloaded hstill
    have hsame : (bay before start.device.selected).drive.medium = some disk := by
      rw [happroach]
      exact hdisk
    have hpool : before.device.shared = (bay start start.device.selected).flush.site.shared :=
      congrArg (fun bay => bay.site.shared) happroach
    obtain ⟨places, hs⟩ := (Steady.start (S := CopyOnWrite.sectored (min capacity 65535)) base
      (CopyOnWrite.Patched.start capacity host fun _ _ hmedium => by cases hmedium)).after hfresh
    obtain ⟨places, hs⟩ := hs.afterCommands (.sector :: controls.map .function)
    have hroom : before.device.shared.patch disk.patches index ≠ none ∨
        before.device.shared.used < before.device.shared.capacity := by
      refine hroom disk ?_
      rw [← hselected] at hsame
      exact hsame
    have hpatch := hs.patch_store hsame hroom bytes
    rw [hpool] at hpatch
    refine ⟨_, hlast, ?_⟩
    rw [hshared]
    exact hpatch
  · intro past new start before last offset written hwilling hloaded
    have hcounted : Counted start.device.selected written before :=
      counted_run _ _ base host past _
    obtain ⟨hclean, hstores⟩ := writes_whole_sector hloaded hstill bytes hcounted
    refine ⟨hclean, fun hwhole => ?_⟩
    have hsound : (bay start start.device.selected).drive.Sound := sound_after () base host past _
    obtain ⟨file, hfile⟩ := Option.isSome_iff_exists.mp
      ((Bay.isLoaded_flush (bay start start.device.selected)).trans hloaded)
    obtain ⟨hlast, _⟩ := hstores hwhole file hfile
    obtain ⟨k, hk⟩ : ∃ k : Fin diskSectors, k.val * sectorSize = offset :=
      ⟨_, Geometry.place_mul hsound.track_le (Drive.coming_lt _)⟩
    obtain ⟨s, length, hstore, _, hbytes⟩ :=
      InPlace.store_eq (cooperative_flush hsound hwilling hfile)
        (bay start start.device.selected).flush.site k bytes
    have hpadded := Bytes.padded_splice hbytes k
    rw [hk] at hstore hpadded
    refine ⟨_, hlast.trans (congrArg (fun stored => some stored.medium) hstore), ?_⟩
    rw [hpadded, if_pos rfl]

/-- A sector is begun and left, on a copy-on-write medium and in a stream, and the next one is
written after another write-enable. -/
theorem whole_sector_stored_after_write_enable :
    let bytes : Sector := Vector.replicate sectorSize 7
    let controls : List UInt8 := [0x80]
    let file : InPlace Stream := { handle := { contents := #[1, 2, 3] }, length := 3 }
    let past : List (Operation CopyOnWrite) :=
      [.load 0 { image := #[1, 2, 3] }, .command .sector, .command (.write 9)]
    let past' : List (Operation (InPlace Stream)) :=
      [.load 0 file, .command .sector, .command (.write 9)]
    let start := after (fresh (W := Unit) (PatchPool.ofCapacity 2) 8 ()) past
    let last := afterCommands (afterCommands start (.sector :: controls.map .function))
      (bytes.toList.map .write)
    let start' := after (fresh (W := Unit) () 8 ()) past'
    let last' := afterCommands (afterCommands start' (.sector :: controls.map .function))
      (bytes.toList.map .write)
    last.device.selectedDrive.dirty = false ∧
      (∃ disk, last.device.selectedDrive.medium = some disk ∧
        last.device.shared.patch disk.patches 1 = some bytes) ∧
      last'.device.selectedDrive.dirty = false ∧
      ∃ written, last'.device.selectedDrive.medium = some written ∧
        written.handle.contents.padded 137 137 = bytes := by
  intro bytes controls file past past'
  have hstill : ∀ control ∈ controls, (Control.ofByte control).stepIn = false ∧
      (Control.ofByte control).stepOut = false := by
    intro control hcontrol
    obtain rfl : control = 0x80 := List.mem_singleton.mp hcontrol
    exact ⟨rfl, rfl⟩
  obtain ⟨hpatched, hplaced⟩ := whole_sector_stored_iff (W := Unit) 8 () controls bytes hstill
  have hfresh : ∀ drive medium, .load drive medium ∈ past → medium.patches = .empty := by
    intro drive medium hload
    obtain ⟨rfl, rfl⟩ : drive = 0 ∧ medium = { image := #[1, 2, 3] } := by simpa [past] using hload
    rfl
  obtain ⟨hclean, hstored⟩ := hpatched 2 past hfresh (by decide +kernel)
    fun disk _ => Or.inr (by decide +kernel)
  have hwilling : ∀ file', (after (fresh (W := Unit) () 8 ()) past').device.selectedDrive.medium =
      some file' → file'.handle.Cooperative := by
    intro file' hfile
    have hmedium : (after (fresh (W := Unit) () 8 ()) past').device.selectedDrive.medium =
      some file := rfl
    obtain rfl := Option.some.inj (hmedium.symm.trans hfile)
    exact ⟨nofun, nofun, nofun, nofun, fun _ _ => ⟨rfl, rfl⟩⟩
  obtain ⟨hclean', hstored'⟩ := hplaced past' hwilling (by decide +kernel)
  have hindex : Geometry.eightInch.sectorIndex (Geometry.eightInch.offset
      (after (fresh (W := Unit) (PatchPool.ofCapacity 2) 8 ()) past).device.selectedDrive.track
      (after (fresh (W := Unit) (PatchPool.ofCapacity 2) 8 ()) past).device.selectedDrive.coming) =
        1 := by decide +kernel
  have hoffset : Geometry.eightInch.offset
      (after (fresh (W := Unit) () 8 ()) past').device.selectedDrive.track
      (after (fresh (W := Unit) () 8 ()) past').device.selectedDrive.coming = 137 := by
    decide +kernel
  rw [hindex] at hstored
  rw [hoffset] at hstored'
  exact ⟨hclean.mpr (by decide +kernel), hstored (by decide +kernel),
    hclean'.mpr (by decide +kernel), hstored' (by decide +kernel)⟩

/-- The same without another write-enable: the byte of the sector that was left counts, so the new
sector is stored before its last byte has come, which stays pending and is at the wrong place. -/
theorem whole_sector_torn_after_aborted_write :
    let bytes : Sector := Vector.replicate sectorSize 7
    let past : List (Operation CopyOnWrite) :=
      [.load 0 { image := #[] }, .command .sector, .command (.write 9)]
    let start := after (fresh (W := Unit) (PatchPool.ofCapacity 2) 8 ()) past
    let last := afterCommands start (.sector :: bytes.toList.map .write)
    start.device.selectedDrive.isLoaded = true ∧
      (obey start .sector).2.device.shared.used < (obey start .sector).2.device.shared.capacity ∧
      last.device.selectedDrive.dirty = true ∧
      (last.device.selectedDrive.medium.map fun disk => last.device.shared.patch disk.patches 1) ≠
        some (some bytes) := by
  decide +kernel

end HardSector.Controller
