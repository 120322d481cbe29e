import HardSector.Proofs.Controller.LastWrite
import HardSector.Proofs.Medium.InPlace

/-!
# Reading a sector byte by byte

Once a sector has come under the head of a drive, reads of this drive bring the bytes of
the sector in order, and zeros after the last, however many reads there are. Only the first
of them fetches the sector. What is done to other drives in between, and to the pool they
share, makes no difference, be it before the fetch or after it.
-/

namespace HardSector

/-- The byte at a pointer that has passed so many bytes of a sector, or has stopped in the slack. -/
theorem Buffer.getElem?_ofDelivered_min (bytes : Sector) (count : Nat) :
    (Buffer.ofDelivered bytes.toArray)[min count (bufferSize - 1)]? =
      some (bytes[count]?.getD 0) := by
  have hsize : bufferSize = sectorSize + 2 := rfl
  by_cases hcount : count < sectorSize
  · have hmin : min count (bufferSize - 1) = count := by omega
    rw [hmin, getElem?_ofDelivered bytes hcount, Vector.getElem?_eq_getElem hcount,
      Option.getD_some]
  · rw [getElem?_ofDelivered_of_le _ (by omega) (by omega),
      Vector.getElem?_eq_none (Nat.not_lt.mp hcount), Option.getD_none]

namespace Controller

section Reading

variable {M R W : Type} [Medium M R W]

/-! ## Runs that only read a drive -/

/-- Operations that do nothing to a drive but read it or look at it. The media of other drives may
change, to fresh ones. -/
def OnlyReads (Fresh : M → Prop) (n : Fin driveCount) (h : Hosted (Controller M R) W) :
    Operation M → Prop
  | .load drive medium => drive ≠ n.val ∧ Fresh medium
  | .eject drive => drive ≠ n.val
  | .command (.function _) => h.device.selected ≠ n
  | .command .sector => h.device.selected ≠ n
  | .command (.write _) => h.device.selected ≠ n
  | .command _ => True

/-- How often an operation reads a drive. -/
def readsBy (n : Fin driveCount) (h : Hosted (Controller M R) W) : Operation M → Nat
  | .command .read => if h.device.selected = n then 1 else 0
  | _ => 0

/-- How often a run reads a drive. -/
def readsAlong (n : Fin driveCount) : Hosted (Controller M R) W → List (Operation M) → Nat
  | _, [] => 0
  | h, op :: ops => readsBy n h op + readsAlong n (perform h op).2 ops

/-- From a controller on, every read of a drive brings the next byte of a sector, and zero after the
last, whatever is done in between that only reads the drive. -/
def ReadsOut (Fresh : M → Prop) (n : Fin driveCount) (bytes : Sector)
    (h : Hosted (Controller M R) W) : Prop :=
  ∀ later, Run.Along perform (OnlyReads Fresh n) h later → (after h later).device.selected = n →
    (obey (after h later) .read).1 = .byte (bytes[readsAlong n h later]?.getD 0)

variable {Fresh : M → Prop} {n : Fin driveCount} {h : Hosted (Controller M R) W} {op : Operation M}

/-- A drive that is not dirty is left as it is by all of these operations that do not read it. -/
theorem drive_perform_of_onlyReads (hop : OnlyReads Fresh n h op) (hread : readsBy n h op = 0)
    (hclean : (bay h n).drive.dirty = false) :
    (bay (perform h op).2 n).drive = (bay h n).drive := by
  cases op with
  | load drive medium => rw [drive_perform_load, if_neg hop.1]
  | eject drive => rw [drive_perform_eject, if_neg hop]
  | command command =>
    change (bay (obey h command).2 n).drive = (bay h n).drive
    rw [obey_eq]
    cases command with
    | select byte => rfl
    | status => rfl
    | function byte => exact drive_onBay_of_ne _ _ (Ne.symm hop)
    | sector => exact drive_onBay_of_ne _ _ (Ne.symm hop)
    | write byte => exact drive_onBay_of_ne _ _ (Ne.symm hop)
    | read =>
      have hne : h.device.selected ≠ n := fun heq => by simp [readsBy, heq] at hread
      exact drive_onBay_of_ne _ _ hne.symm
    | flush =>
      refine flushAll_induct (P := fun h' => (bay h' n).drive = (bay h n).drive)
        (fun m h' heq => ?_) rfl
      by_cases hm : n = m
      · subst hm
        rw [bay_onBay_self, Bay.flush_of_clean (heq ▸ hclean), heq]
      · rw [drive_onBay_of_ne _ _ hm, heq]

/-! ## Counting reads -/

/-- A condition on controllers under which a drive that has nothing fetched would fetch the bytes of
a sector. It outlasts the operations that leave the drive as it is. -/
structure Offers (Fresh : M → Prop) (n : Fin driveCount) (bytes : Sector)
    (Offer : Hosted (Controller M R) W → Prop) : Prop where
  fetch : ∀ {h}, Offer h → (bay h n).drive.fetched = false →
    (bay h n).ready.drive.shell = (bay h n).drive.shell.received (.ofDelivered bytes.toArray) true
  keep : ∀ {h op}, Offer h → OnlyReads Fresh n h op →
    (bay (perform h op).2 n).drive = (bay h n).drive → Offer (perform h op).2

/-- So many reads of a drive have been made since a sector came under its head. Until the first,
what the other drives do could still tell, so the sector has to stay offered; from then on the
buffer stands for it, with the pointer behind the bytes that were read, or stopped in the slack. -/
inductive HasRead (Offer : Hosted (Controller M R) W → Prop) (n : Fin driveCount)
    (bytes : Sector) : Nat → Hosted (Controller M R) W → Prop
  | unfetched {h : Hosted (Controller M R) W} (offer : Offer h)
      (loaded : (bay h n).drive.isLoaded = true) (clean : (bay h n).drive.dirty = false)
      (fetched_eq : (bay h n).drive.fetched = false) : HasRead Offer n bytes 0 h
  | fetched {h : Hosted (Controller M R) W} {count : Nat}
      (loaded : (bay h n).drive.isLoaded = true) (clean : (bay h n).drive.dirty = false)
      (fetched_eq : (bay h n).drive.fetched = true)
      (buffer_eq : (bay h n).drive.buffer = .ofDelivered bytes.toArray)
      (pointer_eq : (bay h n).drive.pointer = min count (bufferSize - 1)) :
      HasRead Offer n bytes count h

namespace HasRead

variable {Offer : Hosted (Controller M R) W → Prop} {bytes : Sector} {count : Nat}

omit [Medium M R W] in
/-- Nothing is pending in the drive. -/
theorem clean (hr : HasRead Offer n bytes count h) : (bay h n).drive.dirty = false := by
  cases hr <;> assumption

/-- Selected, the drive is ready to bring the next byte. -/
theorem streams (hr : HasRead Offer n bytes count h) (ho : Offers Fresh n bytes Offer)
    (hselected : h.device.selected = n) :
    Streams h (.ofDelivered bytes.toArray) (min count (bufferSize - 1)) := by
  subst hselected
  cases hr with
  | unfetched offer loaded clean fetched_eq =>
    rw [Nat.zero_min]
    exact streams_of_received loaded (ho.fetch offer fetched_eq)
  | fetched loaded clean fetched_eq buffer_eq pointer_eq =>
    refine ⟨loaded, ?_, ?_, ?_⟩ <;> rw [Bay.ready_of_fetched fetched_eq] <;> assumption

/-- A read brings the byte whose turn it is. -/
theorem read (hr : HasRead Offer n bytes count h) (ho : Offers Fresh n bytes Offer)
    (hselected : h.device.selected = n) :
    (obey h .read).1 = .byte (bytes[count]?.getD 0) ∧
      HasRead Offer n bytes (count + 1) (obey h .read).2 := by
  have hs := hr.streams ho hselected
  have hclean := hr.clean
  subst hselected
  have hpointer : min count (bufferSize - 1) < bufferSize :=
    Nat.lt_of_le_of_lt (Nat.min_le_right _ _) (by decide)
  have hbay := hs.bay_read hpointer
  constructor
  · have hreply : (obey h .read).1 = .ofResult (bay h h.device.selected).readByte.1 := rfl
    have hbyte := Buffer.getElem?_ofDelivered_min bytes count
    rw [Vector.getElem?_eq_getElem hpointer] at hbyte
    rw [hreply, hs.readByte_eq hpointer, Option.some.inj hbyte]
    rfl
  · have hpassed : min (min count (bufferSize - 1) + 1) (bufferSize - 1) =
        min (count + 1) (bufferSize - 1) := by omega
    refine .fetched ?_ ?_ ?_ ?_ ?_ <;> rw [hbay, Bay.drive_update]
    · exact (Bay.isLoaded_ready _).trans hs.loaded
    · exact (Bay.pending_ready _).1.trans hclean
    · exact hs.fetched
    · exact hs.buffer_eq
    · rw [← hpassed, ← hs.pointer_eq]
      rfl

/-- An operation counts if it reads the drive. -/
theorem perform (hr : HasRead Offer n bytes count h) (ho : Offers Fresh n bytes Offer)
    (hop : OnlyReads Fresh n h op) :
    HasRead Offer n bytes (count + readsBy n h op) (perform h op).2 := by
  by_cases hread : op = .command .read ∧ h.device.selected = n
  · obtain ⟨rfl, hselected⟩ := hread
    rw [readsBy, if_pos hselected]
    exact (hr.read ho hselected).2
  · have hzero : readsBy n h op = 0 := by
      unfold readsBy
      split
      · exact if_neg fun hselected => hread ⟨rfl, hselected⟩
      · rfl
    have hdrive := drive_perform_of_onlyReads hop hzero hr.clean
    rw [hzero, Nat.add_zero]
    cases hr with
    | unfetched offer loaded clean fetched_eq =>
      refine .unfetched (ho.keep offer hop hdrive) ?_ ?_ ?_ <;> rw [hdrive] <;> assumption
    | fetched loaded clean fetched_eq buffer_eq pointer_eq =>
      refine .fetched ?_ ?_ ?_ ?_ ?_ <;> rw [hdrive] <;> assumption

/-- The reads of a run are counted one after the other. -/
theorem after (hr : HasRead Offer n bytes count h) (ho : Offers Fresh n bytes Offer)
    {ops : List (Operation M)} (hops : Run.Along Controller.perform (OnlyReads Fresh n) h ops) :
    HasRead Offer n bytes (count + readsAlong n h ops) (after h ops) := by
  induction ops generalizing h count with
  | nil => exact hr
  | cons op ops ih =>
    rw [readsAlong, ← Nat.add_assoc]
    exact ih (hr.perform ho hops.1) hops.2

end HasRead

/-- A drive that is loaded once a sector has come was so before. -/
theorem loaded_of_sector (hloaded : (obey h .sector).2.device.selectedDrive.isLoaded = true) :
    h.device.selectedDrive.isLoaded = true :=
  (isLoaded_obey h .sector h.device.selected).symm.trans hloaded

/-- A sector that has come under the head is read out, if it is offered. -/
theorem readsOut_of_sector {Offer : Hosted (Controller M R) W → Prop} {bytes : Sector}
    (hloaded : (obey h .sector).2.device.selectedDrive.isLoaded = true)
    (ho : Offers Fresh h.device.selected bytes Offer) (hoffer : Offer (obey h .sector).2) :
    ReadsOut Fresh h.device.selected bytes (obey h .sector).2 := by
  intro later hlater hselected
  obtain ⟨_, hpositioned⟩ := obey_sector (loaded_of_sector hloaded)
  have hstart : HasRead Offer h.device.selected bytes 0 (obey h .sector).2 :=
    .unfetched hoffer hpositioned.loaded hpositioned.dirty_eq hpositioned.fetched_eq
  have hlast := hstart.after ho hlater
  rw [Nat.zero_add] at hlast
  exact (hlast.read ho hselected).1

/-! ## What media offer -/

omit [Medium M R W] in
/-- Operations that only read a drive spare all sectors of it. -/
theorem spares_of_onlyReads (hop : OnlyReads Fresh n h op) (offset : Nat) :
    Spares Fresh n offset h op := by
  cases op with
  | load drive medium => exact hop
  | eject drive => exact hop
  | command command =>
    rintro byte rfl hselected
    exact absurd hselected hop

/-- A sector that is kept is offered while the head stays over it. -/
theorem offers_kept (S : Sectored M R W) (n : Fin driveCount) (k : Fin diskSectors)
    (bytes : Sector) :
    Offers S.Fresh n bytes fun h => Keeps S n k bytes h ∧ (bay h n).drive.place = k where
  fetch {h} hoffer hfetched := by
    obtain ⟨hkeeps, hplace⟩ := hoffer
    obtain ⟨places, hsteady⟩ := hkeeps.steady
    obtain ⟨_, _, _, hready⟩ := hsteady.ready n
    have hshell := hready bytes (hplace ▸ hkeeps.shown) hfetched
    rwa [bay_onBay_self] at hshell
  keep {h op} hoffer hop hdrive := by
    obtain ⟨hkeeps, hplace⟩ := hoffer
    refine ⟨hkeeps.perform (spares_of_onlyReads hop _), ?_⟩
    rw [hdrive]
    exact hplace

end Reading

/-- A sector of a cooperative stream is offered while the head stays over it, whatever the streams
in the other drives do. -/
theorem offers_stream {W : Type} (n : Fin driveCount) (k : Fin diskSectors) (bytes : Sector) :
    Offers (fun _ => True) n bytes fun h : Hosted (Controller (InPlace Stream) Unit) W =>
      ∃ file, (bay h n).drive.medium = some file ∧ file.handle.Cooperative ∧
        (bay h n).drive.offset = k.val * sectorSize ∧
        file.handle.contents.padded (k.val * sectorSize) sectorSize = bytes where
  fetch {h} hoffer hfetched := by
    obtain ⟨file, hmedium, hfile, hoffset, hbytes⟩ := hoffer
    obtain ⟨s, count, hfetch, _, _⟩ := InPlace.fetch_eq hfile (bay h n).site k
    rw [← hoffset] at hfetch
    rw [Bay.shell_ready_of_fetch hmedium hfetched hfetch, hoffset, Buffer.ofDelivered_extract,
      hbytes]
  keep {h op} hoffer _ hdrive := by
    rw [hdrive]
    exact hoffer

/-- Reads bring a sector byte by byte. Let a guest let a sector come under the head of a drive that
holds a copy-on-write medium, or a medium over a cooperative stream. Then its reads of this drive,
without bound, bring the bytes of the sector in order and zeros after the last: those of its patch
or else of the image or the stream, with zeros past the end. In between all drives may be selected,
looked at and flushed, and everything may be done to the other drives, with or without room in the
pool and with streams that fail. A stream belongs to its medium alone: nothing else writes what it
is over, as two media might that are over one file of the host. -/
theorem reads_bring_sector {W : Type} (base : UInt16) (host : W) :
    (∀ (capacity : Nat) (past : List (Operation CopyOnWrite)) (s : Nat) (disk : CopyOnWrite),
      let start := after (fresh (M := CopyOnWrite) (PatchPool.ofCapacity capacity) base host) past
      let track := start.device.selectedDrive.track
      let poised := (obey start .sector).2
      (∀ drive medium, .load drive medium ∈ past → medium.patches = .empty) →
      s < 32 → Reports start s → poised.device.selectedDrive.medium = some disk →
      ReadsOut (fun medium => medium.patches = .empty) start.device.selected
        ((poised.device.shared.patch disk.patches (UInt16.ofNat (track * 32 + s))).getD
          (disk.image.padded (Geometry.eightInch.offset track s) 137)) poised) ∧
    ∀ (past : List (Operation (InPlace Stream))) (s : Nat) (file : InPlace Stream),
      let start := after (fresh () base host) past
      let track := start.device.selectedDrive.track
      let poised := (obey start .sector).2
      s < 32 → Reports start s → poised.device.selectedDrive.medium = some file →
      file.handle.Cooperative →
      ReadsOut (fun _ => True) start.device.selected
        (file.handle.contents.padded (Geometry.eightInch.offset track s) 137) poised := by
  constructor
  · intro capacity past s disk start track poised hfresh hs hreports hmedium
    let S : Sectored CopyOnWrite PatchPool W :=
      CopyOnWrite.sectored (min capacity PatchPool.capacityLimit)
    obtain ⟨places, hstart⟩ :=
      (Steady.start (S := S) base (CopyOnWrite.Patched.start capacity host nofun)).after hfresh
    have hloaded : poised.device.selectedDrive.isLoaded = true := congrArg Option.isSome hmedium
    obtain ⟨_, hpositioned⟩ := obey_sector (loaded_of_sector hloaded)
    have hplace := place_of_reports hstart.sound (loaded_of_sector hloaded) hs hreports
    obtain ⟨k, hk⟩ : ∃ k, poised.device.selectedDrive.place = k := ⟨_, rfl⟩
    rw [hk] at hplace
    have hnumber : UInt16.ofNat (track * 32 + s) = UInt16.ofNat k := by
      rw [← Geometry.sectorIndex_offset, ← hplace, Geometry.sectorIndex_mul]
    have hshown : view S poised start.device.selected k =
        some (disk.shows poised.device.shared poised.host k) := congrArg (Option.map _) hmedium
    have hsettled : poised.device.selectedDrive.dirty = false := hpositioned.dirty_eq
    have hkeeps : Keeps S start.device.selected k _ poised :=
      ⟨⟨_, hstart.obey .sector⟩, hshown, fun hdirty => Bool.false_ne_true (hsettled ▸ hdirty.1)⟩
    rw [hnumber, ← hplace]
    exact readsOut_of_sector hloaded (offers_kept S _ k _) ⟨hkeeps, hk⟩
  · intro past s file start track poised hs hreports hmedium hfile
    have hstart : Sound start := sound_after () base host past
    have hloaded : poised.device.selectedDrive.isLoaded = true := congrArg Option.isSome hmedium
    have hplace := place_of_reports hstart (loaded_of_sector hloaded) hs hreports
    have hoffset := (hstart.perform (.command .sector) start.device.selected).offset_eq
    rw [← hplace]
    exact readsOut_of_sector hloaded (offers_stream _ _ _) ⟨file, hmedium, hfile, hoffset, rfl⟩

/-- Reads of one drive, with a write to another drive and an eject there in between, and with reads
of a failing stream in another drive before more reads than the buffer is long. -/
theorem reads_bring_sector_amid_other_drives :
    let past : List (Operation CopyOnWrite) := [.load 0 { image := #[1, 2, 3] }]
    let later : List (Operation CopyOnWrite) :=
      [.command .read, .load 1 { image := #[] }, .command (.select 1), .command .sector,
        .command (.write 9), .eject 1, .command (.select 0), .command .status, .command .read]
    let file : InPlace Stream :=
      { handle := { contents := #[4, 5], script := { reads := [.limit 1, .interrupt "again"] } }
        length := 2 }
    let failing : InPlace Stream :=
      { handle := { contents := #[6], script := { reads := [.fail "unplugged"] } }, length := 1 }
    let past' : List (Operation (InPlace Stream)) := [.load 0 file, .load 1 failing]
    let later' : List (Operation (InPlace Stream)) :=
      .command (.select 1) :: .command .sector :: .command .read :: .command (.select 0) ::
        List.replicate 150 (.command .read)
    let poised := (obey (after (fresh (W := Unit) (PatchPool.ofCapacity 1) 8 ()) past) .sector).2
    let poised' := (obey (after (fresh (W := Unit) () 8 ()) past') .sector).2
    (obey (after poised later) .read).1 = .byte 3 ∧
      (obey (after poised' later') .read).1 = .byte 0 := by
  intro past later file failing past' later' poised poised'
  obtain ⟨hpatched, hstreamed⟩ := reads_bring_sector (W := Unit) 8 ()
  have hfresh : ∀ drive medium, .load drive medium ∈ past → medium.patches = .empty := by
    intro drive medium hload
    obtain ⟨rfl, rfl⟩ : drive = 0 ∧ medium = { image := #[1, 2, 3] } := by simpa [past] using hload
    rfl
  have hfile : file.handle.Cooperative :=
    ⟨by decide, by decide, by decide, by decide, fun _ _ => ⟨rfl, rfl⟩⟩
  have hother : (1 : Fin driveCount) ≠ 0 := by decide
  have hlater : Run.Along perform (OnlyReads (fun medium => medium.patches = .empty) 0) poised
      later :=
    ⟨trivial, ⟨by decide, rfl⟩, trivial, hother, hother, Nat.one_ne_zero, trivial, trivial, trivial,
      trivial⟩
  have hlater' : Run.Along perform (OnlyReads (fun _ => True) 0) poised' later' := by
    refine ⟨trivial, hother, trivial, trivial, Run.along_of_forall fun h op hop => ?_⟩
    obtain rfl := List.eq_of_mem_replicate hop
    trivial
  have hread := hpatched 1 past 0 { image := #[1, 2, 3] } hfresh (by decide) (by decide +kernel)
    rfl later hlater (by decide +kernel)
  have hread' := hstreamed past' 0 file (by decide) (by decide +kernel) rfl hfile later' hlater'
    (by decide +kernel)
  have hpast (bytes : Sector) : bytes[readsAlong 0 poised' later']?.getD 0 = 0 := by
    have hlong : sectorSize ≤ readsAlong 0 poised' later' := by decide +kernel
    rw [Vector.getElem?_eq_none hlong, Option.getD_none]
  refine ⟨hread.trans (congrArg Reply.byte ?_), hread'.trans (congrArg Reply.byte (hpast _))⟩
  decide +kernel

end Controller

end HardSector
