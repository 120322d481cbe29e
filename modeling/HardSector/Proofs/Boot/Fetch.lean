import HardSector.Proofs.Boot.Finding
import HardSector.Proofs.Controller.Transfer
import HardSector.Proofs.Medium.Legible

/-!
# Reading a sector from any state

Wherever the head of drive 0 is, whatever drive is selected and whatever is pending, reading
a sector through the bus brings the bytes that the disk in drive 0 shows once the pending
sector is stored, and changes nothing else that can be seen on any disk.
-/

namespace HardSector

/-- The place of a drive that is positioned is the one of the track and sector. -/
theorem Drive.Positioned.place {M : Type} {drive : Drive M} {track sector : Nat}
    (hp : drive.Positioned track sector) :
    drive.place = Fin.ofNat diskSectors (track * 32 + sector) := by
  unfold Drive.place
  have hindex : (track * 4384 + sector * 137) / 137 = track * 32 + sector := by omega
  rw [hp.offset_eq, Geometry.eightInch_offset]
  exact congrArg (Fin.ofNat diskSectors) hindex

namespace Controller

variable {M R W : Type} [Medium M R W] {h : Hosted (Controller M R) W}

/-! ## Transfers -/

/-- Bytes that reads are answered with are transferred. -/
theorem transfer_of_answers {r : Boot.Registers} (hl : Located r h.device) {bytes : List UInt8}
    (hanswers : Run.answers obey h (List.replicate bytes.length .read) = bytes.map .byte)
    (got : Bytes) :
    Boot.transfer r bytes.length got h =
      (.ok (got ++ bytes.toArray), afterCommands h (List.replicate bytes.length .read)) := by
  induction bytes generalizing h got with
  | nil => simp [Boot.transfer]
  | cons byte bytes ih =>
    rw [List.length_cons, List.replicate_succ, Run.answers, List.map_cons, List.cons.injEq]
      at hanswers
    obtain ⟨hbyte, hrest⟩ := hanswers
    rw [List.length_cons, Boot.transfer, Boot.andThen_of_ok (hl.input_data hbyte),
      ih (hl.obey .read) hrest]
    simp [afterCommands, List.replicate_succ]

/-- Reading from a buffer that is ready leaves the media as they are. -/
theorem rack_read {buffer : Buffer} {pointer : Nat} (hs : Streams h buffer pointer)
    (hpointer : pointer < bufferSize) :
    rack (obey h .read).2 = rack (onBay h.device.selected Bay.ready h) := by
  have hread : (obey h .read).2 =
      onBay h.device.selected (fun bay => bay.readByte.2) h := rfl
  rw [hread, rack_onBay, rack_onBay, hs.readByte_eq hpointer]
  rfl

/-- However many bytes are read, the media are left as they are once the buffer is ready. -/
theorem rack_reads {buffer : Buffer} {pointer : Nat} (hs : Streams h buffer pointer) {count : Nat}
    (hcount : pointer + count < bufferSize - 1) :
    rack (afterCommands h (List.replicate (count + 1) .read)) =
      rack (onBay h.device.selected Bay.ready h) := by
  have hlt : pointer < bufferSize := by omega
  induction count generalizing h pointer with
  | zero => exact rack_read hs hlt
  | succ count ih =>
    obtain ⟨_, hnext⟩ := hs.read (show pointer < bufferSize - 1 by omega)
    have hready : (bay (obey h .read).2 h.device.selected).ready =
        bay (obey h .read).2 h.device.selected := by
      refine Bay.ready_of_fetched ?_
      rw [hs.bay_read hlt]
      exact hs.fetched
    rw [List.replicate_succ, afterCommands, Run.final_cons, ih hnext (by omega) (by omega)]
    change rack (onBay h.device.selected Bay.ready (obey h .read).2) = _
    rw [onBay_of_eq hready, rack_read hs hlt]

/-- The sector in a buffer that is ready is transferred whole. -/
theorem transfer_of_streams {r : Boot.Registers} (hl : Located r h.device) {bytes : Sector}
    (hs : Streams h (.ofDelivered bytes.toArray) 0) :
    Boot.transfer r sectorSize #[] h =
      (.ok bytes.toArray, afterCommands h (List.replicate sectorSize .read)) := by
  have hanswers := hs.answers (show 0 + 137 ≤ bufferSize - 1 by decide)
  rw [List.drop_zero, Buffer.take_ofDelivered] at hanswers
  have hlength : bytes.toList.length = 137 := Vector.length_toList
  rw [← hlength] at hanswers
  have htransfer := transfer_of_answers hl hanswers #[]
  rw [hlength, Array.empty_append] at htransfer
  have harray : bytes.toList.toArray = bytes.toArray := Array.toArray_toList
  rw [harray] at htransfer
  exact htransfer

/-! ## Media that can be read -/

section Shown

variable [Legible M R W]

/-- What the medium in a drive shows of a sector. -/
def shown? (h : Hosted (Controller M R) W) (n : Fin driveCount) (k : Fin diskSectors) :
    Option Sector :=
  (rack h).view Legible.shows n k

/-- The medium in a drive, if there is one, is reliable. -/
def ReliableAt (h : Hosted (Controller M R) W) (n : Fin driveCount) : Prop :=
  ∀ medium, (bay h n).drive.medium = some medium →
    Legible.Reliable medium h.device.shared h.host

/-- A reliable medium is reliable after its drive was flushed. -/
theorem ReliableAt.flush {n : Fin driveCount} (hr : ReliableAt h n)
    (hsound : (bay h n).drive.Sound) : ReliableAt (onBay n Bay.flush h) n := by
  cases hdirty : (bay h n).drive.dirty with
  | false =>
    rw [onBay_of_eq (Bay.flush_of_clean hdirty)]
    exact hr
  | true =>
    obtain ⟨medium, hmedium⟩ := Option.isSome_iff_exists.mp (hsound.loaded_of_dirty hdirty)
    have hbefore : Legible.Reliable medium (bay h n).site.shared (bay h n).site.host :=
      hr medium hmedium
    obtain ⟨stored, hstored⟩ : ∃ stored, Medium.store medium (bay h n).site
        (bay h n).drive.offset (bay h n).drive.buffer.sector = stored := ⟨_, rfl⟩
    have hkept : Legible.Reliable stored.medium stored.site.shared stored.site.host := by
      rw [← hstored, hsound.offset_eq]
      exact Legible.store (bay h n).drive.place (bay h n).drive.buffer.window hbefore
    obtain ⟨hafter, hshared, hhost⟩ := Bay.flush_of_dirty hdirty hmedium hstored
    intro medium' hmedium'
    rw [bay_onBay_self, hafter] at hmedium'
    rw [← Option.some.inj hmedium', shared_onBay, hshared]
    change Legible.Reliable _ _ (Bay.flush (bay h n)).site.host
    rw [hhost]
    exact hkept

/-- A buffer that is made ready from a reliable medium holds the sector that the medium shows, and
no medium shows anything else after it. -/
theorem ready_shows {bay : Bay M R W} {medium : M} (hsound : bay.drive.Sound)
    (hmedium : bay.drive.medium = some medium) (hfetched : bay.drive.fetched = false)
    (hreliable : Legible.Reliable medium bay.site.shared bay.site.host) :
    ∃ buffer medium' site',
      bay.ready = ⟨{ bay.drive.received buffer true with medium := some medium' }, site'⟩ ∧
      buffer = .ofDelivered
        (Legible.shows medium bay.site.shared bay.site.host bay.drive.place).toArray ∧
      Legible.shows medium' site'.shared site'.host =
        Legible.shows medium bay.site.shared bay.site.host ∧
      ∀ other : M, Legible.shows other site'.shared site'.host =
        Legible.shows other bay.site.shared bay.site.host := by
  obtain ⟨delivered, count, medium', site', hfetch, hbuffer, hself, hothers⟩ :=
    Legible.fetch bay.drive.place hreliable
  rw [← hsound.offset_eq] at hfetch
  exact ⟨_, medium', site', Bay.ready_of_fetch hmedium hfetched hfetch, hbuffer, hself, hothers⟩

/-- Whatever was made ready, every disk shows what it showed. -/
theorem view_ready {n : Fin driveCount} {medium medium' : M} {drive : Drive M} {site' : Site R W}
    (hmedium : (bay h n).drive.medium = some medium)
    (hready : (bay h n).ready = ⟨{ drive with medium := some medium' }, site'⟩)
    (hself : Legible.shows medium' site'.shared site'.host =
      Legible.shows medium h.device.shared h.host)
    (hothers : ∀ other : M, Legible.shows other site'.shared site'.host =
      Legible.shows other h.device.shared h.host) (m : Fin driveCount) (k : Fin diskSectors) :
    (rack (onBay n Bay.ready h)).view Legible.shows m k = (rack h).view Legible.shows m k := by
  rw [rack_onBay, hready, Rack.view_put]
  split
  · next heq =>
    rw [heq, Rack.view, show (rack h).media n = some medium from hmedium]
    exact congrArg some (congrFun hself k)
  · unfold Rack.view
    congr 1
    funext other
    exact congrFun (hothers other) k

namespace Seeking

variable {r : Boot.Registers} {rest : Rack M R W} {track : Nat}

/-- Once the sector is under the head, its bytes are transferred, and every disk shows what it
showed. -/
theorem transfer (hs : Seeking r rest track h) {s : Nat}
    (hpositioned : h.device.selectedDrive.Positioned track s)
    (hreliable : ∀ medium, rest.media 0 = some medium →
      Legible.Reliable medium rest.shared rest.host) :
    ∃ bytes h', rest.view Legible.shows 0 (Fin.ofNat diskSectors (track * 32 + s)) = some bytes ∧
      Boot.transfer r sectorSize #[] h = (.ok bytes.toArray, h') ∧
      ∀ n k, (rack h').view Legible.shows n k = rest.view Legible.shows n k := by
  rw [hs.drive_zero] at hpositioned
  have hrest : rack h = rest := by
    rw [← hs.settled, onBay_of_eq (Bay.flush_of_clean hpositioned.dirty_eq)]
  subst hrest
  obtain ⟨medium, hmedium⟩ := Option.isSome_iff_exists.mp hpositioned.loaded
  obtain ⟨buffer, medium', site', hready, hbuffer, hself, hothers⟩ :=
    ready_shows (hs.sound 0) hmedium hpositioned.fetched_eq (hreliable medium hmedium)
  rw [hpositioned.place] at hbuffer
  -- The drive is selected, so that its bay is the one that is read from.
  have hselected := hs.selected
  have hstreams : Streams h buffer 0 := by
    refine ⟨hs.loaded, ?_, ?_, ?_⟩
    · rw [hselected, hready]
      exact Bool.or_true _
    · rw [hselected, hready]
      rfl
    · rw [hselected, hready]
      rfl
  have hrack : rack (afterCommands h (List.replicate sectorSize .read)) =
      rack (onBay h.device.selected Bay.ready h) :=
    rack_reads hstreams (show 0 + 136 < bufferSize - 1 by decide)
  rw [hbuffer] at hstreams
  refine ⟨_, _, ?_, transfer_of_streams hs.located hstreams, fun n k => ?_⟩
  · rw [Rack.view, show (rack h).media 0 = some medium from hmedium]
    rfl
  · rw [hrack, hselected]
    exact view_ready hmedium hready hself hothers n k

end Seeking

end Shown

/-! ## Whole fetches -/

variable {r : Boot.Registers}

/-- From any state the head of a loaded drive 0 comes over a track, and its sectors are waited for.
-/
theorem fetch_over_track (hl : Located r h.device) (hsound : Sound h) (hhonest : Honest h)
    (hloaded : (bay h 0).drive.isLoaded = true) (track sector : UInt8) :
    ∃ h', Seeking r (rack (onBay 0 Bay.flush h)) (min track.toNat 76) h' ∧
      Boot.fetch r track sector h =
        Boot.andThen
          (Boot.poll r.sector (Seeking.shows sector) (.sectorTimeout sector)
            (Geometry.eightInch.sectors * 2))
          (fun _ => Boot.transfer r sectorSize #[]) h' := by
  obtain ⟨selected, hselect, hseeking, _⟩ := selectAndLoad_of_loaded hl hsound hhonest hloaded
  have hlimit : (bay h 0).drive.track < Geometry.eightInch.tracks :=
    Nat.lt_succ_of_le (hsound 0).track_le
  obtain ⟨homed, hhome, hzero⟩ := hseeking.homeWithin hlimit
  obtain ⟨stepped, hstep, hover⟩ := hzero.stepInTimes (Nat.zero_le _) track.toNat
  rw [Nat.zero_add] at hover
  refine ⟨stepped, hover, ?_⟩
  unfold Boot.fetch
  rw [Boot.andThen_of_ok hselect, Boot.andThen_of_ok hhome, Boot.andThen_of_ok hstep]
  rfl

/-- A sector of the disk is found and transferred as the disk shows it once what is pending is
stored, and no disk shows anything else then. -/
theorem fetch_sector [Legible M R W] (hl : Located r h.device) (hsound : Sound h)
    (hhonest : Honest h) (hloaded : (bay h 0).drive.isLoaded = true) (hreliable : ReliableAt h 0)
    {track sector : UInt8} (htrack : track.toNat < 77) (hsector : sector.toNat < 32) :
    ∃ bytes h',
      shown? (onBay 0 Bay.flush h) 0
          (Fin.ofNat diskSectors (track.toNat * 32 + sector.toNat)) = some bytes ∧
      Boot.fetch r track sector h = (.ok bytes.toArray, h') ∧
      ∀ n k, shown? h' n k = shown? (onBay 0 Bay.flush h) n k := by
  obtain ⟨placed, hover, hfetch⟩ := fetch_over_track hl hsound hhonest hloaded track sector
  rw [Nat.min_eq_left (Nat.le_of_lt_succ htrack)] at hover
  have hlimit : (sector.toNat + 32 - placed.device.selectedDrive.coming) % 32 < 32 * 2 := by omega
  obtain ⟨register, found, hpoll, hseeking, hpositioned⟩ :=
    hover.poll_sector hsector (.sectorTimeout sector) hlimit
  rw [UInt8.ofNat_toNat] at hpoll
  obtain ⟨bytes, h', hbytes, htransfer, hshown⟩ :=
    hseeking.transfer hpositioned (hreliable.flush (hsound 0))
  refine ⟨bytes, h', hbytes, ?_, hshown⟩
  exact hfetch.trans ((Boot.andThen_of_ok hpoll).trans htransfer)

/-- A boot transfers the sector that comes next as the disk shows it once what is pending is stored,
and no disk shows anything else then. -/
theorem load_sector [Legible M R W] (hl : Located r h.device) (hsound : Sound h)
    (hhonest : Honest h) (hloaded : (bay h 0).drive.isLoaded = true) (hreliable : ReliableAt h 0)
    (memory : Bytes) :
    ∃ bytes h',
      shown? (onBay 0 Bay.flush h) 0
          (Fin.ofNat diskSectors ((bay h 0).drive.track * 32 + (bay h 0).drive.coming)) =
        some bytes ∧
      Boot.load r memory h =
        (.ok (⟨UInt8.ofNat (bay h 0).drive.coming, sectorSize, 0⟩,
          memory.splice 0 bytes.toArray), h') ∧
      ∀ n k, shown? h' n k = shown? (onBay 0 Bay.flush h) n k := by
  obtain ⟨placed, hseeking, hpositioned, hload⟩ :=
    load_over_sector hl hsound hhonest hloaded memory
  obtain ⟨bytes, h', hbytes, htransfer, hshown⟩ :=
    hseeking.transfer hpositioned (hreliable.flush (hsound 0))
  exact ⟨bytes, h', hbytes, hload.trans (Boot.andThen_of_ok htransfer), hshown⟩

/-- A sector that no track has is not found on any. -/
theorem fetch_missing_sector (hl : Located r h.device) (hsound : Sound h) (hhonest : Honest h)
    (hloaded : (bay h 0).drive.isLoaded = true) (track : UInt8) {sector : UInt8}
    (hsector : 32 ≤ sector.toNat) :
    (Boot.fetch r track sector h).1 = .error (.sectorTimeout sector) := by
  obtain ⟨placed, hover, hfetch⟩ := fetch_over_track hl hsound hhonest hloaded track sector
  have hpoll := hover.poll_missing_sector hsector (.sectorTimeout sector)
    (Geometry.eightInch.sectors * 2)
  rw [hfetch, Boot.andThen_of_error (Prod.ext hpoll rfl)]

/-- Nothing is read from an empty drive. -/
theorem fetch_of_empty (hl : Located r h.device) (hsound : Sound h)
    (hempty : (bay h 0).drive.isLoaded = false) (track sector : UInt8) :
    (Boot.fetch r track sector h).1 = .error (.headNotLoaded 0) := by
  have hselect := selectAndLoad_of_empty hl hsound hempty
  unfold Boot.fetch
  rw [Boot.andThen_of_error (Prod.ext hselect rfl)]

end Controller

namespace Boot

variable {M R W : Type} [Medium M R W]

/-- A bus reads a sector as the controller that is wired to it does. -/
theorem readSector_eq {r : Registers} {h : Hosted (Bus M R) W} {c : Hosted (Controller M R) W}
    (hwired : Bus.Wired r h c) (track sector : UInt8) :
    (readSector track sector h).1 = (fetch r track sector c).1 ∧
      Bus.Wired r (readSector track sector h).2 (fetch r track sector c).2 := by
  unfold readSector
  rw [hwired.registers?]
  exact (Bus.mirrors_wired r).fetch track sector h c hwired

/-- A bus boots as the controller that is wired to it does. -/
theorem run_eq {r : Registers} {h : Hosted (Bus M R) W} {c : Hosted (Controller M R) W}
    (hwired : Bus.Wired r h c) {memory : Bytes} (hsize : sectorSize ≤ memory.size) :
    (run memory h).1 = (load r memory c).1 ∧
      Bus.Wired r (run memory h).2 (load r memory c).2 := by
  unfold run
  rw [if_neg (Nat.not_lt.mpr hsize), hwired.registers?]
  exact (Bus.mirrors_wired r).load memory h c hwired

/-- A sector is read from any state. Take any run of a bus on which controllers in use are
installed, after which a controller is wired to it, over any media. If a reliable medium is in
drive 0, then each sector of the disk is read as the medium shows it once what is pending in the
drive is stored; no byte is written at the data register, and all media of the controller show
what they show after this flush alone. Sectors that no track has are waited for in vain on every
track, and without a disk in drive 0 nothing can be read. -/
theorem readSector_from_any_state [Legible M R W] (host : W) (ops : List (BusOperation M R))
    (hused : ∀ installed, .installController installed ∈ ops → Controller.Used W installed)
    {r : Registers} {c : Hosted (Controller M R) W}
    (hwired : Bus.Wired r (Bus.after (Bus.empty host) ops) c) (track sector : UInt8) :
    let h := Bus.after (Bus.empty host) ops
    let flushed := Controller.onBay 0 Bay.flush c
    let last := readSector track sector h
    ((Controller.bay c 0).drive.isLoaded = true → Controller.ReliableAt c 0 →
      Geometry.eightInch.contains track.toNat sector.toNat = true →
      ∃ bytes c',
        Controller.shown? flushed 0
            (Fin.ofNat diskSectors (track.toNat * 32 + sector.toNat)) = some bytes ∧
        last.1 = .ok bytes.toArray ∧
        last.2.device.written r.data = h.device.written r.data ∧
        Bus.hosted? last.2 = some c' ∧
        ∀ n k, Controller.shown? c' n k = Controller.shown? flushed n k) ∧
    ((Controller.bay c 0).drive.isLoaded = true → 32 ≤ sector.toNat →
      last.1 = .error (.sectorTimeout sector)) ∧
    ((Controller.bay c 0).drive.isLoaded = false → last.1 = .error (.headNotLoaded 0)) := by
  intro h flushed last
  have hinuse := Bus.used_after hused hwired.hosted
  have hsound := hinuse.sound c.host c.notices
  have hhonest := hinuse.honest c.host c.notices
  obtain ⟨houtcome, hlast⟩ := readSector_eq hwired track sector
  refine ⟨fun hloaded hreliable hinside => ?_, fun hloaded hsector => ?_, fun hempty => ?_⟩
  · obtain ⟨htrack, hsector⟩ := Bool.and_eq_true_iff.mp hinside
    obtain ⟨bytes, c', hbytes, hfetch, hshown⟩ := Controller.fetch_sector hwired.located hsound
      hhonest hloaded hreliable (of_decide_eq_true htrack) (of_decide_eq_true hsector)
    refine ⟨bytes, c', hbytes, ?_, ?_, ?_, hshown⟩
    · exact houtcome.trans (congrArg Prod.fst hfetch)
    · have hspares := (Bus.spares_data hwired.located (h.device.written r.data)).fetch track sector
        (show h.device.written r.data = h.device.written r.data from rfl)
      change (readSector track sector h).2.device.written r.data = _
      unfold readSector
      rw [hwired.registers?]
      exact hspares
    · rw [← show (fetch r track sector c).2 = c' from congrArg Prod.snd hfetch]
      exact hlast.hosted
  · exact houtcome.trans
      (Controller.fetch_missing_sector hwired.located hsound hhonest hloaded track hsector)
  · exact houtcome.trans (Controller.fetch_of_empty hwired.located hsound hempty track sector)

/-- A byte is pending in sector 0 of drive 0 while another drive is selected. The sector is read
with the byte in it, and a sector that does not exist is waited for in vain. -/
theorem readSector_with_a_pending_byte :
    let ops : List (BusOperation CopyOnWrite PatchPool) :=
      [.installController (.ofPool 1 8), .operate (.load 0 { image := #[1, 2, 3] }), .read 9,
        .write 10 7, .write 8 2]
    let h := Bus.after (Bus.empty ()) ops
    (∃ bytes : Sector, (readSector 0 0 h).1 = .ok bytes.toArray ∧ bytes[0] = 7) ∧
      (readSector 0 0 h).2.device.written 10 = 1 ∧
      (readSector 3 32 h).1 = .error (.sectorTimeout 32) := by
  intro ops h
  obtain ⟨c, hwired⟩ : ∃ c, Bus.Wired ⟨8, 9, 10⟩ h c := by
    refine Bus.exists_wired (by decide +kernel) fun register => ?_
    cases register <;> decide +kernel
  have hloaded : (Bus.hosted? h).map (fun c => (Controller.bay c 0).drive.isLoaded) =
      some true := by
    decide +kernel
  have hshown : (Bus.hosted? h).map (fun c =>
      (Controller.shown? (Controller.onBay 0 Bay.flush c) 0 (Fin.ofNat diskSectors 0)).map
        (fun bytes => bytes[0])) = some (some 7) := by
    decide +kernel
  rw [hwired.hosted, Option.map_some, Option.some.injEq] at hloaded hshown
  have hused : ∀ installed, .installController installed ∈ ops →
      Controller.Used Unit installed := by
    intro installed hmem
    obtain rfl : installed = .ofPool 1 8 := by simpa [ops] using hmem
    exact .new _ _
  have hone : h.device.written 10 = 1 := by decide +kernel
  have hsectors := readSector_from_any_state () ops hused hwired
  -- From here on the run is not evaluated any more.
  have hh : Bus.after (Bus.empty ()) ops = h := rfl
  rw [hh] at hsectors
  clear_value h
  obtain ⟨hread, -, -⟩ := hsectors 0 0
  obtain ⟨-, hmissing, -⟩ := hsectors 3 32
  obtain ⟨bytes, _, hbytes, hok, hwritten, -, -⟩ := hread hloaded (fun _ _ => trivial) rfl
  have hzero : (0 : UInt8).toNat * 32 + (0 : UInt8).toNat = 0 := rfl
  rw [hzero] at hbytes
  rw [hbytes] at hshown
  exact ⟨⟨bytes, hok, Option.some.inj hshown⟩, hwritten.trans hone, hmissing hloaded (by decide)⟩

end Boot

end HardSector
