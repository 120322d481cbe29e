import HardSector.Proofs.Controller.Sound
import HardSector.Proofs.Medium.Sectored

/-!
# A controller over media that are stores of sectors

Between its operations a controller whose media are stores of sectors is steady: its
drives are sound and its media sane. Flushing, fetching, vacating and filling a bay keep
it so, and what they do to the sectors that its media show is said here once.
-/

namespace HardSector

/-- The sector of the disk at which the buffer of a drive lies. -/
def Drive.place {M : Type} (drive : Drive M) : Fin diskSectors :=
  Fin.ofNat diskSectors (drive.offset / sectorSize)

/-- The buffer of a sound drive lies at the start of its sector. -/
theorem Drive.Sound.offset_eq {M : Type} {drive : Drive M} (h : drive.Sound) :
    drive.offset = drive.place.val * sectorSize := by
  obtain ⟨j, hj, hoffset⟩ := h.offset
  have htrack := h.track_le
  have hplace : drive.place.val * sectorSize = drive.offset / 137 % 2464 * 137 := rfl
  rw [hplace, hoffset, Geometry.eightInch_offset]
  omega

namespace Controller

variable {M R W : Type}

/-- The media of a controller, with what they share and the host around them. -/
def rack (h : Hosted (Controller M R) W) : Rack M R W :=
  ⟨fun n => (bay h n).drive.medium, h.device.shared, h.host⟩

/-- Something done to a bay leaves the other media in their drives. -/
theorem rack_onBay (n : Fin driveCount) (act : Bay M R W → Bay M R W)
    (h : Hosted (Controller M R) W) :
    rack (onBay n act h) = (rack h).put n (act (bay h n)).drive.medium
      (act (bay h n)).site.shared (act (bay h n)).site.host := by
  unfold rack Rack.put
  congr 1
  funext m
  rw [drive_onBay, Function.update_apply]
  split <;> rfl

/-- A move of a drive touches no medium. -/
theorem rack_move (n : Fin driveCount) (move : Drive.Move) (h : Hosted (Controller M R) W) :
    rack (onBay n (Bay.update (Drive.move move)) h) = rack h := by
  rw [rack_onBay, Bay.drive_update, Drive.medium_move]
  exact Rack.put_self rfl

/-- There are no media in the drives of a fresh controller. -/
theorem rack_fresh (shared : R) (base : UInt16) (host : W) :
    rack (fresh shared base host : Hosted (Controller M R) W) = ⟨fun _ => none, shared, host⟩ := by
  simp [rack, bay, fresh, ofShared]

/-- The places at which a flush of a drive stores. -/
def pending (h : Hosted (Controller M R) W) (n : Fin driveCount) : Finset Place :=
  if (bay h n).drive.dirty then {(n, (bay h n).drive.place)} else ∅

variable [Medium M R W]

/-- What the media of a controller show of a sector. -/
def view (S : Sectored M R W) (h : Hosted (Controller M R) W) (n : Fin driveCount)
    (k : Fin diskSectors) : Option Sector :=
  (rack h).view S.sector n k

/-- A controller whose drives are sound and whose media are sane. -/
structure Steady (S : Sectored M R W) (places : Finset Place) (h : Hosted (Controller M R) W) :
    Prop where
  sound : Sound h
  sane : S.Sane places (rack h)

variable {S : Sectored M R W} {places : Finset Place} {h : Hosted (Controller M R) W}

/-- A drive is loaded exactly if its sectors are to be seen. -/
theorem isSome_view (S : Sectored M R W) (h : Hosted (Controller M R) W) (n : Fin driveCount)
    (k : Fin diskSectors) : (view S h n k).isSome = (bay h n).drive.isLoaded := by
  unfold view Rack.view rack Drive.isLoaded
  rw [Option.isSome_map]

namespace Steady

/-- A fresh controller is steady. -/
theorem start {shared : R} {host : W} (base : UInt16)
    (hsane : S.Sane ∅ ⟨fun _ => none, shared, host⟩) :
    Steady S ∅ (fresh shared base host) := by
  refine ⟨sound_fresh shared base host, ?_⟩
  rw [rack_fresh]
  exact hsane

/-- A move to a sound drive keeps a controller steady. -/
theorem move (hs : Steady S places h) {n : Fin driveCount} {move : Drive.Move}
    (hsound : ((bay h n).drive.move move).Sound) :
    Steady S places (onBay n (Bay.update (Drive.move move)) h) := by
  refine ⟨hs.sound.onBay hsound, ?_⟩
  rw [rack_move]
  exact hs.sane

/-- A flush stores the pending sector, unless there is no room, and changes no other. -/
theorem flush (hs : Steady S places h) (n : Fin driveCount) :
    ∃ kept : Bool,
      Steady S (pending h n ∪ places) (onBay n Bay.flush h) ∧
      (S.Fits (pending h n ∪ places) → kept = true) ∧
      S.lost (onBay n Bay.flush h).device.shared =
        S.lost h.device.shared +
          (if (bay h n).drive.dirty = true ∧ kept = false then 1 else 0) ∧
      ∀ n' k', view S (onBay n Bay.flush h) n' k' =
        if (bay h n).drive.dirty = true ∧ kept = true ∧ n' = n ∧
            k' = (bay h n).drive.place then some (bay h n).drive.buffer.window
        else view S h n' k' := by
  have hdrive := hs.sound n
  cases hdirty : (bay h n).drive.dirty with
  | false =>
    rw [onBay_of_eq (Bay.flush_of_clean hdirty)]
    refine ⟨true, ?_, fun _ => rfl, by simp, fun n' k' => by simp⟩
    simpa [pending, hdirty] using hs
  | true =>
    obtain ⟨medium, hmedium⟩ := Option.isSome_iff_exists.mp (hdrive.loaded_of_dirty hdirty)
    have hpending : pending h n ∪ places =
        Insert.insert (n, (bay h n).drive.place) places := by
      simp [pending, hdirty]
    obtain ⟨medium', shared, host, notices, kept, hstore, hfits, hlost, hsane, hview⟩ :=
      S.store (bay h n).drive.place (bay h n).drive.buffer.window h.notices hs.sane hmedium
    have hflush : Bay.flush (bay h n) =
        ⟨{ (bay h n).drive with medium := some medium' }.settled,
          ⟨shared, host, notices⟩⟩ := by
      have hsector : Medium.store medium (bay h n).site (bay h n).drive.offset
          (bay h n).drive.buffer.sector =
            ⟨.ok (), medium', ⟨shared, host, notices⟩⟩ := by
        rw [hdrive.offset_eq]
        exact hstore
      rw [Bay.flush_eq, if_pos hdirty, Bay.storeSector_of_some hmedium, hsector]
      rfl
    have hrack : rack (onBay n Bay.flush h) = (rack h).put n (some medium') shared host := by
      rw [rack_onBay, hflush]
      rfl
    refine ⟨kept, ⟨hs.sound.onBay (Bay.sound_flush hdrive), ?_⟩, ?_, ?_, fun n' k' => ?_⟩
    · rw [hpending, hrack]
      exact hsane
    · rw [hpending]
      exact hfits
    · rw [shared_onBay, hflush]
      have hlost : S.lost shared = S.lost h.device.shared + if kept then 0 else 1 := hlost
      cases kept <;> simpa using hlost
    · rw [view, hrack, hview]
      simp only [true_and]
      rfl

/-- Making the buffer ready brings the bytes of its sector and changes nothing that can be seen. -/
theorem ready (hs : Steady S places h) (n : Fin driveCount) :
    Steady S places (onBay n Bay.ready h) ∧
      S.lost (onBay n Bay.ready h).device.shared = S.lost h.device.shared ∧
      (∀ n' k', view S (onBay n Bay.ready h) n' k' = view S h n' k') ∧
      ∀ bytes, view S h n (bay h n).drive.place = some bytes → (bay h n).drive.fetched = false →
        (bay (onBay n Bay.ready h) n).drive.shell =
          (bay h n).drive.shell.received (.ofDelivered bytes.toArray) true := by
  have hdrive := hs.sound n
  cases hmedium : (bay h n).drive.medium with
  | none =>
    have hempty : (bay h n).drive.isLoaded = false := by rw [Drive.isLoaded, hmedium]; rfl
    rw [onBay_of_eq (Bay.ready_of_unloaded hempty)]
    refine ⟨hs, rfl, fun _ _ => rfl, fun bytes hbytes => ?_⟩
    have hloaded := isSome_view S h n (bay h n).drive.place
    rw [hbytes, hempty] at hloaded
    cases hloaded
  | some medium =>
    cases hfetched : (bay h n).drive.fetched with
    | true =>
      rw [onBay_of_eq (Bay.ready_of_fetched hfetched)]
      refine ⟨hs, rfl, fun _ _ => rfl, fun _ _ hnot => ?_⟩
      cases hnot
    | false =>
      obtain ⟨delivered, count, medium', shared, host, hfetch, hbuffer, hlost, hsane, hview⟩ :=
        S.fetch (bay h n).drive.place h.notices hs.sane hmedium
      have hfetch : Medium.fetch medium (bay h n).site (bay h n).drive.offset sectorSize =
          ⟨delivered, .ok count, medium', ⟨shared, host, h.notices⟩⟩ := by
        rw [hdrive.offset_eq]
        exact hfetch
      have hready := Bay.ready_of_fetch hmedium hfetched hfetch
      have hrack : rack (onBay n Bay.ready h) = (rack h).put n (some medium') shared host := by
        rw [rack_onBay, hready]
      have hloaded : (bay h n).drive.isLoaded = true := by rw [Drive.isLoaded, hmedium]; rfl
      refine ⟨⟨hs.sound.onBay (Bay.sound_ready hdrive hloaded).1, ?_⟩, ?_, fun n' k' => ?_, ?_⟩
      · rw [hrack]
        exact hsane
      · rw [shared_onBay, hready]
        exact hlost
      · rw [view, hrack]
        exact hview n' k'
      · intro bytes hbytes _
        have hshown : S.sector medium (rack h).shared (rack h).host (bay h n).drive.place =
            bytes := by
          have hview : (rack h).view S.sector n (bay h n).drive.place = some bytes := hbytes
          rw [Rack.view, show (rack h).media n = some medium from hmedium] at hview
          exact Option.some.inj hview
        rw [bay_onBay_self, Bay.shell_ready_of_fetch hmedium hfetched hfetch, hbuffer, hshown]

/-- Vacating a bay leaves what the other media show. -/
theorem vacate (hs : Steady S places h) (n : Fin driveCount) :
    Steady S places (onBay n Bay.vacate h) ∧
      ∀ n' k', n' ≠ n → view S (onBay n Bay.vacate h) n' k' = view S h n' k' := by
  have hsound : Sound (onBay n Bay.vacate h) := hs.sound.onBay (Drive.sound_empty _)
  cases hmedium : (bay h n).drive.medium with
  | none =>
    have hrack : rack (onBay n Bay.vacate h) = rack h := by
      have hsite : (Bay.vacate (bay h n)).site = (bay h n).site := by
        unfold Bay.vacate
        simp only [hmedium]
      rw [rack_onBay, hsite]
      exact Rack.put_self hmedium
    refine ⟨⟨hsound, ?_⟩, fun n' k' _ => ?_⟩
    · rw [hrack]
      exact hs.sane
    · rw [view, hrack]
      rfl
  | some medium =>
    obtain ⟨medium', shared, host, notices, hrelease, _, hsane, hview⟩ :=
      S.release h.notices hs.sane hmedium
    have hsite : (Bay.vacate (bay h n)).site = ⟨shared, host, notices⟩ := by
      have hrelease : Medium.release medium (bay h n).site = (medium', ⟨shared, host, notices⟩) :=
        hrelease
      unfold Bay.vacate
      simp only [hmedium, hrelease]
    have hrack : rack (onBay n Bay.vacate h) = (rack h).put n none shared host := by
      rw [rack_onBay, hsite]
      rfl
    refine ⟨⟨hsound, ?_⟩, fun n' k' hne => ?_⟩
    · rw [hrack]
      exact hsane
    · rw [view, hrack]
      exact hview n' k' hne

/-- A fresh medium in an empty drive leaves what the other media show. -/
theorem holding (hs : Steady S places h) {n : Fin driveCount} {medium : M}
    (hempty : (bay h n).drive.medium = none) (hfresh : S.Fresh medium) :
    Steady S places (onBay n (Bay.update (Drive.holding medium)) h) ∧
      ∀ n' k', n' ≠ n →
        view S (onBay n (Bay.update (Drive.holding medium)) h) n' k' = view S h n' k' := by
  have hrack : rack (onBay n (Bay.update (Drive.holding medium)) h) =
      (rack h).put n (some medium) h.device.shared h.host := rack_onBay ..
  refine ⟨⟨hs.sound.onBay (Drive.sound_holding medium _), ?_⟩, fun n' k' hne => ?_⟩
  · rw [hrack]
    exact S.accept hs.sane hempty hfresh
  · rw [view, hrack]
    unfold Rack.put Rack.view
    simp only [Function.update_of_ne hne]
    rfl

/-! ## Changing media -/

/-- Taking a medium out of a drive leaves what the others show. -/
theorem eject (hs : Steady S places h) (n : Fin driveCount) :
    Steady S (pending h n ∪ places) (onBay n (fun bay => bay.eject.2) h) ∧
      ∀ n' k', n' ≠ n → view S (onBay n (fun bay => bay.eject.2) h) n' k' = view S h n' k' := by
  have heject : onBay n (fun bay => bay.eject.2) h = onBay n Bay.vacate (onBay n Bay.flush h) := by
    rw [← onBay_comp]
    simp only [Bay.eject_eq]
  obtain ⟨kept, hflushed, _, _, hview⟩ := hs.flush n
  obtain ⟨hvacated, hothers⟩ := hflushed.vacate n
  rw [heject]
  refine ⟨hvacated, fun n' k' hne => ?_⟩
  rw [hothers n' k' hne, hview, if_neg fun hchanged => hne hchanged.2.2.1]

/-- Putting a fresh medium into a drive leaves what the others show. -/
theorem load (hs : Steady S places h) (n : Fin driveCount) {medium : M}
    (hfresh : S.Fresh medium) :
    Steady S (pending h n ∪ places) (onBay n (fun bay => bay.load medium) h) ∧
      ∀ n' k', n' ≠ n →
        view S (onBay n (fun bay => bay.load medium) h) n' k' = view S h n' k' := by
  have hload : onBay n (fun bay => bay.load medium) h =
      onBay n (Bay.update (Drive.holding medium)) (onBay n (fun bay => bay.eject.2) h) := by
    rw [← onBay_comp]
    simp only [Bay.eject_eq, Bay.load_eq]
  obtain ⟨hejected, hview⟩ := hs.eject n
  have hempty : (bay (onBay n (fun bay => bay.eject.2) h) n).drive.medium = none := by
    rw [bay_onBay_self, Bay.drive_eject]
  obtain ⟨hheld, hothers⟩ := hejected.holding hempty hfresh
  rw [hload]
  exact ⟨hheld, fun n' k' hne => (hothers n' k' hne).trans (hview n' k' hne)⟩

end Steady

/-! ## Where commands store -/

/-- The places at which a motion of a drive stores. -/
def storedBy (n : Fin driveCount) (h : Hosted (Controller M R) W) : Motion → Finset Place
  | .flush => pending h n
  | .ready => ∅
  | .move _ => ∅

/-- The places at which motions of a drive store, one after the other. -/
def storedAlong (n : Fin driveCount) : List Motion → Hosted (Controller M R) W → Finset Place
  | [], _ => ∅
  | motion :: motions, h =>
    storedAlong n motions (onBay n (fun bay => bay.make motion) h) ∪ storedBy n h motion

/-- The places at which flushes of several drives store, one after the other. -/
def storedEach : List (Fin driveCount) → Hosted (Controller M R) W → Finset Place
  | [], _ => ∅
  | n :: order, h => storedEach order (onBay n Bay.flush h) ∪ pending h n

/-- The places at which the flushes in the course of a command store. -/
def stored (h : Hosted (Controller M R) W) : Command → Finset Place
  | .select _ => ∅
  | .status => ∅
  | .flush => storedEach (List.finRange driveCount) h
  | command =>
    storedAlong h.device.selected (command.motions h.device.selectedDrive) h

/-- Selecting a drive stores nothing. -/
@[simp] theorem stored_select (h : Hosted (Controller M R) W) (byte : UInt8) :
    stored h (.select byte) = ∅ := rfl

/-- A look at the status stores nothing. -/
@[simp] theorem stored_status (h : Hosted (Controller M R) W) : stored h .status = ∅ := rfl

/-- The places at which the flushes in the course of commands store. -/
def storedDuring : Hosted (Controller M R) W → List Command → Finset Place
  | _, [] => ∅
  | h, command :: commands => storedDuring (obey h command).2 commands ∪ stored h command

namespace Steady

/-- A motion keeps a controller steady. -/
theorem make (hs : Steady S places h) {n : Fin driveCount} {motion : Motion}
    (hsound : ((bay h n).make motion).drive.Sound) :
    Steady S (storedBy n h motion ∪ places) (onBay n (fun bay => bay.make motion) h) := by
  cases motion with
  | flush =>
    obtain ⟨_, hflushed, _⟩ := hs.flush n
    exact hflushed
  | ready =>
    rw [storedBy, Finset.empty_union]
    exact (hs.ready n).1
  | move move =>
    rw [storedBy, Finset.empty_union]
    exact hs.move hsound

/-- Motions keep a controller steady. -/
theorem follow (hs : Steady S places h) {n : Fin driveCount} {motions : List Motion}
    (halong : (bay h n).SoundAlong motions) :
    Steady S (storedAlong n motions h ∪ places) (onBay n (fun bay => bay.follow motions) h) := by
  induction motions generalizing h places with
  | nil =>
    rw [onBay_of_eq rfl, storedAlong, Finset.empty_union]
    exact hs
  | cons motion motions ih =>
    rw [onBay_follow_cons, storedAlong, Finset.union_assoc]
    refine ih (hs.make halong.1) ?_
    rw [bay_onBay_self]
    exact halong.2

/-- Flushes of several drives keep a controller steady. -/
theorem flushEach (hs : Steady S places h) (order : List (Fin driveCount)) :
    Steady S (storedEach order h ∪ places)
      (order.foldl (fun h n => onBay n Bay.flush h) h) := by
  induction order generalizing h places with
  | nil =>
    rw [storedEach, Finset.empty_union]
    exact hs
  | cons n order ih =>
    obtain ⟨_, hflushed, _⟩ := hs.flush n
    rw [storedEach, Finset.union_assoc]
    exact ih hflushed

/-- A command keeps a controller steady. -/
theorem obey (hs : Steady S places h) (command : Command) :
    Steady S (stored h command ∪ places) (obey h command).2 := by
  have halong := soundAlong_motions (hs.sound h.device.selected) command
  rw [obey_eq]
  cases command with
  | select byte =>
    rw [stored_select, Finset.empty_union]
    exact ⟨hs.sound, hs.sane⟩
  | status =>
    rw [stored_status, Finset.empty_union]
    exact hs
  | flush => exact hs.flushEach _
  | _ => exact hs.follow halong

/-- Commands keep a controller steady. -/
theorem afterCommands (hs : Steady S places h) (commands : List Command) :
    ∃ places', Steady S places' (afterCommands h commands) := by
  refine Run.final_induct (P := fun h => ∃ places, Steady S places h) ⟨places, hs⟩ ?_
  rintro h command _ ⟨places, hs⟩
  exact ⟨_, hs.obey command⟩

/-- An operation keeps a controller steady, if only fresh media are loaded. -/
theorem perform (hs : Steady S places h) {op : Operation M}
    (hfresh : ∀ drive medium, op = .load drive medium → S.Fresh medium) :
    ∃ places', Steady S places' (perform h op).2 := by
  cases op with
  | load drive medium =>
    rw [perform_load]
    split
    · exact ⟨_, (hs.load _ (hfresh drive medium rfl)).1⟩
    · exact ⟨_, hs⟩
  | eject drive =>
    rw [perform_eject]
    split
    · exact ⟨_, (hs.eject _).1⟩
    · exact ⟨_, hs⟩
  | command command => exact ⟨_, hs.obey command⟩

/-- A run keeps a controller steady, if only fresh media are loaded. -/
theorem after (hs : Steady S places h) {ops : List (Operation M)}
    (hfresh : ∀ drive medium, .load drive medium ∈ ops → S.Fresh medium) :
    ∃ places', Steady S places' (after h ops) := by
  refine Run.final_induct (P := fun h => ∃ places, Steady S places h) ⟨places, hs⟩ ?_
  rintro h op hop ⟨places, hs⟩
  refine hs.perform fun drive medium hload => hfresh drive medium ?_
  rwa [← hload]

end Steady

end Controller

end HardSector
