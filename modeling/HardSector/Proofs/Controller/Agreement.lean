import HardSector.Proofs.Controller.Lockstep
import HardSector.Proofs.Medium.CopyOnWrite
import HardSector.Proofs.Medium.InPlace

/-!
# Copy-on-write media and media in place agree

A guest cannot tell images that are patched in memory from the same images in streams that
are written in place, as long as the patch pool has a slot for every sector that is stored.
When all buffers have been flushed, both hold the same bytes.
-/

namespace HardSector

namespace Controller

/-! ## Filling the drives -/

section Loading

variable {M R W : Type} [Medium M R W]

/-- Media put into the drives, in the order of the drives. -/
def loading (media : Fin driveCount → Option M) : List (Operation M) :=
  (List.finRange driveCount).filterMap fun n => (media n).map (.load n.val)

/-- A drive with a number, and with a medium just put into it if there is one. -/
def supplied (number : Nat) : Option M → Drive M
  | none => { number := number }
  | some medium => Drive.holding medium { number := number }

/-- Putting a medium into an empty bay touches nothing else. -/
theorem load_empty {bay : Bay M R W} {number : Nat} (hempty : bay.drive = { number := number })
    (medium : M) : bay.load medium = bay.update (Drive.holding medium) := by
  obtain ⟨drive, site⟩ := bay
  subst hempty
  rfl

/-- Media put into empty drives, in some order. -/
theorem after_loading_order (media : Fin driveCount → Option M) {order : List (Fin driveCount)}
    (hnodup : order.Nodup) {h : Hosted (Controller M R) W}
    (hempty : ∀ n ∈ order, (bay h n).drive = { number := n.val }) :
    let h' := after h (order.filterMap fun n => (media n).map (.load n.val))
    h'.device.selected = h.device.selected ∧ h'.device.shared = h.device.shared ∧
      h'.host = h.host ∧ ∀ n, (bay h' n).drive =
        if n ∈ order then supplied n.val (media n) else (bay h n).drive := by
  induction order generalizing h with
  | nil => exact ⟨rfl, rfl, rfl, fun n => rfl⟩
  | cons m order ih =>
    obtain ⟨hout, hnodup⟩ := List.nodup_cons.mp hnodup
    have hdrive := hempty m List.mem_cons_self
    have hrest : ∀ n ∈ order, (bay h n).drive = { number := n.val } :=
      fun n hn => hempty n (List.mem_cons_of_mem _ hn)
    cases hmedium : media m with
    | none =>
      obtain ⟨hselected, hshared, hhost, hdrives⟩ := ih hnodup hrest
      simp only [List.filterMap_cons, hmedium, Option.map_none]
      refine ⟨hselected, hshared, hhost, fun n => (hdrives n).trans ?_⟩
      by_cases hn : n = m
      · subst hn
        rw [if_neg hout, if_pos List.mem_cons_self, hmedium, hdrive]
        rfl
      · simp only [List.mem_cons, hn, false_or]
    | some medium =>
      have hload : (perform h (.load m.val medium)).2 =
          onBay m (Bay.update (Drive.holding medium)) h := by
        rw [perform_load, dif_pos m.isLt]
        exact onBay_congr (fun bay => bay.load medium) _ (load_empty hdrive medium)
      have hothers : ∀ n ≠ m, (bay (perform h (.load m.val medium)).2 n).drive =
          (bay h n).drive := by
        intro n hn
        rw [hload, drive_onBay_of_ne _ _ hn]
      have hrest' : ∀ n ∈ order,
          (bay (perform h (.load m.val medium)).2 n).drive = { number := n.val } := by
        intro n hn
        rw [hothers n fun heq => hout (heq ▸ hn), hrest n hn]
      obtain ⟨hselected, hshared, hhost, hdrives⟩ := ih hnodup hrest'
      simp only [List.filterMap_cons, hmedium, Option.map_some, after, Run.final_cons]
      refine ⟨hselected.trans ?_, hshared.trans ?_, hhost.trans ?_, fun n => (hdrives n).trans ?_⟩
      · rw [hload]
        rfl
      · rw [hload]
        rfl
      · rw [hload]
        rfl
      · by_cases hn : n = m
        · subst hn
          rw [if_neg hout, if_pos List.mem_cons_self, hmedium, hload, bay_onBay_self,
            Bay.drive_update, hdrive]
          rfl
        · simp only [List.mem_cons, hn, false_or, hothers n hn]

/-- A fresh controller after its drives have been supplied with media. -/
theorem after_loading (shared : R) (base : UInt16) (host : W)
    (media : Fin driveCount → Option M) :
    let h := after (fresh shared base host) (loading media)
    h.device.selected = 0 ∧ rack h = ⟨media, shared, host⟩ ∧
      ∀ n, (bay h n).drive = supplied n.val (media n) := by
  have hempty : ∀ n ∈ List.finRange driveCount,
      (bay (fresh (M := M) shared base host) n).drive = { number := n.val } := by
    intro n _
    simp [bay, fresh, ofShared]
  obtain ⟨hselected, hshared, hhost, hdrives⟩ :=
    after_loading_order media (List.nodup_finRange driveCount) hempty
  have hall : ∀ n, (bay (after (fresh shared base host) (loading media)) n).drive =
      supplied n.val (media n) := by
    intro n
    exact (hdrives n).trans (if_pos (List.mem_finRange n))
  refine ⟨hselected, ?_, hall⟩
  unfold rack
  congr 1
  funext n
  rw [hall]
  cases media n <;> rfl

/-- A controller whose drives have been supplied with media is steady. -/
theorem steady_loading {S : Sectored M R W} {shared : R} {host : W}
    {media : Fin driveCount → Option M} (base : UInt16)
    (hsane : S.Sane ∅ ⟨media, shared, host⟩) :
    Steady S ∅ (after (fresh shared base host) (loading media)) := by
  obtain ⟨_, hrack, hdrives⟩ := after_loading shared base host media
  refine ⟨fun n => ?_, ?_⟩
  · rw [hdrives]
    cases media n with
    | none => exact Drive.sound_empty _
    | some medium => exact Drive.sound_holding medium _
  · rw [hrack]
    exact hsane

end Loading

/-! ## Agreement -/

/-- A controller of copy-on-write media and one of media in place go in lockstep once the drives are
supplied with the same images. -/
theorem lockstep_loading {W V : Type} (capacity : Nat) (base base' : UInt16) (host : W) (host' : V)
    {disks : Fin driveCount → Option CopyOnWrite} {files : Fin driveCount → Option (InPlace Stream)}
    (hfresh : ∀ n disk, disks n = some disk → disk.patches = .empty)
    (hcooperative : ∀ n file, files n = some file → file.handle.Cooperative)
    (hsame : ∀ n, (disks n).map CopyOnWrite.image =
      (files n).map fun file => file.handle.contents) :
    Lockstep (CopyOnWrite.sectored (min capacity PatchPool.capacityLimit)) InPlace.sectored ∅
      (after (fresh (PatchPool.ofCapacity capacity) base host) (loading disks))
      (after (fresh () base' host') (loading files)) := by
  obtain ⟨hselected, hrack, hdrives⟩ :=
    after_loading (PatchPool.ofCapacity capacity) base host disks
  obtain ⟨hselected', hrack', hdrives'⟩ := after_loading () base' host' files
  refine ⟨steady_loading base (CopyOnWrite.Patched.start capacity host hfresh),
    steady_loading base' hcooperative, hselected'.trans hselected.symm, fun n => ?_,
    fun n k => ?_⟩
  · have hn := hsame n
    rw [hdrives, hdrives']
    cases hdisk : disks n with
    | none =>
      rw [hdisk, Option.map_none] at hn
      rw [Option.map_eq_none_iff.mp hn.symm]
      rfl
    | some disk =>
      rw [hdisk, Option.map_some] at hn
      obtain ⟨file, hfile, _⟩ := Option.map_eq_some_iff.mp hn.symm
      rw [hfile]
      rfl
  · have hn := congrArg (Option.map fun image : Bytes =>
      image.padded (k.val * sectorSize) sectorSize) (hsame n)
    rw [Option.map_map, Option.map_map] at hn
    rw [view, view, hrack, hrack', Rack.view, Rack.view]
    refine hn.symm.trans (Option.map_congr fun disk hdisk => ?_)
    have hnone : (PatchPool.ofCapacity capacity).patch disk.patches (UInt16.ofNat k) = none := by
      rw [hfresh n disk hdisk, PatchPool.patch_ofCapacity]
    exact (congrArg (Option.getD · _) hnone).symm

/-- Lockstep of copy-on-write media and media in place after some commands means that the same bytes
are held for every sector of every loaded drive. -/
theorem Lockstep.same_bytes {W V : Type} {capacity : Nat} {places : Finset Place}
    {h : Hosted (Controller CopyOnWrite PatchPool) W}
    {h' : Hosted (Controller (InPlace Stream) Unit) V}
    (hl : Lockstep (CopyOnWrite.sectored capacity) InPlace.sectored places h h')
    {n : Fin driveCount} (hloaded : (bay h n).drive.isLoaded = true) :
    ∃ disk file, (bay h n).drive.medium = some disk ∧ (bay h' n).drive.medium = some file ∧
      ∀ k < 2464, (h.device.shared.patch disk.patches (UInt16.ofNat k)).getD
        (disk.image.padded (k * 137) 137) = file.handle.contents.padded (k * 137) 137 := by
  obtain ⟨disk, hdisk⟩ := Option.isSome_iff_exists.mp hloaded
  obtain ⟨file, hfile⟩ := Option.isSome_iff_exists.mp ((hl.isLoaded_eq n).trans hloaded)
  refine ⟨disk, file, hdisk, hfile, fun k hk => ?_⟩
  have hview := hl.view_eq n ⟨k, hk⟩
  have hmedia : (rack h).media n = some disk := hdisk
  have hmedia' : (rack h').media n = some file := hfile
  rw [view, view, Rack.view, Rack.view, hmedia, hmedia'] at hview
  exact (Option.some.inj hview).symm

/-- Images that are patched in memory and the same images in cooperative streams cannot be told
apart. Any commands are answered alike as long as their flushes store to no more sectors than the
pool has slots. When the last of the commands is a flush of all drives, every sector of every
loaded drive has the same bytes: those of its patch, or else of the image, are those of the stream,
with zeros past the end of either. -/
theorem patches_agree_with_streams {W V : Type} (capacity : Nat) (base base' : UInt16) (host : W)
    (host' : V) (disks : Fin driveCount → Option CopyOnWrite)
    (files : Fin driveCount → Option (InPlace Stream)) (commands : List Command)
    (hfresh : ∀ n disk, disks n = some disk → disk.patches = .empty)
    (hcooperative : ∀ n file, files n = some file → file.handle.Cooperative)
    (hsame : ∀ n, (disks n).map CopyOnWrite.image =
      (files n).map fun file => file.handle.contents) :
    let patched := after (fresh (PatchPool.ofCapacity capacity) base host) (loading disks)
    let streamed := after (fresh () base' host') (loading files)
    ((storedDuring patched commands).card ≤ min capacity 65535 →
      Run.answers obey patched commands = Run.answers obey streamed commands) ∧
    ((storedDuring patched (commands ++ [.flush])).card ≤ min capacity 65535 →
      let last := afterCommands patched (commands ++ [.flush])
      let last' := afterCommands streamed (commands ++ [.flush])
      ∀ n, (disks n).isSome = true →
        ∃ disk file, (bay last n).drive.medium = some disk ∧
          (bay last' n).drive.medium = some file ∧
          ∀ k < 2464, (last.device.shared.patch disk.patches (UInt16.ofNat k)).getD
            (disk.image.padded (k * 137) 137) = file.handle.contents.padded (k * 137) 137) := by
  intro patched streamed
  have hl := lockstep_loading capacity base base' host host' hfresh hcooperative hsame
  have hrun : ∀ commands, (storedDuring patched commands).card ≤ min capacity 65535 →
      Run.answers obey streamed commands = Run.answers obey patched commands ∧
        Lockstep (CopyOnWrite.sectored (min capacity PatchPool.capacityLimit)) InPlace.sectored
          (storedDuring patched commands ∪ ∅) (afterCommands patched commands)
          (afterCommands streamed commands) := by
    intro commands hroom
    refine hl.run ?_ trivial
    rw [Finset.union_empty]
    exact hroom
  refine ⟨fun hroom => (hrun commands hroom).1.symm, fun hroom => ?_⟩
  intro last last' n hsome
  obtain ⟨_, hlast⟩ := hrun (commands ++ [.flush]) hroom
  have hloaded : (bay last n).drive.isLoaded = (bay patched n).drive.isLoaded := by
    refine Run.final_induct
      (P := fun h => (bay h n).drive.isLoaded = (bay patched n).drive.isLoaded) rfl
      fun h command _ heq => ?_
    rw [isLoaded_obey, heq]
  refine hlast.same_bytes (hloaded.trans ?_)
  obtain ⟨_, _, hdrives⟩ := after_loading (PatchPool.ofCapacity capacity) base host disks
  obtain ⟨disk, hdisk⟩ := Option.isSome_iff_exists.mp hsome
  rw [hdrives, hdisk]
  rfl

/-- One drive with a short image, a stream that cuts calls short and interrupts them, and a pool of
one slot: a byte is written and stored by the last flush only. -/
theorem patches_agree_with_a_split_stream :
    let stream : Stream :=
      { contents := #[1, 2, 3]
        script :=
          { reads := [.limit 1, .interrupt "again"], writes := [.interrupt "again", .limit 9] } }
    let disks : Fin driveCount → Option CopyOnWrite := Function.update (fun _ => none) 0
      (some { image := #[1, 2, 3] })
    let files : Fin driveCount → Option (InPlace Stream) := Function.update (fun _ => none) 0
      (some { handle := stream, length := 3 })
    let commands : List Command := [.sector, .read, .function 0x80, .write 9]
    let patched := after (fresh (W := Unit) (PatchPool.ofCapacity 1) 8 ()) (loading disks)
    let streamed := after (fresh (W := Unit) () 8 ()) (loading files)
    let last := afterCommands patched (commands ++ [.flush])
    let last' := afterCommands streamed (commands ++ [.flush])
    Run.answers obey patched commands = Run.answers obey streamed commands ∧
      ∃ disk file, (bay last 0).drive.medium = some disk ∧ (bay last' 0).drive.medium = some file ∧
        ∀ k < 2464, (last.device.shared.patch disk.patches (UInt16.ofNat k)).getD
          (disk.image.padded (k * 137) 137) = file.handle.contents.padded (k * 137) 137 := by
  intro stream disks files commands
  have hstream : stream.Cooperative :=
    ⟨by decide, by decide, by decide, by decide, fun _ _ => ⟨rfl, rfl⟩⟩
  have hagree := patches_agree_with_streams 1 8 8 () () disks files commands ?_ ?_ ?_
  · exact ⟨hagree.1 (by decide +kernel), hagree.2 (by decide +kernel) 0 rfl⟩
  · intro n disk hdisk
    by_cases hn : n = 0
    · subst hn
      cases hdisk
      rfl
    · simp [disks, hn] at hdisk
  · intro n file hfile
    by_cases hn : n = 0
    · subst hn
      cases hfile
      exact hstream
    · simp [files, hn] at hfile
  · intro n
    by_cases hn : n = 0
    · subst hn
      rfl
    · simp [disks, files, hn]

end Controller

end HardSector
