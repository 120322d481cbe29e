import HardSector.Proofs.Boot.Finding
import HardSector.Proofs.Medium.Conserving

/-!
# Drives that store nothing

A drive stores what was written to it and nothing else. As long as no byte is written, it has
nothing to store whenever its head moves, another sector comes, or its medium is changed,
and every file stays as it is. A boot and the reading of a sector write no byte.
-/

namespace HardSector

open FileTree (Grown)

variable {M R : Type} [Medium M R FileTree] [Conserving M R] {paths : List String}
  {tree : FileTree}

/-! ## One drive -/

namespace Bay

variable {bay : Bay M R FileTree}

/-- Nothing is pending in a bay and its medium is open, and since some tree only blank images were
made. -/
structure Idle (paths : List String) (tree : FileTree) (bay : Bay M R FileTree) : Prop where
  grown : Grown paths tree bay.site.host
  clean : bay.drive.dirty = false
  opened : ∀ medium, bay.drive.medium = some medium → Conserving.Opened R medium bay.site.host

namespace Idle

/-- A bay is idle since the tree that it sees. -/
theorem since (hi : bay.Idle paths tree) : bay.Idle [] bay.site.host :=
  ⟨.refl _ _, hi.clean, hi.opened⟩

/-- There is nothing to flush in an idle bay. -/
theorem flush (hi : bay.Idle paths tree) : bay.flush.Idle paths tree := by
  rw [flush_of_clean hi.clean]
  exact hi

/-- A fetch leaves a bay idle, whether it fails or not. -/
theorem ready (hi : bay.Idle paths tree) : bay.ready.Idle paths tree := by
  have hclean : bay.ready.drive.dirty = false := bay.pending_ready.1.trans hi.clean
  cases hloaded : bay.drive.medium with
  | none =>
    rw [ready_of_unloaded (by rw [Drive.isLoaded, hloaded]; rfl)]
    exact hi
  | some medium =>
    cases hfetched : bay.drive.fetched with
    | true =>
      rw [ready_of_fetched hfetched]
      exact hi
    | false =>
      obtain ⟨hgrown, hopened⟩ :=
        Conserving.fetch bay.drive.offset sectorSize (hi.opened medium hloaded)
      obtain ⟨_, hhost, hkept⟩ := ready_leaves hloaded hfetched
      refine ⟨?_, hclean, fun medium' hmedium => ?_⟩
      · rw [hhost]
        exact hi.grown.trans hgrown.of_nil
      · rw [hkept] at hmedium
        rw [hhost, ← Option.some.inj hmedium]
        exact hopened

/-- A motion that takes no byte leaves a bay idle. -/
theorem make (hi : bay.Idle paths tree) {motion : Motion} (htakes : motion.takes = false) :
    (bay.make motion).Idle paths tree := by
  have hclean : (bay.follow [motion]).drive.dirty = false :=
    clean_follow (List.forall_mem_singleton.mpr htakes) hi.clean
  cases motion with
  | flush => exact hi.flush
  | ready => exact hi.ready
  | move move =>
    refine ⟨hi.grown, hclean, fun medium hmedium => ?_⟩
    change (bay.drive.move move).medium = some medium at hmedium
    rw [Drive.medium_move] at hmedium
    exact hi.opened medium hmedium

/-- Motions that take no byte leave a bay idle. -/
theorem follow (hi : bay.Idle paths tree) {motions : List Motion}
    (htakes : ∀ motion ∈ motions, motion.takes = false) :
    (bay.follow motions).Idle paths tree := by
  induction motions generalizing bay with
  | nil => exact hi
  | cons motion motions ih =>
    exact ih (hi.make (htakes motion List.mem_cons_self)) fun m hm =>
      htakes m (List.mem_cons_of_mem _ hm)

/-- A medium is changed for one that is open. -/
theorem load (hi : bay.Idle paths tree) {medium : M}
    (hopened : Conserving.Opened R medium bay.site.host) : (bay.load medium).Idle paths tree := by
  have hreleased : Grown [] bay.site.host bay.vacate.site.host := by
    unfold vacate
    cases hmedium : bay.drive.medium with
    | none => exact .refl _ _
    | some old => exact Conserving.release (hi.opened old hmedium)
  rw [load_eq, flush_of_clean hi.clean]
  refine ⟨hi.grown.trans hreleased.of_nil, rfl, fun medium' hmedium => ?_⟩
  obtain rfl : medium = medium' := Option.some.inj hmedium
  exact Conserving.grown hreleased hopened

end Idle

end Bay

/-! ## A controller -/

namespace Controller

variable {h : Hosted (Controller M R) FileTree}

/-- All bays of a controller are idle. -/
def Idle (paths : List String) (tree : FileTree) (h : Hosted (Controller M R) FileTree) : Prop :=
  ∀ n : Fin driveCount, (bay h n).Idle paths tree

namespace Idle

/-- Since some tree only blank images were made. -/
theorem grown (hi : Idle paths tree h) : Grown paths tree h.host := (hi 0).grown

/-- Only its drives and the tree matter for a controller to be idle. -/
theorem congr (hi : Idle paths tree h) {h' : Hosted (Controller M R) FileTree}
    (hdrives : h'.device.drives = h.device.drives) (hhost : h'.host = h.host) :
    Idle paths tree h' := by
  obtain ⟨⟨drives, selected, shared, base⟩, host, notices⟩ := h
  obtain ⟨⟨drives', selected', shared', base'⟩, host', notices'⟩ := h'
  dsimp only at hdrives hhost
  subst hdrives hhost
  exact fun n => ⟨(hi n).grown, (hi n).clean, (hi n).opened⟩

/-- A controller is idle while blank images are made. -/
theorem made (hi : Idle paths tree h) {later : FileTree} (hgrown : Grown paths h.host later) :
    Idle paths tree { h with host := later } := by
  intro n
  refine ⟨hi.grown.trans hgrown, (hi n).clean, fun medium hmedium => ?_⟩
  exact Conserving.grown hgrown ((hi n).opened medium hmedium)

/-- What leaves one bay idle leaves the controller idle. -/
theorem onBay (hi : Idle paths tree h) {n : Fin driveCount}
    {act : Bay M R FileTree → Bay M R FileTree}
    (hact : ∀ {paths tree}, (bay h n).Idle paths tree → (act (bay h n)).Idle paths tree) :
    Idle paths tree (onBay n act h) := by
  intro m
  by_cases hm : m = n
  · subst hm
    rw [bay_onBay_self]
    exact hact (hi m)
  · -- The media of the other drives see the tree that was left by this one.
    have hsince : Grown [] h.host (act (bay h n)).site.host := (hact (hi n).since).grown
    refine ⟨(hact (hi n)).grown, ?_, fun medium hmedium => ?_⟩
    · rw [drive_onBay_of_ne act h hm]
      exact (hi m).clean
    · rw [drive_onBay_of_ne act h hm] at hmedium
      exact Conserving.grown hsince ((hi m).opened medium hmedium)

/-- There is nothing to flush in an idle controller. -/
theorem flushAll (hi : Idle paths tree h) : Idle paths tree (flushAll h) :=
  flushAll_induct (fun _ _ hi' => hi'.onBay fun hbay => hbay.flush) hi

/-- Every command but a written byte leaves a controller idle. -/
theorem obey (hi : Idle paths tree h) {command : Command}
    (hwrite : ∀ byte, command ≠ .write byte) : Idle paths tree (obey h command).2 := by
  rw [obey_eq]
  cases command with
  | select byte => exact hi.congr rfl rfl
  | status => exact hi
  | function byte =>
    exact hi.onBay fun hbay => hbay.follow (Drive.takes_motions _ (Control.ofByte byte)).1
  | sector => exact hi.onBay fun hbay => hbay.follow (Drive.takes_motions _ {}).2.1
  | read => exact hi.onBay fun hbay => hbay.follow (Drive.takes_motions _ {}).2.2
  | write byte => exact absurd rfl (hwrite byte)
  | flush => exact hi.flushAll

/-- A controller whose drive gets an open medium stays idle. -/
theorem load (hi : Idle paths tree h) (n : Nat) {medium : M}
    (hopened : Conserving.Opened R medium h.host) : Idle paths tree (load h n medium).2 := by
  unfold Controller.load
  split
  · next hn =>
    have hloaded : Idle paths tree
        (HardSector.Controller.onBay ⟨n, hn⟩ (fun bay => bay.load medium) h) :=
      hi.onBay fun hbay => hbay.load hopened
    exact hloaded
  · exact hi

/-- Every register can be read. -/
theorem readAddress (hi : Idle paths tree h) (address : UInt16) :
    Idle paths tree (readAddress h address).2 := by
  rw [readAddress_eq]
  split
  · exact hi
  · exact hi.obey nofun
  · exact hi.obey nofun
  · exact hi

/-- Every register but that for data can be written. -/
theorem writeAddress (hi : Idle paths tree h) {r : Boot.Registers} (hl : Located r h.device)
    {register : Register} (hdata : register ≠ .data) (byte : UInt8) :
    Idle paths tree (writeAddress h (r.address register) byte).2 := by
  rw [writeAddress_eq, hl.ofDistance?_sub]
  cases register with
  | status => exact hi.obey nofun
  | sector => exact hi.obey nofun
  | data => exact absurd rfl hdata

end Idle

end Controller

/-! ## A bus -/

namespace Bus

variable {h : Hosted (Bus M R) FileTree}

/-- The controller of a bus is installed and idle. -/
def Idle (paths : List String) (tree : FileTree) (h : Hosted (Bus M R) FileTree) : Prop :=
  ∃ c, hosted? h = some c ∧ Controller.Idle paths tree c

namespace Idle

/-- Since some tree only blank images were made. -/
theorem grown (hi : Idle paths tree h) : Grown paths tree h.host := by
  obtain ⟨c, hhosted, hc⟩ := hi
  rw [(hosted?_eq_some_iff.mp hhosted).2.1]
  exact hc.grown

/-- A boot and the reading of a sector leave the controller idle, wherever its addresses are routed
to. -/
theorem spares (paths : List String) (tree : FileTree) (r : Boot.Registers) :
    Boot.Spares r fun h : Hosted (Bus M R) FileTree =>
      ∃ c, hosted? h = some c ∧ Controller.Located r c.device ∧ Controller.Idle paths tree c where
  read {h} hh register := by
    obtain ⟨c, hhosted, hl, hi⟩ := hh
    by_cases hrouted : h.device.routes[r.address register]? = some .diskController
    · exact ⟨_, (read_routed hhosted hrouted).2, hl.congr (Controller.base_readAddress ..),
        hi.readAddress _⟩
    · exact ⟨c, (hosted?_read_of_unrouted hrouted).trans hhosted, hl, hi⟩
  write {h} hh register hdata byte := by
    obtain ⟨c, hhosted, hl, hi⟩ := hh
    by_cases hrouted : h.device.routes[r.address register]? = some .diskController
    · exact ⟨_, (write_routed hhosted byte hrouted).2,
        hl.congr (Controller.base_writeAddress ..), hi.writeAddress hl hdata byte⟩
    · exact ⟨c, (hosted?_write_of_unrouted byte hrouted).trans hhosted, hl, hi⟩

/-- A boot leaves the controller idle. -/
theorem run (hi : Idle paths tree h) (memory : Bytes) :
    Idle paths tree (Boot.run memory h).2 := by
  unfold Boot.run
  split
  · exact hi
  · split
    · exact hi
    · next r hregisters =>
      obtain ⟨c, hhosted, hc⟩ := hi
      obtain ⟨c', hhosted', _, hc'⟩ := (spares paths tree r).load memory
        ⟨c, hhosted, located_of_registers? hhosted hregisters, hc⟩
      exact ⟨c', hhosted', hc'⟩

/-- The reading of a sector leaves the controller idle. -/
theorem readSector (hi : Idle paths tree h) (track sector : UInt8) :
    Idle paths tree (Boot.readSector track sector h).2 := by
  unfold Boot.readSector
  split
  · exact hi
  · next r hregisters =>
    obtain ⟨c, hhosted, hc⟩ := hi
    obtain ⟨c', hhosted', _, hc'⟩ := (spares paths tree r).fetch track sector
      ⟨c, hhosted, located_of_registers? hhosted hregisters, hc⟩
    exact ⟨c', hhosted', hc'⟩

/-- A controller that goes stores nothing. -/
theorem closeController (hi : Idle paths tree h) : Idle paths tree (closeController h) := by
  obtain ⟨c, hhosted, hc⟩ := hi
  exact ⟨_, hosted?_closeController hhosted, hc.flushAll⟩

end Idle

end Bus

end HardSector
