import HardSector.Proofs.Bus.Access

/-!
# Taking a controller off a bus again

A controller that is installed takes the addresses of its registers, whoever answered there before,
and one that is removed gives up all addresses routed to it. A bus without a controller is
thus found again as it was before one was installed and removed, up to the addresses that the
controller took from the sense switches.
-/

namespace HardSector

/-- The operations of a processor: reads and writes at addresses. -/
def BusOperation.IsAccess {M R : Type} : BusOperation M R → Prop
  | .read _ | .write .. => True
  | _ => False

/-- The addresses that the device lists which an operation installs. -/
def BusOperation.listed {M R : Type} (W : Type) : BusOperation M R → List (String × UInt16)
  | .installController controller => controller.addresses
  | .installSwitches switches => Device.addresses W switches
  | _ => []

namespace Controller

variable {M R W : Type} [Medium M R W]

/-- What an access does to a controller: something only at the addresses that the controller
lists. -/
def access (c : Hosted (Controller M R) W) : BusOperation M R → Hosted (Controller M R) W
  | .read address =>
    if address ∈ c.device.addresses.map Prod.snd then (readAddress c address).2 else c
  | .write address byte =>
    if address ∈ c.device.addresses.map Prod.snd then (writeAddress c address byte).2 else c
  | _ => c

/-- A controller stays at its addresses whatever is accessed. -/
theorem base_access (c : Hosted (Controller M R) W) (op : BusOperation M R) :
    (access c op).device.base = c.device.base := by
  cases op with
  | read address =>
    rw [access]
    split
    · exact base_readAddress c address
    · rfl
  | write address byte =>
    rw [access]
    split
    · exact base_writeAddress c address byte
    · rfl
  | _ => rfl

end Controller

namespace Bus

variable {M R W : Type} [Medium M R W]

/-! ## Descriptions and switches -/

/-- A claim describes the listed addresses as they are listed and leaves the descriptions of the
others. -/
theorem descriptions_claim (bus : Bus M R) (kind : DeviceKind) (listed : List (String × UInt16))
    (address : UInt16) :
    ∃ description, (address ∈ listed.map Prod.snd → (description, address) ∈ listed) ∧
      (bus.claim kind listed).descriptions[address]? =
        if address ∈ listed.map Prod.snd then some description
        else bus.descriptions[address]? := by
  change ∃ description, _ ∧ (listed.foldl (fun map entry => map.insert entry.2 entry.1)
    bus.descriptions)[address]? = _
  generalize bus.descriptions = descriptions
  induction listed generalizing descriptions with
  | nil => exact ⟨"", nofun, rfl⟩
  | cons entry listed ih =>
    obtain ⟨description, hmem, hrest⟩ := ih (descriptions.insert entry.2 entry.1)
    rw [List.foldl_cons, hrest, Std.TreeMap.getElem?_insert]
    by_cases hlisted : address ∈ listed.map Prod.snd
    · exact ⟨description, fun _ => List.mem_cons_of_mem _ (hmem hlisted), by simp [hlisted]⟩
    · refine ⟨entry.1, fun haddress => ?_, ?_⟩
      · rcases List.mem_cons.mp haddress with rfl | haddress
        · exact List.mem_cons_self
        · exact absurd haddress hlisted
      · simp only [List.map_cons, List.mem_cons, hlisted, or_false, Std.compare_eq_iff_eq, if_false,
          eq_comm (a := address)]

/-- What an operation does to the description of an address: installing describes the listed
addresses as they are listed, and removing the controller forgets those that are not routed any
more. -/
theorem descriptions_perform (h : Hosted (Bus M R) W) (op : BusOperation M R) (address : UInt16) :
    ∃ description,
      (address ∈ (op.listed W).map Prod.snd → (description, address) ∈ op.listed W) ∧
      (perform h op).2.device.descriptions[address]? =
        match op with
        | .installController controller =>
          if address ∈ controller.addresses.map Prod.snd then some description
          else h.device.descriptions[address]?
        | .installSwitches _ =>
          if address = SenseSwitches.address then some description
          else h.device.descriptions[address]?
        | .removeController =>
          if (perform h op).2.device.routes[address]?.isSome then h.device.descriptions[address]?
          else none
        | _ => h.device.descriptions[address]? := by
  cases op with
  | installController controller =>
    obtain ⟨description, hmem, hclaim⟩ :=
      h.device.descriptions_claim .diskController controller.addresses address
    refine ⟨description, hmem, Eq.trans ?_ hclaim⟩
    change (installController h controller).device.descriptions[address]? = _
    unfold installController
    exact congrArg (fun w : Wiring => w.descriptions[address]?) (wiring_closeController _)
  | installSwitches switches =>
    obtain ⟨description, hmem, hclaim⟩ :=
      h.device.descriptions_claim .senseSwitches (Device.addresses W switches) address
    refine ⟨description, hmem, hclaim.trans ?_⟩
    simp [Device.addresses]
  | removeController =>
    refine ⟨"", nofun, ?_⟩
    change (h.device.descriptions.filter fun address _ =>
      h.device.removeController.2.routes.contains address)[address]? = _
    have hroutes : (perform h .removeController).2.device.routes =
        h.device.removeController.2.routes := rfl
    rw [Std.TreeMap.getElem?_filter', hroutes, ← Std.TreeMap.isSome_getElem?_eq_contains]
    cases h.device.descriptions[address]? <;>
      cases h.device.removeController.2.routes[address]? <;> rfl
  | operate op => exact ⟨"", nofun, congrArg (·.descriptions[address]?) (wiring_operate h op).1⟩
  | read readAt => exact ⟨"", nofun, congrArg (·.descriptions[address]?) (wiring_read h readAt).1⟩
  | write writtenAt byte =>
    exact ⟨"", nofun, congrArg (·.descriptions[address]?) (wiring_write h writtenAt byte).1⟩

/-- What an operation does to the sense switches: only installing some matters. -/
theorem switches_perform (h : Hosted (Bus M R) W) (op : BusOperation M R) :
    (perform h op).2.device.switches =
      match op with
      | .installSwitches switches => some switches
      | _ => h.device.switches := by
  cases op with
  | installController controller =>
    change (installController h controller).device.switches = _
    unfold installController
    exact congrArg Wiring.switches (wiring_closeController _)
  | installSwitches switches => rfl
  | removeController => rfl
  | operate op => exact congrArg Wiring.switches (wiring_operate h op).1
  | read address => exact congrArg Wiring.switches (wiring_read h address).1
  | write address byte => exact congrArg Wiring.switches (wiring_write h address byte).1

/-! ## Reachable buses -/

/-- What holds of a bus at all times: the addresses that are described are those that are routed,
and a route leads to a device that is installed, to the sense switches only from their address. -/
structure Tidy (bus : Bus M R) : Prop where
  described : ∀ address : UInt16, bus.descriptions[address]?.isSome = bus.routes[address]?.isSome
  controlled : ∀ address : UInt16, bus.routes[address]? = some .diskController → bus.base?.isSome
  switched : ∀ address : UInt16, bus.routes[address]? = some .senseSwitches →
    address = SenseSwitches.address ∧ bus.switches.isSome

/-- An operation keeps a bus tidy. -/
theorem Tidy.perform {h : Hosted (Bus M R) W} (ht : Tidy h.device) (op : BusOperation M R) :
    Tidy (perform h op).2.device := by
  have hroutes := routes_perform h op
  have hswitches := switches_perform h op
  refine ⟨fun address => ?_, fun address hrouted => ?_, fun address hrouted => ?_⟩
  · obtain ⟨description, _, hdescription⟩ := descriptions_perform h op address
    have hdescribed := ht.described address
    cases op with
    | removeController =>
      simp only at hdescription
      rw [hdescription]
      cases hroute : (Bus.perform h .removeController).2.device.routes[address]? with
      | none => rfl
      | some kind =>
        have hfiltered := (hroutes address).symm.trans hroute
        obtain ⟨hbefore, _⟩ := Option.filter_eq_some_iff.mp hfiltered
        rw [Option.isSome_some, if_pos rfl, hdescribed, hbefore]
        rfl
    | installController controller =>
      rw [hdescription, hroutes]
      dsimp only
      split
      · rfl
      · exact hdescribed
    | installSwitches switches =>
      rw [hdescription, hroutes]
      dsimp only
      split
      · rfl
      · exact hdescribed
    | _ =>
      rw [hdescription, hroutes]
      exact hdescribed
  · rw [base?_perform]
    rcases (routed_perform h op address).mp hrouted with ⟨controller, rfl, _⟩ | ⟨hbefore, hkept⟩
    · rfl
    · cases op with
      | installController controller => rfl
      | removeController => exact absurd trivial hkept
      | _ => exact ht.controlled address hbefore
  · rw [hroutes] at hrouted
    rw [hswitches]
    cases op with
    | installController controller =>
      dsimp only at hrouted
      split at hrouted
      · cases hrouted
      · exact ht.switched address hrouted
    | installSwitches switches =>
      dsimp only at hrouted
      split at hrouted
      · next haddress => exact ⟨haddress, rfl⟩
      · exact ⟨(ht.switched address hrouted).1, rfl⟩
    | removeController => exact ht.switched address (Option.filter_eq_some_iff.mp hrouted).1
    | _ => exact ht.switched address hrouted

/-- A bus is tidy after every run. -/
theorem tidy_after (host : W) (ops : List (BusOperation M R)) :
    Tidy (after (empty host) ops).device := by
  refine Run.final_induct (P := fun h : Hosted (Bus M R) W => Tidy h.device) ⟨?_, ?_, ?_⟩
    fun _ op _ ht => ht.perform op
  · simp [empty]
  · simp [empty]
  · simp [empty]

/-- Nothing is routed to a controller that is not there. -/
theorem Tidy.unclaimed {bus : Bus M R} (ht : Tidy bus) (hnone : bus.controller = none)
    (address : UInt16) : bus.routes[address]? ≠ some .diskController := by
  intro hrouted
  have hbase := ht.controlled address hrouted
  rw [base?, hnone] at hbase
  cases hbase

/-- Where nothing is routed nothing is described. -/
theorem Tidy.undescribed {bus : Bus M R} (ht : Tidy bus) {address : UInt16}
    (hrouted : bus.routes[address]? = none) : bus.descriptions[address]? = none := by
  rw [← Option.isNone_iff_eq_none, ← Option.not_isSome, ht.described, hrouted]
  rfl

/-! ## Installing and removing -/

/-- A controller that is installed on a bus without one is in the host of the bus, and it is
reached exactly at the addresses it lists. -/
theorem installed_alone {h : Hosted (Bus M R) W} (ht : Tidy h.device)
    (hnone : h.device.controller = none) (controller : Controller M R) :
    let installed := (perform h (.installController controller)).2
    hosted? installed = some ⟨controller, h.host, installed.notices⟩ ∧
      ∀ address : UInt16, installed.device.routes[address]? = some .diskController ↔
        address ∈ controller.addresses.map Prod.snd := by
  intro installed
  refine ⟨?_, fun address => ?_⟩
  · have hhost : installed.host = h.host := by
      change (installController h controller).host = h.host
      unfold installController closeController
      simp [hnone, claim, Hosted.note]
    exact hosted?_eq_some_iff.mpr ⟨rfl, hhost, rfl⟩
  · have hroutes : installed.device.routes[address]? = _ := routes_perform h _ address
    rw [hroutes]
    dsimp only
    split
    · next hlisted => exact iff_of_true rfl hlisted
    · next hlisted => exact iff_of_false (ht.unclaimed hnone address) hlisted

/-- An access does to an installed controller what it does to the controller alone. -/
theorem hosted?_access {h : Hosted (Bus M R) W} {c : Hosted (Controller M R) W}
    (hhosted : hosted? h = some c)
    (hrouted : ∀ address : UInt16, h.device.routes[address]? = some .diskController ↔
      address ∈ c.device.addresses.map Prod.snd)
    {op : BusOperation M R} (haccess : op.IsAccess) :
    hosted? (perform h op).2 = some (Controller.access c op) := by
  cases op with
  | read address =>
    rw [Controller.access]
    split
    · next hlisted => exact (read_routed hhosted ((hrouted address).mpr hlisted)).2
    · next hlisted =>
      exact (hosted?_read_of_unrouted fun h => hlisted ((hrouted address).mp h)).trans hhosted
  | write address byte =>
    rw [Controller.access]
    split
    · next hlisted => exact (write_routed hhosted byte ((hrouted address).mpr hlisted)).2
    · next hlisted =>
      exact (hosted?_write_of_unrouted byte fun h => hlisted ((hrouted address).mp h)).trans hhosted
  | _ => cases haccess

/-- An access leaves the wiring. -/
theorem wiring_access (h : Hosted (Bus M R) W) {op : BusOperation M R} (haccess : op.IsAccess) :
    (perform h op).2.device.wiring = h.device.wiring := by
  cases op with
  | read address => exact (wiring_read h address).1
  | write address byte => exact (wiring_write h address byte).1
  | _ => cases haccess

/-- Accesses do to an installed controller what they do to the controller alone, and they leave the
wiring. -/
theorem after_accesses {h : Hosted (Bus M R) W} {c : Hosted (Controller M R) W}
    (hhosted : hosted? h = some c)
    (hrouted : ∀ address : UInt16, h.device.routes[address]? = some .diskController ↔
      address ∈ c.device.addresses.map Prod.snd)
    {ops : List (BusOperation M R)} (haccesses : ∀ op ∈ ops, op.IsAccess) :
    hosted? (after h ops) = some (ops.foldl Controller.access c) ∧
      (after h ops).device.wiring = h.device.wiring := by
  induction ops generalizing h c with
  | nil => exact ⟨hhosted, rfl⟩
  | cons op ops ih =>
    have haccess := haccesses op List.mem_cons_self
    have hwiring := wiring_access h haccess
    have hnext := hosted?_access hhosted hrouted haccess
    have hrouted' : ∀ address : UInt16,
        (perform h op).2.device.routes[address]? = some .diskController ↔
          address ∈ (Controller.access c op).device.addresses.map Prod.snd := by
      intro address
      have hroutes : (perform h op).2.device.routes = h.device.routes :=
        congrArg Wiring.routes hwiring
      rw [hroutes, hrouted, Controller.addresses_congr (Controller.base_access c op)]
    obtain ⟨hfinal, hwiring'⟩ :=
      ih hnext hrouted' fun op' hop' => haccesses op' (List.mem_cons_of_mem _ hop')
    exact ⟨hfinal, hwiring'.trans hwiring⟩

/-- Where no device answers that is installed, the line is open. -/
theorem read_of_not_live {h : Hosted (Bus M R) W} {address : UInt16}
    (hlive : h.device.live address = false) : (read h address).1 = .ok openLine := by
  have hanswer : (answer h address).1 = .ok none := by
    obtain ⟨bus, host, notices⟩ := h
    unfold live at hlive
    unfold answer
    cases hroute : bus.routes[address]? with
    | none => simp only [hroute]
    | some kind =>
      cases kind <;> simp only [hroute, Option.isSome_eq_false_iff,
        Option.isNone_iff_eq_none] at hlive <;> simp only [hroute, hlive]
  rw [(read_eq h address).1, hanswer]
  rfl

/-- Where the sense switches answer, their positions are read. -/
theorem read_of_switched {h : Hosted (Bus M R) W} {address : UInt16} {switches : SenseSwitches}
    (hrouted : h.device.routes[address]? = some .senseSwitches)
    (hswitches : h.device.switches = some switches) :
    (read h address).1 = .ok switches.value := by
  have hanswer : (answer h address).1 = .ok (some switches.value) := by
    unfold answer
    simp only [hrouted, hswitches]
    rfl
  rw [(read_eq h address).1, hanswer]
  rfl

/-- Taking off a controller that was installed on a bus without one frees the addresses it lists and
leaves the others. -/
theorem freed_of_removal {h : Hosted (Bus M R) W} (ht : Tidy h.device)
    (hnone : h.device.controller = none) (controller : Controller M R)
    {accesses : List (BusOperation M R)} (haccesses : ∀ op ∈ accesses, op.IsAccess)
    (address : UInt16) :
    let installed := (perform h (.installController controller)).2
    let removed := (perform (after installed accesses) .removeController).2.device
    let listed := controller.addresses.map Prod.snd
    removed.routes[address]? =
        (if address ∈ listed then none else h.device.routes[address]?) ∧
      removed.descriptions[address]? =
        (if address ∈ listed then none else h.device.descriptions[address]?) := by
  intro installed removed listed
  obtain ⟨hhosted, hrouted⟩ := installed_alone ht hnone controller
  obtain ⟨_, hwiring⟩ := after_accesses hhosted hrouted haccesses
  have hroutes : (after installed accesses).device.routes = installed.device.routes :=
    congrArg Wiring.routes hwiring
  have hdescriptions : (after installed accesses).device.descriptions =
      installed.device.descriptions := congrArg Wiring.descriptions hwiring
  have hfreed : removed.routes[address]? =
      if address ∈ listed then none else h.device.routes[address]? := by
    have hfiltered : removed.routes[address]? =
        (installed.device.routes[address]?).filter (· != .diskController) := by
      rw [← hroutes]
      exact routes_perform (after installed accesses) .removeController address
    have hinstalled : installed.device.routes[address]? =
        if address ∈ listed then some .diskController else h.device.routes[address]? :=
      routes_perform h (.installController controller) address
    rw [hfiltered, hinstalled]
    split
    · rfl
    · cases hbefore : h.device.routes[address]? with
      | none => rfl
      | some kind =>
        cases kind with
        | diskController => exact absurd hbefore (ht.unclaimed hnone address)
        | senseSwitches => rfl
  refine ⟨hfreed, ?_⟩
  obtain ⟨_, _, hkept⟩ := descriptions_perform (after installed accesses) .removeController address
  have hkept : removed.descriptions[address]? =
      if removed.routes[address]?.isSome
      then (after installed accesses).device.descriptions[address]? else none := hkept
  obtain ⟨description, _, hdescribed⟩ :=
    descriptions_perform h (.installController controller) address
  have hdescribed : installed.device.descriptions[address]? =
      if address ∈ listed then some description else h.device.descriptions[address]? := hdescribed
  rw [hkept, hfreed, hdescriptions, hdescribed]
  split
  · rfl
  · rw [← ht.described]
    cases h.device.descriptions[address]? <;> rfl

/-- A controller lists the address of the sense switches exactly if it lies there or at one of the
two addresses before. -/
theorem switches_listed_iff (controller : Controller M R) :
    SenseSwitches.address ∈ controller.addresses.map Prod.snd ↔
      0xFD ≤ controller.base ∧ controller.base ≤ 0xFF := by
  have haddress : SenseSwitches.address.toNat = 255 := rfl
  have hfirst : (0xFD : UInt16).toNat = 253 := rfl
  have hlast : (0xFF : UInt16).toNat = 255 := rfl
  have htwo : (2 : UInt16).toNat = 2 := rfl
  rw [Controller.mem_addresses_iff]
  simp only [UInt16.le_iff_toNat_le]
  by_cases hle : controller.base ≤ SenseSwitches.address
  · rw [UInt16.toNat_sub_of_le _ _ hle]
    omega
  · rw [UInt16.le_iff_toNat_le] at hle
    omega

/-- A controller that is installed on a bus without one, used and removed comes back as the accesses
at its addresses have left it. Its addresses are then free, and every other address is routed and
described as before. So all addresses are as before exactly unless the controller lay over the
address at which sense switches answered; there the line is open afterwards, and otherwise the
switches still answer. -/
theorem removal_frees_listed_addresses (host : W) (past accesses : List (BusOperation M R))
    (controller : Controller M R)
    (hnone : (after (empty host) past).device.controller = none)
    (haccesses : ∀ op ∈ accesses, op.IsAccess) :
    let before := after (empty host) past
    let installed := (perform before (.installController controller)).2
    let used := accesses.foldl Controller.access ⟨controller, before.host, installed.notices⟩
    let removal := perform (after installed accesses) .removeController
    let listed := controller.addresses.map Prod.snd
    let answering := before.device.routes[SenseSwitches.address]? = some .senseSwitches
    removal.1 = .removed (some used.device) ∧ removal.2.device.controller = none ∧
    (∀ address, removal.2.device.routes[address]? =
      if address ∈ listed then none else before.device.routes[address]?) ∧
    (∀ address, removal.2.device.description? address =
      if address ∈ listed then none else before.device.description? address) ∧
    ((∀ address : UInt16, removal.2.device.routes[address]? = before.device.routes[address]? ∧
        removal.2.device.description? address = before.device.description? address) ↔
      ¬(answering ∧ SenseSwitches.address ∈ listed)) ∧
    (SenseSwitches.address ∈ listed ↔ 0xFD ≤ controller.base ∧ controller.base ≤ 0xFF) ∧
    (answering → ∃ switches, before.device.switches = some switches ∧
      (read removal.2 SenseSwitches.address).1 =
        .ok (if SenseSwitches.address ∈ listed then openLine else switches.value)) := by
  intro before installed used removal listed answering
  have htidy : Tidy before.device := tidy_after host past
  obtain ⟨hhosted, hrouted⟩ := installed_alone htidy hnone controller
  obtain ⟨hfinal, hwiring⟩ := after_accesses hhosted hrouted haccesses
  have hfreed := freed_of_removal htidy hnone controller haccesses
  refine ⟨?_, rfl, fun address => (hfreed address).1, fun address => (hfreed address).2, ?_,
    switches_listed_iff controller, fun hanswering => ?_⟩
  · change BusAnswer.removed (after installed accesses).device.controller = _
    rw [(hosted?_eq_some_iff.mp hfinal).1]
  · constructor
    · rintro hsame ⟨hanswering, hcovered⟩
      have hroute := (hsame SenseSwitches.address).1
      rw [(hfreed _).1, if_pos hcovered, hanswering] at hroute
      cases hroute
    · intro hclear address
      unfold description?
      rw [(hfreed address).1, (hfreed address).2]
      by_cases hlisted : address ∈ listed
      · -- Only the switches could have answered at an address that the controller took.
        have hroute : before.device.routes[address]? = none := by
          cases hroute : before.device.routes[address]? with
          | none => rfl
          | some kind =>
            cases kind with
            | diskController => exact absurd hroute (htidy.unclaimed hnone address)
            | senseSwitches =>
              obtain ⟨rfl, _⟩ := htidy.switched address hroute
              exact absurd ⟨hroute, hlisted⟩ hclear
        rw [if_pos hlisted, if_pos hlisted, hroute, htidy.undescribed hroute]
        exact ⟨rfl, rfl⟩
      · rw [if_neg hlisted, if_neg hlisted]
        exact ⟨rfl, rfl⟩
  · obtain ⟨_, hsome⟩ := htidy.switched SenseSwitches.address hanswering
    obtain ⟨switches, hbefore⟩ := Option.isSome_iff_exists.mp hsome
    refine ⟨switches, hbefore, ?_⟩
    have hroute := (hfreed SenseSwitches.address).1
    split
    · next hcovered =>
      rw [if_pos hcovered] at hroute
      exact read_of_not_live (by rw [live, hroute])
    · next hclear =>
      rw [if_neg hclear, hanswering] at hroute
      refine read_of_switched hroute ?_
      have hswitches : (after installed accesses).device.switches = installed.device.switches :=
        congrArg Wiring.switches hwiring
      change (after installed accesses).device.switches = _
      rw [hswitches, ← hbefore]
      exact switches_perform before (.installController controller)

/-- Behind a controller at its usual addresses the sense switches answer as before. -/
theorem removal_leaves_distant_switches :
    let past : List (BusOperation CopyOnWrite PatchPool) := [.installSwitches ⟨0xA5⟩]
    let controller : Controller CopyOnWrite PatchPool := .ofPool 1 8
    let accesses : List (BusOperation CopyOnWrite PatchPool) := [.write 8 3, .read 10, .read 255]
    let before := after (empty ()) past
    let removal :=
      perform (after (perform before (.installController controller)).2 accesses) .removeController
    before.device.controller = none ∧ (∀ op ∈ accesses, op.IsAccess) ∧
    (∀ address : UInt16, removal.2.device.routes[address]? = before.device.routes[address]? ∧
      removal.2.device.description? address = before.device.description? address) ∧
    (read removal.2 SenseSwitches.address).1 = .ok 0xA5 := by
  intro past controller accesses
  have hnone : (after (empty ()) past).device.controller = none := rfl
  have haccesses : ∀ op ∈ accesses, op.IsAccess := by simp [accesses, BusOperation.IsAccess]
  have hclear : SenseSwitches.address ∉ controller.addresses.map Prod.snd := by decide +kernel
  have hanswering : (after (empty ()) past).device.routes[SenseSwitches.address]? =
      some .senseSwitches := by decide +kernel
  obtain ⟨_, _, _, _, hsame, _, hswitches⟩ :=
    removal_frees_listed_addresses () past accesses controller hnone haccesses
  obtain ⟨switches, hinstalled, hread⟩ := hswitches hanswering
  have hvalue : switches.value = 0xA5 := by
    cases hinstalled
    rfl
  rw [if_neg hclear, hvalue] at hread
  exact ⟨hnone, haccesses, hsame.mpr fun hcovered => hclear hcovered.2, hread⟩

/-- A controller that lies over the address of the sense switches takes it with it: the switches are
still there, but the line is open. -/
theorem removal_takes_covered_switches :
    let past : List (BusOperation CopyOnWrite PatchPool) := [.installSwitches ⟨0xA5⟩]
    let controller : Controller CopyOnWrite PatchPool := .ofPool 1 0xFD
    let before := after (empty ()) past
    let removal := perform (perform before (.installController controller)).2 .removeController
    before.device.controller.isNone ∧ (read before 0xFF).1 = .ok 0xA5 ∧
      before.device.description? 0xFF = some "Front Panel Sense Switches" ∧
      removal.2.device.switches = some ⟨0xA5⟩ ∧ (read removal.2 0xFF).1 = .ok 0xFF ∧
      removal.2.device.routes[(0xFF : UInt16)]? = none ∧
      removal.2.device.description? 0xFF = none := by
  decide +kernel

end Bus

end HardSector
