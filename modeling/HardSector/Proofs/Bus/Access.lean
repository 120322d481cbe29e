import HardSector.Proofs.Boot.Steps
import HardSector.Proofs.Bus.Routing
import HardSector.Proofs.Controller.Sound
import HardSector.Proofs.Controller.TrackZero

/-!
# Accesses that reach the installed controller

A controller that a bus routes its three addresses to can be used through the bus as it can
be used directly: accesses at these addresses are answered by its registers, and nothing
else of the bus matters for the answers.
-/

namespace HardSector

namespace Controller

variable {M R W : Type} [Medium M R W]

/-- A controller amid its host is an I/O space that has registers only. -/
instance : IoSpace (Hosted (Controller M R) W) where
  read := readAddress
  write := writeAddress

/-- The registers of a controller are at their addresses. -/
def Located (r : Boot.Registers) (controller : Controller M R) : Prop :=
  ∀ register : Register, controller.address? register = some (r.address register)

namespace Located

variable {r : Boot.Registers} {h : Hosted (Controller M R) W}

/-- Where the registers are depends only on where the controller lies. -/
theorem congr {controller controller' : Controller M R} (hl : Located r controller)
    (hbase : controller'.base = controller.base) : Located r controller' := by
  intro register
  unfold address? addressAt?
  rw [hbase]
  exact hl register

/-- A controller lists the addresses of its registers. -/
theorem mem_addresses {controller : Controller M R} (hl : Located r controller)
    (register : Register) : r.address register ∈ controller.addresses.map Prod.snd := by
  have hlisted : (register.label, r.address register) ∈ controller.addresses :=
    mem_addresses_iff_register.mpr
      ⟨register, rfl, (address?_eq_some_iff _ _ _).mp (hl register)⟩
  exact List.mem_map_of_mem hlisted

/-- An operation leaves the registers at their addresses. -/
theorem perform (hl : Located r h.device) (op : Operation M) :
    Located r (perform h op).2.device :=
  hl.congr (base_perform h op)

/-- A command leaves the registers at their addresses. -/
theorem obey (hl : Located r h.device) (command : Command) : Located r (obey h command).2.device :=
  hl.perform (.command command)

/-- The register at the address of a register. -/
theorem ofDistance?_sub {controller : Controller M R} (hl : Located r controller)
    (register : Register) :
    Register.ofDistance? (r.address register - controller.base) = some register := by
  have haddress := (address?_eq_some_iff _ _ _).mp (hl register)
  have hle : controller.base ≤ r.address register := by
    rw [UInt16.le_iff_toNat_le]
    omega
  have hdistance : r.address register - controller.base = register.distance := by
    apply UInt16.toNat_inj.mp
    rw [UInt16.toNat_sub_of_le _ _ hle]
    omega
  rw [hdistance]
  cases register <;> rfl

/-- Different registers are at different addresses. -/
theorem address_inj {controller : Controller M R} (hl : Located r controller)
    {register register' : Register} (heq : r.address register = r.address register') :
    register = register' := by
  have hfound := hl.ofDistance?_sub register
  rw [heq, hl.ofDistance?_sub register'] at hfound
  exact (Option.some.inj hfound).symm

variable (hl : Located r h.device)

include hl

/-- The status register is read. -/
theorem input_status : Boot.input r.status h = (.ok h.device.status, h) := by
  have hread : IoSpace.read h (r.address .status) = (.ok h.device.status, h) := by
    change readAddress h (r.address .status) = _
    rw [readAddress_eq, hl.ofDistance?_sub]
    rfl
  unfold Boot.input
  rw [show r.status = r.address .status from rfl, hread]

/-- The position register is read. -/
theorem input_sector :
    Boot.input r.sector h = (.ok (sector h).1, (Controller.obey h .sector).2) := by
  have hread : IoSpace.read h (r.address .sector) =
      (.ok (sector h).1, (Controller.obey h .sector).2) := by
    change readAddress h (r.address .sector) = _
    rw [readAddress_eq, hl.ofDistance?_sub]
  unfold Boot.input
  rw [show r.sector = r.address .sector from rfl, hread]

/-- The data register is read. -/
theorem input_data {byte : UInt8} (hbyte : (Controller.obey h .read).1 = .byte byte) :
    Boot.input r.data h = (.ok byte, (Controller.obey h .read).2) := by
  have hok : (read h).1 = .ok byte := by
    change Reply.ofResult (read h).1 = .byte byte at hbyte
    cases hread : (read h).1 with
    | ok value =>
      rw [hread] at hbyte
      rw [Reply.byte.inj hbyte]
    | error cause =>
      rw [hread] at hbyte
      cases hbyte
  have hread : IoSpace.read h (r.address .data) = (.ok byte, (Controller.obey h .read).2) := by
    change readAddress h (r.address .data) = _
    rw [readAddress_eq, hl.ofDistance?_sub, ← hok]
  unfold Boot.input
  rw [show r.data = r.address .data from rfl, hread]

/-- A drive is selected. -/
theorem output_status (byte : UInt8) :
    Boot.output r.status byte h = (.ok (), (Controller.obey h (.select byte)).2) := by
  have hwrite : IoSpace.write h (r.address .status) byte =
      (.ok (), (Controller.obey h (.select byte)).2) := by
    change writeAddress h (r.address .status) byte = _
    rw [writeAddress_eq, hl.ofDistance?_sub]
  unfold Boot.output
  rw [show r.status = r.address .status from rfl, hwrite]

/-- A control byte is given to the selected drive. -/
theorem output_sector (byte : UInt8) :
    Boot.output r.sector byte h = (.ok (), (Controller.obey h (.function byte)).2) := by
  have hwrite : IoSpace.write h (r.address .sector) byte =
      (.ok (), (Controller.obey h (.function byte)).2) := by
    change writeAddress h (r.address .sector) byte = _
    rw [writeAddress_eq, hl.ofDistance?_sub]
  unfold Boot.output
  rw [show r.sector = r.address .sector from rfl, hwrite]

end Located

/-! ## Controllers in use -/

/-- The controllers that there are: new ones, those that were moved to other addresses, and those
that something was done to in some host. -/
inductive Used (W : Type) [Medium M R W] : Controller M R → Prop
  | new (shared : R) (base : UInt16) : Used W (.ofShared shared base)
  | moved {controller : Controller M R} (hused : Used W controller) (base : UInt16) :
      Used W { controller with base := base }
  | performed {controller : Controller M R} (hused : Used W controller) (host : W)
      (notices : List Notice) (op : Operation M) :
      Used W (perform ⟨controller, host, notices⟩ op).2.device

namespace Used

variable {h : Hosted (Controller M R) W}

/-- A controller is in use after an operation. -/
theorem perform (hused : Used W h.device) (op : Operation M) :
    Used W (perform h op).2.device :=
  hused.performed h.host h.notices op

/-- A controller is in use after a register was read. -/
theorem readAddress (hused : Used W h.device) (address : UInt16) :
    Used W (readAddress h address).2.device := by
  rw [readAddress_eq]
  split
  · exact hused.perform (.command .status)
  · exact hused.perform (.command .sector)
  · exact hused.perform (.command .read)
  · exact hused

/-- A controller is in use after a register was written. -/
theorem writeAddress (hused : Used W h.device) (address : UInt16) (byte : UInt8) :
    Used W (writeAddress h address byte).2.device := by
  rw [writeAddress_eq]
  split
  · exact hused.perform (.command (.select byte))
  · exact hused.perform (.command (.function byte))
  · exact hused.perform (.command (.write byte))
  · exact hused

/-- The drives of a controller in use are sound. -/
theorem sound {controller : Controller M R} (hused : Used W controller) (host : W)
    (notices : List Notice) : Sound ⟨controller, host, notices⟩ := by
  induction hused generalizing host notices with
  | new shared base => exact sound_fresh shared base host
  | moved _ base ih => exact ih host notices
  | performed _ host' notices' op ih => exact (ih host' notices').perform op

/-- The drives of a controller in use are honest. -/
theorem honest {controller : Controller M R} (hused : Used W controller) (host : W)
    (notices : List Notice) : Honest ⟨controller, host, notices⟩ := by
  induction hused generalizing host notices with
  | new shared base => exact honest_fresh shared base host
  | moved _ base ih => exact ih host notices
  | performed _ host' notices' op ih => exact (ih host' notices').perform op

end Used

end Controller

namespace Bus

variable {M R W : Type} {h : Hosted (Bus M R) W} {c : Hosted (Controller M R) W}

/-- The installed controller amid the host of its bus, if there is one. -/
def hosted? (h : Hosted (Bus M R) W) : Option (Hosted (Controller M R) W) :=
  h.device.controller.map fun controller => ⟨controller, h.host, h.notices⟩

/-- A controller is installed, and the bus is in its host. -/
theorem hosted?_eq_some_iff :
    hosted? h = some c ↔
      h.device.controller = some c.device ∧ h.host = c.host ∧ h.notices = c.notices := by
  obtain ⟨bus, host, notices⟩ := h
  obtain ⟨controller, host', notices'⟩ := c
  simp [hosted?]

/-- What leaves the controller where it is leaves none missing. -/
theorem installed_of_base? {h' : Hosted (Bus M R) W}
    (hbase : h'.device.base? = h.device.base?) (hhosted : hosted? h' = some c) :
    ∃ before, hosted? h = some before := by
  rw [base?, base?, (hosted?_eq_some_iff.mp hhosted).1] at hbase
  obtain ⟨controller, hcontroller, _⟩ := Option.map_eq_some_iff.mp hbase.symm
  exact ⟨⟨controller, h.host, h.notices⟩, hosted?_eq_some_iff.mpr ⟨hcontroller, rfl, rfl⟩⟩

/-- A controller is installed with its registers at some addresses, which are routed to it. -/
structure Wired (r : Boot.Registers) (h : Hosted (Bus M R) W) (c : Hosted (Controller M R) W) :
    Prop where
  hosted : hosted? h = some c
  located : Controller.Located r c.device
  routed : ∀ register : Register,
    h.device.routes[r.address register]? = some .diskController

/-- Where the registers of a bus are found, the installed controller has them. -/
theorem located_of_registers? {r : Boot.Registers} (hhosted : hosted? h = some c)
    (hregisters : Boot.registers? h.device = .ok r) : Controller.Located r c.device := by
  unfold Boot.registers? at hregisters
  simp only [(hosted?_eq_some_iff.mp hhosted).1] at hregisters
  split at hregisters
  · next hstatus hsector hdata =>
    cases hregisters
    rintro (_ | _ | _)
    · exact hstatus
    · exact hsector
    · exact hdata
  · cases hregisters

/-- The registers of a wired controller are found on the bus. -/
theorem Wired.registers? {r : Boot.Registers} (hw : Wired r h c) :
    Boot.registers? h.device = .ok r := by
  obtain ⟨hcontroller, _, _⟩ := hosted?_eq_some_iff.mp hw.hosted
  unfold Boot.registers?
  simp only [hcontroller, hw.located .status, hw.located .sector, hw.located .data,
    Boot.Registers.address]

/-- Where the registers of a bus are found and routed to a controller, one is wired to them. -/
theorem exists_wired {r : Boot.Registers} (hregisters : Boot.registers? h.device = .ok r)
    (hrouted : ∀ register : Register,
      h.device.routes[r.address register]? = some .diskController) : ∃ c, Wired r h c := by
  cases hcontroller : h.device.controller with
  | none =>
    unfold Boot.registers? at hregisters
    simp only [hcontroller, reduceCtorEq] at hregisters
  | some controller =>
    have hhosted : hosted? h = some ⟨controller, h.host, h.notices⟩ :=
      hosted?_eq_some_iff.mpr ⟨hcontroller, rfl, rfl⟩
    exact ⟨_, hhosted, located_of_registers? hhosted hregisters, hrouted⟩

variable [Medium M R W]

/-- A read is answered and counted. -/
theorem read_eq (h : Hosted (Bus M R) W) (address : UInt16) :
    (read h address).1 = (answer h address).1.map (·.getD openLine) ∧
      hosted? (read h address).2 = hosted? (answer h address).2 := by
  unfold read
  split <;> next heq => rw [heq]; exact ⟨rfl, rfl⟩

/-- A write is delivered and counted. -/
theorem write_eq (h : Hosted (Bus M R) W) (address : UInt16) (byte : UInt8) :
    (write h address byte).1 = (deliver h address byte).1.map (fun _ => ()) ∧
      hosted? (write h address byte).2 = hosted? (deliver h address byte).2 := by
  unfold write
  split <;> next heq => rw [heq]; exact ⟨rfl, rfl⟩

/-- A read at an address that is routed to the controller reads from the controller. -/
theorem read_routed (hhosted : hosted? h = some c) {address : UInt16}
    (hrouted : h.device.routes[address]? = some .diskController) :
    (read h address).1 = (Controller.readAddress c address).1 ∧
      hosted? (read h address).2 = some (Controller.readAddress c address).2 := by
  obtain ⟨houtcome, hafter⟩ := read_eq h address
  obtain ⟨hcontroller, hhost, hnotices⟩ := hosted?_eq_some_iff.mp hhosted
  have hanswer : (answer h address).1 = (Controller.readAddress c address).1.map some ∧
      hosted? (answer h address).2 = some (Controller.readAddress c address).2 := by
    obtain ⟨bus, host, notices⟩ := h
    obtain ⟨controller, _, _⟩ := c
    dsimp only at hcontroller hhost hnotices hrouted
    subst hhost hnotices
    unfold answer
    simp only [hrouted, hcontroller]
    exact ⟨rfl, rfl⟩
  rw [houtcome, hafter, hanswer.1, hanswer.2]
  refine ⟨?_, rfl⟩
  cases (Controller.readAddress c address).1 <;> rfl

/-- A write at an address that is routed to the controller writes to the controller. -/
theorem write_routed (hhosted : hosted? h = some c) {address : UInt16} (byte : UInt8)
    (hrouted : h.device.routes[address]? = some .diskController) :
    (write h address byte).1 = (Controller.writeAddress c address byte).1 ∧
      hosted? (write h address byte).2 = some (Controller.writeAddress c address byte).2 := by
  obtain ⟨houtcome, hafter⟩ := write_eq h address byte
  obtain ⟨hcontroller, hhost, hnotices⟩ := hosted?_eq_some_iff.mp hhosted
  have hdeliver : (deliver h address byte).1 =
        (Controller.writeAddress c address byte).1.map (fun _ => true) ∧
      hosted? (deliver h address byte).2 = some (Controller.writeAddress c address byte).2 := by
    obtain ⟨bus, host, notices⟩ := h
    obtain ⟨controller, _, _⟩ := c
    dsimp only at hcontroller hhost hnotices hrouted
    subst hhost hnotices
    unfold deliver
    simp only [hrouted, hcontroller]
    exact ⟨rfl, rfl⟩
  rw [houtcome, hafter, hdeliver.1, hdeliver.2]
  refine ⟨?_, rfl⟩
  cases (Controller.writeAddress c address byte).1 <;> rfl

/-- A read elsewhere does not touch the controller or its host. -/
theorem hosted?_read_of_unrouted {address : UInt16}
    (hrouted : h.device.routes[address]? ≠ some .diskController) :
    hosted? (read h address).2 = hosted? h := by
  rw [(read_eq h address).2]
  unfold answer
  split
  split
  · rfl
  · next hroute => exact absurd hroute hrouted
  · split <;> rfl

/-- A write elsewhere does not touch the controller or its host. -/
theorem hosted?_write_of_unrouted {address : UInt16} (byte : UInt8)
    (hrouted : h.device.routes[address]? ≠ some .diskController) :
    hosted? (write h address byte).2 = hosted? h := by
  rw [(write_eq h address byte).2]
  unfold deliver
  split
  split
  · rfl
  · next hroute => exact absurd hroute hrouted
  · split <;> rfl

/-- A controller that goes flushes its drives. -/
theorem hosted?_closeController (hhosted : hosted? h = some c) :
    hosted? (closeController h) = some (Controller.flushAll c) := by
  obtain ⟨bus, host, notices⟩ := h
  obtain ⟨controller, _, _⟩ := c
  obtain ⟨hinstalled, rfl, rfl⟩ := hosted?_eq_some_iff.mp hhosted
  dsimp only at hinstalled
  unfold closeController
  simp only [hinstalled]
  rfl

/-! ## Controllers on a bus -/

/-- A bus mirrors the controller that is wired to it. -/
theorem mirrors_wired (r : Boot.Registers) :
    Boot.Mirrors r (Wired (M := M) (R := R) (W := W) r) where
  read {h c} hw register := by
    obtain ⟨houtcome, hhosted⟩ := read_routed hw.hosted (hw.routed register)
    refine ⟨houtcome, hhosted, hw.located.congr (Controller.base_readAddress c _), fun other => ?_⟩
    rw [← hw.routed other]
    exact congrArg (·.routes[r.address other]?) (wiring_read h _).1
  write {h c} hw register _ byte := by
    obtain ⟨houtcome, hhosted⟩ := write_routed hw.hosted byte (hw.routed register)
    refine ⟨houtcome, hhosted, hw.located.congr (Controller.base_writeAddress c _ byte),
      fun other => ?_⟩
    rw [← hw.routed other]
    exact congrArg (·.routes[r.address other]?) (wiring_write h _ byte).1

/-- The controller that is installed in the course of operations is in use, if only such
controllers are installed. -/
theorem used_after {host : W} {ops : List (BusOperation M R)}
    (hused : ∀ installed, .installController installed ∈ ops → Controller.Used W installed)
    (hhosted : hosted? (after (empty host) ops) = some c) : Controller.Used W c.device := by
  suffices hall : ∀ c, hosted? (after (empty host) ops) = some c → Controller.Used W c.device from
    hall c hhosted
  refine Run.final_induct (P := fun h => ∀ c, hosted? h = some c → Controller.Used W c.device)
    nofun fun h op hop hh c hc => ?_
  cases op with
  | installController controller =>
    obtain ⟨hinstalled, _, _⟩ := hosted?_eq_some_iff.mp hc
    rw [← Option.some.inj hinstalled]
    exact hused controller hop
  | installSwitches switches =>
    obtain ⟨hinstalled, _, _⟩ := hosted?_eq_some_iff.mp hc
    exact hh ⟨c.device, h.host, h.notices⟩ (hosted?_eq_some_iff.mpr ⟨hinstalled, rfl, rfl⟩)
  | removeController => cases hc
  | operate op =>
    obtain ⟨hinstalled, _, _⟩ := hosted?_eq_some_iff.mp hc
    change (operate h op).2.device.controller = _ at hinstalled
    unfold operate at hinstalled
    split at hinstalled
    · next hnone =>
      rw [hnone] at hinstalled
      cases hinstalled
    · next controller hcontroller =>
      rw [← Option.some.inj hinstalled]
      refine Controller.Used.perform (hh ⟨controller, h.host, h.notices⟩ ?_) op
      exact hosted?_eq_some_iff.mpr ⟨hcontroller, rfl, rfl⟩
  | read address =>
    change hosted? (read h address).2 = some c at hc
    obtain ⟨before, hbefore⟩ := installed_of_base? (wiring_read h address).2 hc
    by_cases hrouted : h.device.routes[address]? = some .diskController
    · rw [(read_routed hbefore hrouted).2] at hc
      obtain rfl := Option.some.inj hc
      exact (hh before hbefore).readAddress address
    · rw [hosted?_read_of_unrouted hrouted] at hc
      exact hh c hc
  | write address byte =>
    change hosted? (write h address byte).2 = some c at hc
    obtain ⟨before, hbefore⟩ := installed_of_base? (wiring_write h address byte).2 hc
    by_cases hrouted : h.device.routes[address]? = some .diskController
    · rw [(write_routed hbefore byte hrouted).2] at hc
      obtain rfl := Option.some.inj hc
      exact (hh before hbefore).writeAddress address byte
    · rw [hosted?_write_of_unrouted byte hrouted] at hc
      exact hh c hc

/-! ## Written bytes -/

/-- How many bytes were written at an address. -/
def written (bus : Bus M R) (address : UInt16) : Nat :=
  bus.traffic[address]?.elim 0 Traffic.writes

/-- A read writes nothing. -/
theorem written_read (h : Hosted (Bus M R) W) (address other : UInt16) :
    (read h address).2.device.written other = h.device.written other := by
  unfold written
  rw [traffic_read]
  split
  · rw [Std.TreeMap.getElem?_insert]
    split
    · next hsame =>
      obtain rfl := Std.compare_eq_iff_eq.mp hsame
      cases h.device.traffic[address]? <;> rfl
    · rfl
  · rfl

/-- A write at an address writes nothing at another. -/
theorem written_write_of_ne (h : Hosted (Bus M R) W) {address other : UInt16} (byte : UInt8)
    (hne : other ≠ address) :
    (write h address byte).2.device.written other = h.device.written other := by
  unfold written
  rw [traffic_write]
  split
  · rw [Std.TreeMap.getElem?_insert, if_neg]
    rw [Std.compare_eq_iff_eq]
    exact fun heq => hne heq.symm
  · rfl

/-- Neither a boot nor the reading of a sector writes a byte at the data register. -/
theorem spares_data {r : Boot.Registers} {controller : Controller M R}
    (hl : Controller.Located r controller) (count : Nat) :
    Boot.Spares r fun h : Hosted (Bus M R) W => h.device.written r.data = count where
  read hcount _ := (written_read ..).trans hcount
  write hcount _ hdata byte :=
    (written_write_of_ne _ byte fun heq => hdata (hl.address_inj heq).symm).trans hcount

end Bus

end HardSector
