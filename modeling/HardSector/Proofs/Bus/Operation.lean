import HardSector.Bus
import HardSector.Proofs.Controller.Operation

/-!
# Runs of a bus

Devices are installed on a bus and taken off, a processor reads and writes bytes at I/O
addresses, and the operator works on the controller that is installed. The bus decides by
its routes which device answers, and only installing and removing devices changes these.
-/

namespace HardSector

/-- What can be done to a bus. `operate` is done to the installed controller, past the bus. -/
inductive BusOperation (M R : Type) where
  | installController (controller : Controller M R)
  | installSwitches (switches : SenseSwitches)
  | removeController
  | operate (op : Operation M)
  | read (address : UInt16)
  | write (address : UInt16) (byte : UInt8)

/-- What is answered to an operation on a bus. -/
inductive BusAnswer (M R : Type) where
  | done
  | removed (controller : Option (Controller M R))
  | operated (answer : Answer M)
  | byte (value : UInt8)
  | fault (cause : Fault)

/-- The answer to a read that may be impossible. -/
def BusAnswer.ofRead {M R : Type} : Except Fault UInt8 → BusAnswer M R
  | .ok value => .byte value
  | .error cause => .fault cause

/-- The answer to a write that may be impossible. -/
def BusAnswer.ofWrite {M R : Type} : Except Fault Unit → BusAnswer M R
  | .ok () => .done
  | .error cause => .fault cause

/-- An access gives a result that is made of a result. -/
theorem Fault.map_eq_ok_iff {α β : Type} {f : α → β} {result : Except Fault α} {value : β} :
    result.map f = .ok value ↔ ∃ given, result = .ok given ∧ f given = value := by
  cases result <;> simp [Except.map]

namespace Controller

variable {M R W : Type} [Medium M R W]

/-- A controller stays at its addresses whatever is done to it. -/
theorem base_perform (h : Hosted (Controller M R) W) (op : Operation M) :
    (perform h op).2.device.base = h.device.base := by
  cases op with
  | load drive medium =>
    rw [perform_load]
    split <;> rfl
  | eject drive =>
    rw [perform_eject]
    split <;> rfl
  | command command =>
    change (obey h command).2.device.base = h.device.base
    rw [obey_eq]
    cases command with
    | flush =>
      exact flushAll_induct (P := fun h' => h'.device.base = h.device.base) (fun _ _ heq => heq) rfl
    | _ => rfl

/-- A register that is read is a command, and an address without a register is a fault. -/
theorem readAddress_eq (h : Hosted (Controller M R) W) (address : UInt16) :
    readAddress h address =
      match Register.ofDistance? (address - h.device.base) with
      | some .status => (.ok h.device.status, (obey h .status).2)
      | some .sector => (.ok (sector h).1, (obey h .sector).2)
      | some .data => ((read h).1, (obey h .read).2)
      | none => (.error .noSuchRegister, h) := rfl

/-- A register that is written is a command, and an address without a register is a fault. -/
theorem writeAddress_eq (h : Hosted (Controller M R) W) (address : UInt16) (byte : UInt8) :
    writeAddress h address byte =
      match Register.ofDistance? (address - h.device.base) with
      | some .status => (.ok (), (obey h (.select byte)).2)
      | some .sector => (.ok (), (obey h (.function byte)).2)
      | some .data => (.ok (), (obey h (.write byte)).2)
      | none => (.error .noSuchRegister, h) := rfl

/-- A controller stays at its addresses whatever register is read. -/
theorem base_readAddress (h : Hosted (Controller M R) W) (address : UInt16) :
    (readAddress h address).2.device.base = h.device.base := by
  rw [readAddress_eq]
  split
  · exact base_perform h (.command .status)
  · exact base_perform h (.command .sector)
  · exact base_perform h (.command .read)
  · rfl

/-- A controller stays at its addresses whatever register is written. -/
theorem base_writeAddress (h : Hosted (Controller M R) W) (address : UInt16) (byte : UInt8) :
    (writeAddress h address byte).2.device.base = h.device.base := by
  rw [writeAddress_eq]
  split
  · exact base_perform h (.command (.select byte))
  · exact base_perform h (.command (.function byte))
  · exact base_perform h (.command (.write byte))
  · rfl

end Controller

namespace Bus

variable {M R W : Type} [Medium M R W]

/-- Let the operator work on the installed controller. -/
def operate (h : Hosted (Bus M R) W) (op : Operation M) : BusAnswer M R × Hosted (Bus M R) W :=
  match h.device.controller with
  | none => (.done, h)
  | some controller =>
    match Controller.perform ⟨controller, h.host, h.notices⟩ op with
    | (answer, ⟨controller, host, notices⟩) =>
      (.operated answer, ⟨{ h.device with controller := some controller }, host, notices⟩)

/-- Do an operation on a bus. -/
def perform (h : Hosted (Bus M R) W) : BusOperation M R → BusAnswer M R × Hosted (Bus M R) W
  | .installController controller => (.done, installController h controller)
  | .installSwitches switches => (.done, installSwitches h switches)
  | .removeController =>
    (.removed h.device.removeController.1, { h with device := h.device.removeController.2 })
  | .operate op => operate h op
  | .read address => (.ofRead (read h address).1, (read h address).2)
  | .write address byte => (.ofWrite (write h address byte).1, (write h address byte).2)

/-- A bus without devices in a host. -/
def empty (host : W) : Hosted (Bus M R) W := ⟨{}, host, []⟩

/-- The bus after a list of operations. -/
abbrev after (h : Hosted (Bus M R) W) (ops : List (BusOperation M R)) : Hosted (Bus M R) W :=
  Run.final perform h ops

/-! ## Routes -/

/-- Where the installed controller lies, if there is one. -/
def base? (bus : Bus M R) : Option UInt16 := bus.controller.map Controller.base

/-- A claim takes the listed addresses and leaves the others. -/
theorem routes_claim (bus : Bus M R) (kind : DeviceKind) (listed : List (String × UInt16))
    (address : UInt16) :
    (bus.claim kind listed).routes[address]? =
      if address ∈ listed.map Prod.snd then some kind else bus.routes[address]? := by
  change (listed.foldl (fun map entry => map.insert entry.2 kind) bus.routes)[address]? = _
  generalize bus.routes = routes
  induction listed generalizing routes with
  | nil => simp
  | cons entry listed ih =>
    rw [List.foldl_cons, ih, Std.TreeMap.getElem?_insert]
    simp only [List.map_cons, List.mem_cons, Std.compare_eq_iff_eq]
    grind

/-- What of a bus changes only when devices are installed and removed: the kinds of devices that the
addresses are routed to, the descriptions and the sense switches. -/
structure Wiring where
  routes : AddressMap DeviceKind
  descriptions : AddressMap String
  switches : Option SenseSwitches

/-- The wiring of a bus. -/
def wiring (bus : Bus M R) : Wiring := ⟨bus.routes, bus.descriptions, bus.switches⟩

/-- A controller that goes leaves the wiring to those who come. -/
theorem wiring_closeController (h : Hosted (Bus M R) W) :
    (closeController h).device.wiring = h.device.wiring := by
  unfold closeController
  split
  split <;> rfl

/-- A read leaves the wiring and the installed controller where they are. -/
theorem wiring_read (h : Hosted (Bus M R) W) (address : UInt16) :
    (read h address).2.device.wiring = h.device.wiring ∧
      (read h address).2.device.base? = h.device.base? := by
  have hanswer : (answer h address).2.device.wiring = h.device.wiring ∧
      (answer h address).2.device.base? = h.device.base? := by
    unfold answer
    split
    split
    · exact ⟨rfl, rfl⟩
    · split
      · exact ⟨rfl, rfl⟩
      · next hcontroller =>
        refine ⟨rfl, ?_⟩
        rw [base?, base?, hcontroller]
        exact congrArg some (Controller.base_readAddress _ address)
    · split
      · exact ⟨rfl, rfl⟩
      · next hswitches => exact ⟨congrArg (Wiring.mk _ _) hswitches.symm, rfl⟩
  unfold read
  split <;> next heq => rw [heq] at hanswer; exact hanswer

/-- A write leaves the wiring and the installed controller where they are. -/
theorem wiring_write (h : Hosted (Bus M R) W) (address : UInt16) (byte : UInt8) :
    (write h address byte).2.device.wiring = h.device.wiring ∧
      (write h address byte).2.device.base? = h.device.base? := by
  have hdeliver : (deliver h address byte).2.device.wiring = h.device.wiring ∧
      (deliver h address byte).2.device.base? = h.device.base? := by
    unfold deliver
    split
    split
    · exact ⟨rfl, rfl⟩
    · split
      · exact ⟨rfl, rfl⟩
      · next hcontroller =>
        refine ⟨rfl, ?_⟩
        rw [base?, base?, hcontroller]
        exact congrArg some (Controller.base_writeAddress _ address byte)
    · split
      · exact ⟨rfl, rfl⟩
      · next hswitches => exact ⟨congrArg (Wiring.mk _ _) hswitches.symm, rfl⟩
  unfold write
  split <;> next heq => rw [heq] at hdeliver; exact hdeliver

/-- What is done to the installed controller leaves the wiring and the controller where they are. -/
theorem wiring_operate (h : Hosted (Bus M R) W) (op : Operation M) :
    (operate h op).2.device.wiring = h.device.wiring ∧
      (operate h op).2.device.base? = h.device.base? := by
  unfold operate
  split
  · exact ⟨rfl, rfl⟩
  · next hcontroller =>
    refine ⟨rfl, ?_⟩
    rw [base?, base?, hcontroller]
    exact congrArg some (Controller.base_perform _ op)

/-! ## Traffic -/

/-- A device that is installed answers at an address. -/
def live (bus : Bus M R) (address : UInt16) : Bool :=
  match bus.routes[address]? with
  | none => false
  | some .diskController => bus.controller.isSome
  | some .senseSwitches => bus.switches.isSome

/-- What answers a read does not count it. -/
theorem traffic_answer (h : Hosted (Bus M R) W) (address : UInt16) :
    (answer h address).2.device.traffic = h.device.traffic := by
  unfold answer
  split
  split
  · rfl
  · split <;> rfl
  · split <;> rfl

/-- What takes a byte does not count it. -/
theorem traffic_deliver (h : Hosted (Bus M R) W) (address : UInt16) (byte : UInt8) :
    (deliver h address byte).2.device.traffic = h.device.traffic := by
  unfold deliver
  split
  split
  · rfl
  · split <;> rfl
  · split <;> rfl

/-- A read that does not fault is answered exactly at a live address. -/
theorem isSome_of_answer {h : Hosted (Bus M R) W} {address : UInt16} {given : Option UInt8}
    (hgiven : (answer h address).1 = .ok given) : given.isSome = h.device.live address := by
  obtain ⟨bus, host, notices⟩ := h
  unfold answer at hgiven
  unfold live
  cases hroute : bus.routes[address]? with
  | none =>
    simp only [hroute, Except.ok.injEq] at hgiven ⊢
    rw [← hgiven, Option.isSome_none]
  | some kind =>
    cases kind with
    | diskController =>
      cases hcontroller : bus.controller <;> simp only [hroute, hcontroller] at hgiven ⊢
      · rw [← Except.ok.inj hgiven]
        rfl
      · obtain ⟨byte, _, rfl⟩ := Fault.map_eq_ok_iff.mp hgiven
        rfl
    | senseSwitches =>
      cases hswitches : bus.switches <;> simp only [hroute, hswitches] at hgiven ⊢
      · rw [← Except.ok.inj hgiven]
        rfl
      · obtain ⟨byte, _, rfl⟩ := Fault.map_eq_ok_iff.mp hgiven
        rfl

/-- A write that does not fault is taken exactly at a live address. -/
theorem eq_live_of_deliver {h : Hosted (Bus M R) W} {address : UInt16} {byte : UInt8} {taken : Bool}
    (htaken : (deliver h address byte).1 = .ok taken) : taken = h.device.live address := by
  obtain ⟨bus, host, notices⟩ := h
  unfold deliver at htaken
  unfold live
  cases hroute : bus.routes[address]? with
  | none =>
    simp only [hroute, Except.ok.injEq] at htaken ⊢
    exact htaken.symm
  | some kind =>
    cases kind with
    | diskController =>
      cases hcontroller : bus.controller <;> simp only [hroute, hcontroller] at htaken ⊢
      · rw [← Except.ok.inj htaken]
        rfl
      · obtain ⟨_, _, rfl⟩ := Fault.map_eq_ok_iff.mp htaken
        rfl
    | senseSwitches =>
      cases hswitches : bus.switches <;> simp only [hroute, hswitches] at htaken ⊢
      · rw [← Except.ok.inj htaken]
        rfl
      · obtain ⟨_, _, rfl⟩ := Fault.map_eq_ok_iff.mp htaken
        rfl

/-- A read that gives a byte is counted, and any other is not. -/
theorem traffic_read (h : Hosted (Bus M R) W) (address : UInt16) :
    (read h address).2.device.traffic =
      match (read h address).1 with
      | .ok byte => h.device.traffic.insert address
          (.afterRead h.device.traffic[address]? (h.device.live address) byte)
      | .error _ => h.device.traffic := by
  have htraffic := traffic_answer h address
  unfold read
  split
  · next heq => rwa [heq] at htraffic
  · next given bus host notices heq =>
    have hlive : given.isSome = h.device.live address := isSome_of_answer (by rw [heq])
    rw [heq] at htraffic
    have hkept : bus.traffic = h.device.traffic := htraffic
    simp only [countRead, hkept, hlive]

/-- A write that does not fault is counted, and any other is not. -/
theorem traffic_write (h : Hosted (Bus M R) W) (address : UInt16) (byte : UInt8) :
    (write h address byte).2.device.traffic =
      match (write h address byte).1 with
      | .ok () => h.device.traffic.insert address
          (.afterWrite h.device.traffic[address]? (h.device.live address) byte)
      | .error _ => h.device.traffic := by
  have htraffic := traffic_deliver h address byte
  unfold write
  split
  · next heq => rwa [heq] at htraffic
  · next taken bus host notices heq =>
    have hdelivered : (deliver h address byte).1 = .ok taken := by rw [heq]
    have hlive := eq_live_of_deliver hdelivered
    rw [heq] at htraffic
    have hkept : bus.traffic = h.device.traffic := htraffic
    simp only [countWrite, hkept, hlive]

/-- A controller that goes leaves the traffic as it was counted. -/
theorem traffic_closeController (h : Hosted (Bus M R) W) :
    (closeController h).device.traffic = h.device.traffic := by
  unfold closeController
  split
  split <;> rfl

/-! ## Operations -/

/-- What an operation does to the route of an address: installing takes the listed addresses, and
removing the controller gives up all that are routed to it. -/
theorem routes_perform (h : Hosted (Bus M R) W) (op : BusOperation M R) (address : UInt16) :
    (perform h op).2.device.routes[address]? =
      match op with
      | .installController controller =>
        if address ∈ controller.addresses.map Prod.snd then some .diskController
        else h.device.routes[address]?
      | .installSwitches _ =>
        if address = SenseSwitches.address then some .senseSwitches
        else h.device.routes[address]?
      | .removeController => h.device.routes[address]?.filter (· != .diskController)
      | _ => h.device.routes[address]? := by
  cases op with
  | installController controller =>
    have hroutes : (installController h controller).device.routes =
        (h.device.claim .diskController controller.addresses).routes := by
      unfold installController
      exact congrArg Wiring.routes (wiring_closeController _)
    change (installController h controller).device.routes[address]? = _
    rw [hroutes, routes_claim]
  | installSwitches switches =>
    change (h.device.claim .senseSwitches (Device.addresses W switches)).routes[address]? = _
    rw [routes_claim]
    simp [Device.addresses]
  | removeController => exact Std.TreeMap.getElem?_filter'
  | operate op => exact congrArg (·.routes[address]?) (wiring_operate h op).1
  | read readAt => exact congrArg (·.routes[address]?) (wiring_read h readAt).1
  | write writtenAt byte => exact congrArg (·.routes[address]?) (wiring_write h writtenAt byte).1

/-- What an operation does to the controller: only installing one and removing it matter. -/
theorem base?_perform (h : Hosted (Bus M R) W) (op : BusOperation M R) :
    (perform h op).2.device.base? =
      match op with
      | .installController controller => some controller.base
      | .removeController => none
      | _ => h.device.base? := by
  cases op with
  | installController controller => rfl
  | installSwitches switches => rfl
  | removeController => rfl
  | operate op => exact (wiring_operate h op).2
  | read address => exact (wiring_read h address).2
  | write address byte => exact (wiring_write h address byte).2

end Bus
end HardSector
