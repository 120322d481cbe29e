import HardSector.Proofs.Bus.Operation
import Mathlib.Data.List.Induction

/-!
# Which addresses reach the controller

An access reaches the controller at every address that some controller was installed at
since the last one was removed, unless sense switches were installed there later. A
controller that takes the place of another at different addresses is thus reached where
the other lay, and there it may have no register.
-/

namespace HardSector

namespace Register

/-- There is no register behind the third. -/
theorem ofDistance?_eq_none_iff (distance : UInt16) :
    ofDistance? distance = none ↔ 2 < distance := by
  have hnone : ofDistance? distance = none ↔ 0 ≠ distance ∧ 1 ≠ distance ∧ 2 ≠ distance := by
    unfold ofDistance?
    simp [List.find?_eq_none, all, Register.distance]
  rw [hnone]
  simp only [ne_eq, ← UInt16.toNat_inj, UInt16.lt_iff_toNat_lt, UInt16.toNat_ofNat]
  omega

/-- Every register is among those that are listed. -/
theorem mem_all (register : Register) : register ∈ all := by
  cases register <;> decide

end Register

namespace Controller

variable {M R W : Type}

/-- The addresses a controller lists depend only on where it lies. -/
theorem addresses_congr {controller controller' : Controller M R}
    (hbase : controller.base = controller'.base) :
    controller.addresses = controller'.addresses := by
  unfold addresses address? addressAt?
  rw [hbase]

/-- A register has the address that lies its distance behind the first, if there is such an
address. -/
theorem address?_eq_some_iff (controller : Controller M R) (register : Register)
    (address : UInt16) :
    controller.address? register = some address ↔
      controller.base.toNat + register.distance.toNat = address.toNat := by
  have haddress := address.toNat_lt
  unfold address? addressAt?
  by_cases hlt : controller.base.toNat + register.distance.toNat < UInt16.size
  · rw [if_pos hlt, Option.some.injEq, ← UInt16.toNat_inj, UInt16.toNat_ofNat_of_lt' hlt]
  · rw [if_neg hlt]
    simp only [reduceCtorEq, false_iff]
    simp only [UInt16.size] at hlt
    omega

/-- The addresses that a controller lists are those of its registers, with their labels. -/
theorem mem_addresses_iff_register {controller : Controller M R} {description : String}
    {address : UInt16} :
    (description, address) ∈ controller.addresses ↔
      ∃ register : Register, description = register.label ∧
        controller.base.toNat + register.distance.toNat = address.toNat := by
  simp only [addresses, List.mem_filterMap, Option.map_eq_some_iff, Prod.mk.injEq,
    address?_eq_some_iff]
  constructor
  · rintro ⟨register, _, address', haddress, rfl, rfl⟩
    exact ⟨register, rfl, haddress⟩
  · rintro ⟨register, rfl, haddress⟩
    exact ⟨register, register.mem_all, address, haddress, rfl, rfl⟩

/-- A controller lists the addresses of its registers, up to the last address there is. -/
theorem mem_addresses_iff (controller : Controller M R) (address : UInt16) :
    address ∈ controller.addresses.map Prod.snd ↔
      controller.base ≤ address ∧ address - controller.base ≤ 2 := by
  have hlisted : address ∈ controller.addresses.map Prod.snd ↔
      ∃ register ∈ Register.all, controller.address? register = some address := by
    simp [addresses]
  have hall : (∃ register ∈ Register.all, controller.address? register = some address) ↔
      controller.base.toNat = address.toNat ∨ controller.base.toNat + 1 = address.toNat ∨
        controller.base.toNat + 2 = address.toNat := by
    simp [Register.all, address?_eq_some_iff, Register.distance]
  have hsub (hle : controller.base ≤ address) :
      (address - controller.base).toNat = address.toNat - controller.base.toNat :=
    UInt16.toNat_sub_of_le _ _ hle
  have htwo : (2 : UInt16).toNat = 2 := rfl
  rw [hlisted, hall, UInt16.le_iff_toNat_le, UInt16.le_iff_toNat_le, htwo]
  constructor
  · intro hregister
    have hle : controller.base.toNat ≤ address.toNat := by omega
    rw [hsub (UInt16.le_iff_toNat_le.mpr hle)]
    omega
  · rintro ⟨hle, hnear⟩
    rw [hsub (UInt16.le_iff_toNat_le.mpr hle)] at hnear
    omega

variable [Medium M R W]

/-- A drive reads from its buffer, not from a register. -/
theorem read_ne_noSuchRegister (h : Hosted (Controller M R) W) :
    (read h).1 ≠ .error .noSuchRegister := by
  change (bay h h.device.selected).readByte.1 ≠ .error .noSuchRegister
  unfold Bay.readByte
  split
  · exact nofun
  · split
    split <;> exact nofun

/-- A controller has no register for a read exactly behind its third. -/
theorem readAddress_faults_iff (h : Hosted (Controller M R) W) (address : UInt16) :
    (readAddress h address).1 = .error .noSuchRegister ↔ 2 < address - h.device.base := by
  rw [readAddress_eq, ← Register.ofDistance?_eq_none_iff]
  split <;> next hregister => simp [hregister, read_ne_noSuchRegister]

/-- A controller has no register for a write exactly behind its third. -/
theorem writeAddress_faults_iff (h : Hosted (Controller M R) W) (address : UInt16) (byte : UInt8) :
    (writeAddress h address byte).1 = .error .noSuchRegister ↔ 2 < address - h.device.base := by
  rw [writeAddress_eq, ← Register.ofDistance?_eq_none_iff]
  split <;> next hregister => simp [hregister]

end Controller

/-- Operations after which an address is no longer routed to a controller. -/
def BusOperation.GivesUp {M R : Type} (address : UInt16) : BusOperation M R → Prop
  | .removeController => True
  | .installSwitches _ => address = SenseSwitches.address
  | _ => False

/-- An access faults whatever is made of its result. -/
theorem Fault.map_eq_error_iff {α β : Type} (f : α → β) (result : Except Fault α) (cause : Fault) :
    result.map f = .error cause ↔ result = .error cause := by
  cases result <;> simp [Except.map]

namespace Bus

variable {M R W : Type}

/-- A controller was installed at an address in the course of operations, and the address was not
given up later. -/
def ClaimedBy (ops : List (BusOperation M R)) (controller : Controller M R) (address : UInt16) :
    Prop :=
  ∃ before later, ops = before ++ .installController controller :: later ∧
    address ∈ controller.addresses.map Prod.snd ∧ ∀ op ∈ later, ¬op.GivesUp address

/-- A claim goes on since the controller was installed. -/
theorem claimedBy_iff_since (ops : List (BusOperation M R)) (controller : Controller M R)
    (address : UInt16) :
    ClaimedBy ops controller address ↔
      Run.Since (fun _ op => op = .installController controller ∧
        address ∈ controller.addresses.map Prod.snd) (·.GivesUp address) ops := by
  constructor
  · rintro ⟨before, later, hops, hlisted, hkept⟩
    exact ⟨before, _, later, hops, ⟨rfl, hlisted⟩, hkept⟩
  · rintro ⟨before, op, later, hops, ⟨rfl, hlisted⟩, hkept⟩
    exact ⟨before, later, hops, hlisted, hkept⟩

/-- Nothing is claimed at first. -/
theorem not_claimedBy_nil (controller : Controller M R) (address : UInt16) :
    ¬ClaimedBy [] controller address := by
  rw [claimedBy_iff_since]
  exact Run.not_since_nil

/-- An address is claimed by the controller that is just installed, or it was claimed before and is
not given up. -/
theorem claimedBy_snoc (ops : List (BusOperation M R)) (op : BusOperation M R)
    (controller : Controller M R) (address : UInt16) :
    ClaimedBy (ops ++ [op]) controller address ↔
      (op = .installController controller ∧ address ∈ controller.addresses.map Prod.snd) ∨
        (ClaimedBy ops controller address ∧ ¬op.GivesUp address) := by
  rw [claimedBy_iff_since, claimedBy_iff_since, Run.since_snoc]

variable [Medium M R W]

/-- An operation routes an address to the controller if it installs one there, or if it leaves a
route that was there. -/
theorem routed_perform (h : Hosted (Bus M R) W) (op : BusOperation M R) (address : UInt16) :
    (perform h op).2.device.routes[address]? = some .diskController ↔
      (∃ controller, op = .installController controller ∧
        address ∈ controller.addresses.map Prod.snd) ∨
      (h.device.routes[address]? = some .diskController ∧ ¬op.GivesUp address) := by
  rw [routes_perform]
  cases op with
  | installController controller =>
    by_cases hlisted : address ∈ controller.addresses.map Prod.snd
    · simp only [if_pos hlisted]
      exact iff_of_true trivial (.inl ⟨controller, rfl, hlisted⟩)
    · simp only [if_neg hlisted]
      refine ⟨fun hrouted => .inr ⟨hrouted, id⟩, ?_⟩
      rintro (⟨controller', hinstall, hlisted'⟩ | ⟨hrouted, _⟩)
      · cases hinstall
        exact absurd hlisted' hlisted
      · exact hrouted
  | installSwitches switches =>
    by_cases haddress : address = SenseSwitches.address <;>
      simp [haddress, BusOperation.GivesUp]
  | removeController => simp [BusOperation.GivesUp, Option.filter_eq_some_iff]
  | operate op => simp [BusOperation.GivesUp]
  | read readAt => simp [BusOperation.GivesUp]
  | write writtenAt byte => simp [BusOperation.GivesUp]

/-- The addresses routed to the controller are those that are claimed. -/
theorem routed_after (host : W) (ops : List (BusOperation M R)) (address : UInt16) :
    (after (empty host) ops).device.routes[address]? = some .diskController ↔
      ∃ controller, ClaimedBy ops controller address := by
  induction ops using List.reverseRecOn with
  | nil => simp [not_claimedBy_nil, empty]
  | append_singleton ops op ih =>
    have hlast : after (empty host) (ops ++ [op]) = (perform (after (empty host) ops) op).2 :=
      Run.final_append ..
    rw [hlast, routed_perform, ih]
    simp only [claimedBy_snoc, exists_or, exists_and_right]

/-- A controller is installed as long as any address is claimed. -/
theorem installed_of_claimedBy (host : W) {ops : List (BusOperation M R)}
    {controller : Controller M R} {address : UInt16} (hclaimed : ClaimedBy ops controller address) :
    ∃ installed, (after (empty host) ops).device.controller = some installed := by
  suffices hbase : (after (empty host) ops).device.base?.isSome by
    rwa [base?, Option.isSome_map, Option.isSome_iff_exists] at hbase
  induction ops using List.reverseRecOn with
  | nil => exact absurd hclaimed (not_claimedBy_nil controller address)
  | append_singleton ops op ih =>
    have hlast : after (empty host) (ops ++ [op]) = (perform (after (empty host) ops) op).2 :=
      Run.final_append ..
    rw [hlast, base?_perform]
    rcases (claimedBy_snoc ops op controller address).mp hclaimed with ⟨rfl, _⟩ | ⟨hbefore, hkept⟩
    · rfl
    · cases op with
      | installController next => rfl
      | removeController => exact absurd trivial hkept
      | _ => exact ih hbefore

/-- A read finds no register exactly if it reaches a controller that has none at the address. -/
theorem read_faults_iff (h : Hosted (Bus M R) W) (address : UInt16) :
    (read h address).1 = .error .noSuchRegister ↔
      h.device.routes[address]? = some .diskController ∧
        ∃ installed, h.device.controller = some installed ∧ 2 < address - installed.base := by
  have hanswer : (read h address).1 = .error .noSuchRegister ↔
      (answer h address).1 = .error .noSuchRegister := by
    unfold read
    split <;> next heq => simp [heq]
  obtain ⟨bus, host, notices⟩ := h
  rw [hanswer]
  unfold answer
  dsimp only
  split
  · next hroute => simp [hroute]
  · next hroute =>
    split
    · next hnone => simp [hnone]
    · next controller hcontroller =>
      have hfault : (Device.read ⟨controller, host, notices⟩ address).1 = .error .noSuchRegister ↔
          2 < address - controller.base :=
        Controller.readAddress_faults_iff ⟨controller, host, notices⟩ address
      rw [Fault.map_eq_error_iff, hfault]
      simp [hroute, hcontroller]
  · next hroute => split <;> simp [hroute, Device.read, Except.map]

/-- A write finds no register exactly if it reaches a controller that has none at the address. -/
theorem write_faults_iff (h : Hosted (Bus M R) W) (address : UInt16) (byte : UInt8) :
    (write h address byte).1 = .error .noSuchRegister ↔
      h.device.routes[address]? = some .diskController ∧
        ∃ installed, h.device.controller = some installed ∧ 2 < address - installed.base := by
  have hdeliver : (write h address byte).1 = .error .noSuchRegister ↔
      (deliver h address byte).1 = .error .noSuchRegister := by
    unfold write
    split <;> next heq => simp [heq]
  obtain ⟨bus, host, notices⟩ := h
  rw [hdeliver]
  unfold deliver
  dsimp only
  split
  · next hroute => simp [hroute]
  · next hroute =>
    split
    · next hnone => simp [hnone]
    · next controller hcontroller =>
      have hfault :
          (Device.write ⟨controller, host, notices⟩ address byte).1 = .error .noSuchRegister ↔
            2 < address - controller.base :=
        Controller.writeAddress_faults_iff ⟨controller, host, notices⟩ address byte
      rw [Fault.map_eq_error_iff, hfault]
      simp [hroute, hcontroller]
  · next hroute => split <;> simp [hroute, Device.write, Except.map]

/-- After every run of a bus, the accesses at an address go to the controller exactly if some
controller claimed the address. A controller is installed then, and it lists the address if it lies
where the claimant lay. An access finds no register exactly if it goes to a controller that lies
more than two addresses away, which is never at an address that the controller lists. -/
theorem routed_iff_claimed (host : W) (ops : List (BusOperation M R)) (address : UInt16) :
    let h := after (empty host) ops
    (h.device.routes[address]? = some .diskController ↔
      ∃ claimant, ClaimedBy ops claimant address) ∧
    (∀ claimant, ClaimedBy ops claimant address → ∃ installed,
      h.device.controller = some installed ∧
        (claimant.base = installed.base → address ∈ installed.addresses.map Prod.snd)) ∧
    ((read h address).1 = .error .noSuchRegister ↔ ∃ claimant installed,
      ClaimedBy ops claimant address ∧ h.device.controller = some installed ∧
        2 < address - installed.base) ∧
    (∀ byte, (write h address byte).1 = .error .noSuchRegister ↔ ∃ claimant installed,
      ClaimedBy ops claimant address ∧ h.device.controller = some installed ∧
        2 < address - installed.base) ∧
    ∀ installed, h.device.controller = some installed →
      address ∈ installed.addresses.map Prod.snd → ¬2 < address - installed.base := by
  intro h
  have hrouted := routed_after host ops address
  refine ⟨hrouted, fun claimant hclaimed => ?_, ?_, fun byte => ?_, fun installed _ hlisted => ?_⟩
  · obtain ⟨installed, hinstalled⟩ := installed_of_claimedBy host hclaimed
    refine ⟨installed, hinstalled, fun hbase => ?_⟩
    obtain ⟨_, _, _, hlisted, _⟩ := hclaimed
    rwa [← Controller.addresses_congr hbase]
  · rw [read_faults_iff, hrouted, exists_and_exists_comm]
  · rw [write_faults_iff, hrouted]
    simp only [exists_and_left, exists_and_right]
  · exact UInt16.not_lt.mpr ((Controller.mem_addresses_iff _ _).mp hlisted).2

/-- A controller that takes the place of another leaves the routes of the other: a read where only
the first had a register goes to the second, which has none there. -/
theorem reinstalling_leaves_routes :
    let first : Controller CopyOnWrite PatchPool := .ofPool 1 8
    let second : Controller CopyOnWrite PatchPool := .ofPool 1 32
    let h := after (empty ()) [.installController first, .installController second]
    h.device.routes[(8 : UInt16)]? = some .diskController ∧
      (∃ installed, h.device.controller = some installed ∧
        8 ∉ installed.addresses.map Prod.snd) ∧
      (read h 8).1 = .error .noSuchRegister := by
  intro first second h
  refine ⟨?_, ⟨second, rfl, ?_⟩, ?_⟩
  · decide +kernel
  · decide +kernel
  · decide +kernel

end Bus

end HardSector
