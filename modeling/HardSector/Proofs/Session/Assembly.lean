import HardSector.Proofs.Bus.Access
import HardSector.Session

/-!
# Buses of sessions

A configuration is accepted only if the registers of its controller end before the sense
switches. So on the bus of a session all three registers are routed to the controller, and
the switches that are installed after it take none of their addresses.
-/

namespace HardSector

/-- The registers of a controller are well placed exactly if they end before the switches. -/
theorem DiskSettings.validate_eq_ok_iff (disk : DiskSettings) :
    disk.validate = .ok () ↔ disk.base.toNat + 2 < 0xFF := by
  have hhighest : highestBase < disk.base ↔ 0xFD < disk.base.toNat := UInt16.lt_iff_toNat_lt
  have hbefore : disk.base ≤ SenseSwitches.address ↔ disk.base.toNat ≤ 0xFF :=
    UInt16.le_iff_toNat_le
  have hbehind (hlow : ¬highestBase < disk.base) :
      SenseSwitches.address ≤ disk.base + Register.data.distance ↔
        0xFF ≤ disk.base.toNat + 2 := by
    rw [hhighest] at hlow
    have hlast : (disk.base + Register.data.distance).toNat = disk.base.toNat + 2 := by
      have htwo : Register.data.distance.toNat = 2 := rfl
      rw [UInt16.toNat_add, htwo]
      omega
    rw [UInt16.le_iff_toNat_le, hlast]
    rfl
  unfold validate
  split
  · next hhigh =>
    rw [hhighest] at hhigh
    exact iff_of_false nofun (by omega)
  · next hlow =>
    have hbehind := hbehind hlow
    rw [hhighest] at hlow
    split
    · next hover =>
      rw [hbefore, hbehind] at hover
      exact iff_of_false nofun (by omega)
    · next hclear =>
      rw [hbefore, hbehind] at hclear
      exact iff_of_true rfl (by omega)

namespace Session

variable {M R : Type} [Medium M R FileTree]

/-- On the bus of a session with well placed registers, these are routed to the controller. -/
theorem wired_assemble {config : Config} (hvalid : config.disk.validate = .ok ())
    (h : Hosted (Controller M R) FileTree) :
    ∃ r, Bus.Wired r (assemble config h)
      ⟨{ h.device with base := config.disk.base }, h.host, (assemble config h).notices⟩ := by
  have hbase := config.disk.validate_eq_ok_iff.mp hvalid
  let controller := { h.device with base := config.disk.base }
  let address (register : Register) : UInt16 :=
    UInt16.ofNat (config.disk.base.toNat + register.distance.toNat)
  let r : Boot.Registers := ⟨address .status, address .sector, address .data⟩
  have haddress (register : Register) :
      (r.address register).toNat = config.disk.base.toNat + register.distance.toNat ∧
        (r.address register).toNat < 0xFF := by
    have hsame : r.address register = address register := by cases register <;> rfl
    have hdistance : register.distance.toNat ≤ 2 := by cases register <;> decide
    have hnat : (address register).toNat =
        config.disk.base.toNat + register.distance.toNat := by
      refine UInt16.toNat_ofNat_of_lt' ?_
      have hsize : UInt16.size = 65536 := rfl
      omega
    rw [hsame, hnat]
    omega
  have hlocated : Controller.Located r controller := fun register =>
    (controller.address?_eq_some_iff register _).mpr (haddress register).1.symm
  refine ⟨r, rfl, hlocated, fun register => ?_⟩
  -- The controller takes the address, and the switches lie elsewhere.
  have hother : r.address register ≠ SenseSwitches.address := by
    intro heq
    have hlt := (haddress register).2
    rw [heq] at hlt
    exact absurd hlt (by decide)
  have hlisted := hlocated.mem_addresses register
  have hinstalled := Bus.routes_perform (⟨{}, h.host, h.notices⟩ : Hosted (Bus M R) FileTree)
    (.installController controller) (r.address register)
  have hswitches := Bus.routes_perform
    (Bus.installController (⟨{}, h.host, h.notices⟩ : Hosted (Bus M R) FileTree) controller)
    (.installSwitches ⟨config.disk.switches⟩) (r.address register)
  dsimp only at hinstalled hswitches
  rw [if_pos hlisted] at hinstalled
  rw [if_neg hother] at hswitches
  exact hswitches.trans hinstalled

end Session

end HardSector
