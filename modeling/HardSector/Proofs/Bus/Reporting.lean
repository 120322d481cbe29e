import HardSector.Proofs.Bus.Traffic

/-!
# The descriptions in a report

An address is described by the device that was last installed at it, as long as it is routed
there. A report shows this description only where a device answered the first access: an
address that was accessed too early stays without a description in all later reports.
-/

namespace HardSector

namespace BusOperation

variable {M R : Type}

/-- The kind of the device that an operation installs. -/
def kind? : BusOperation M R → Option DeviceKind
  | .installController _ => some .diskController
  | .installSwitches _ => some .senseSwitches
  | _ => none

/-- An operation installs a device of a kind that lists an address with a description. -/
def Gives (W : Type) (kind : DeviceKind) (description : String) (address : UInt16)
    (op : BusOperation M R) : Prop :=
  op.kind? = some kind ∧ (description, address) ∈ op.listed W

/-- An operation takes an address from devices of a kind: it installs one there, or it removes the
controller. -/
def Takes (W : Type) (kind : DeviceKind) (address : UInt16) : BusOperation M R → Prop
  | .removeController => kind = .diskController
  | op => address ∈ (op.listed W).map Prod.snd

/-- A device lists an address with one description. -/
theorem listed_inj {W : Type} {op : BusOperation M R} {address : UInt16}
    {description description' : String} (hlisted : (description, address) ∈ op.listed W)
    (hlisted' : (description', address) ∈ op.listed W) : description = description' := by
  cases op with
  | installController controller =>
    obtain ⟨register, rfl, haddress⟩ := Controller.mem_addresses_iff_register.mp hlisted
    obtain ⟨register', rfl, haddress'⟩ := Controller.mem_addresses_iff_register.mp hlisted'
    have hdistance : register.distance.toNat = register'.distance.toNat := by omega
    congr 1
    cases register <;> cases register' <;> first | rfl | exact absurd hdistance (by decide)
  | installSwitches switches =>
    simp only [listed, Device.addresses, List.mem_singleton, Prod.mk.injEq] at hlisted hlisted'
    rw [hlisted.1, hlisted'.1]
  | _ => cases hlisted

/-- No device calls itself what a report calls an address without a device. -/
theorem ne_unmapped_of_listed {W : Type} {op : BusOperation M R} {address : UInt16}
    {description : String} (hlisted : (description, address) ∈ op.listed W) :
    description ≠ Bus.unmapped := by
  cases op with
  | installController controller =>
    obtain ⟨register, rfl, _⟩ := Controller.mem_addresses_iff_register.mp hlisted
    cases register <;> decide
  | installSwitches switches =>
    simp only [listed, Device.addresses, List.mem_singleton, Prod.mk.injEq] at hlisted
    rw [hlisted.1]
    decide
  | _ => cases hlisted

end BusOperation

namespace Bus

variable {M R W : Type}

/-- A device of a kind that lists an address with a description was installed in the course of
operations, and the address was not taken from it later. -/
def Given (W : Type) (ops : List (BusOperation M R)) (kind : DeviceKind) (description : String)
    (address : UInt16) : Prop :=
  Run.Since (fun _ op => op.Gives W kind description address) (·.Takes W kind address) ops

/-- An address is given with a description of its own. -/
theorem Given.ne_unmapped {ops : List (BusOperation M R)} {kind : DeviceKind}
    {description : String} {address : UInt16} (hgiven : Given W ops kind description address) :
    description ≠ unmapped := by
  obtain ⟨_, _, _, _, ⟨_, hlisted⟩, _⟩ := hgiven
  exact BusOperation.ne_unmapped_of_listed hlisted

/-- An address is routed to a kind of device and described. -/
def Shows (bus : Bus M R) (kind : DeviceKind) (description : String) (address : UInt16) : Prop :=
  bus.routes[address]? = some kind ∧ bus.description? address = some description

variable [Medium M R W]

/-- On a tidy bus an address is live if it is routed. -/
theorem Tidy.live_eq {bus : Bus M R} (ht : Tidy bus) (address : UInt16) :
    bus.live address = bus.routes[address]?.isSome := by
  unfold live
  cases hroute : bus.routes[address]? with
  | none => rfl
  | some kind =>
    cases kind with
    | diskController =>
      have hbase := ht.controlled address hroute
      rwa [base?, Option.isSome_map] at hbase
    | senseSwitches => exact (ht.switched address hroute).2

/-- What installing a device shows at an address: the device with its description if it lists the
address, and otherwise what was shown before. -/
theorem shows_of_kind (h : Hosted (Bus M R) W) {op : BusOperation M R} {installed : DeviceKind}
    (hkind : op.kind? = some installed) (kind : DeviceKind) (description : String)
    (address : UInt16) :
    (perform h op).2.device.Shows kind description address ↔
      if address ∈ (op.listed W).map Prod.snd then
        installed = kind ∧ (description, address) ∈ op.listed W
      else h.device.Shows kind description address := by
  have hroutes : (perform h op).2.device.routes[address]? =
      if address ∈ (op.listed W).map Prod.snd then some installed
      else h.device.routes[address]? := by
    rw [routes_perform]
    cases op with
    | installController controller =>
      cases hkind
      rfl
    | installSwitches switches =>
      cases hkind
      simp [BusOperation.listed, Device.addresses]
    | _ => cases hkind
  obtain ⟨label, hlabel, hdescriptions⟩ := descriptions_perform h op address
  have hdescription : (perform h op).2.device.description? address =
      if address ∈ (op.listed W).map Prod.snd then some label
      else h.device.description? address := by
    refine hdescriptions.trans ?_
    cases op with
    | installController controller => rfl
    | installSwitches switches => simp [BusOperation.listed, Device.addresses, description?]
    | _ => cases hkind
  unfold Shows
  rw [hroutes, hdescription]
  split
  · next hlisted =>
    rw [Option.some.injEq, Option.some.injEq]
    constructor
    · rintro ⟨rfl, rfl⟩
      exact ⟨rfl, hlabel hlisted⟩
    · rintro ⟨rfl, hmem⟩
      exact ⟨rfl, BusOperation.listed_inj (hlabel hlisted) hmem⟩
  · rfl

/-- After an operation an address shows what the operation gives it, or what it showed before if the
operation does not take it. -/
theorem shows_perform (h : Hosted (Bus M R) W) (op : BusOperation M R) (kind : DeviceKind)
    (description : String) (address : UInt16) :
    (perform h op).2.device.Shows kind description address ↔
      op.Gives W kind description address ∨
        h.device.Shows kind description address ∧ ¬op.Takes W kind address := by
  unfold BusOperation.Gives
  cases hkind : op.kind? with
  | some installed =>
    have htakes : op.Takes W kind address ↔ address ∈ (op.listed W).map Prod.snd := by
      cases op with
      | removeController => cases hkind
      | _ => rfl
    have hlisted : (description, address) ∈ op.listed W → address ∈ (op.listed W).map Prod.snd :=
      fun hmem => List.mem_map_of_mem hmem
    rw [shows_of_kind h hkind, htakes, Option.some.injEq]
    split
    · next hmem => simp [hmem]
    · next hmem =>
      have hnot : (description, address) ∉ op.listed W := fun h => hmem (hlisted h)
      simp [hmem, hnot]
  | none =>
    simp only [reduceCtorEq, false_and, false_or]
    have hroutes := routes_perform h op address
    obtain ⟨_, _, hdescriptions⟩ := descriptions_perform h op address
    unfold Shows description?
    cases op with
    | installController controller => cases hkind
    | installSwitches switches => cases hkind
    | removeController =>
      rw [hdescriptions, hroutes]
      dsimp only [BusOperation.Takes]
      cases h.device.routes[address]? with
      | none => simp
      | some routed => cases routed <;> cases kind <;> simp
    | _ =>
      rw [hdescriptions, hroutes]
      simp [BusOperation.Takes, BusOperation.listed]

/-- After a run an address shows what it was given. -/
theorem shows_after_iff_given (host : W) (ops : List (BusOperation M R)) (kind : DeviceKind)
    (description : String) (address : UInt16) :
    (after (empty host) ops).device.Shows kind description address ↔
      Given W ops kind description address := by
  induction ops using List.reverseRecOn with
  | nil =>
    refine iff_of_false ?_ Run.not_since_nil
    simp [Shows, empty]
  | append_singleton ops op ih =>
    have hfinal : after (empty host) (ops ++ [op]) = (perform (after (empty host) ops) op).2 :=
      Run.final_append ..
    rw [hfinal, shows_perform, ih, Given, Given, Run.since_snoc]

/-- After a run the live addresses are those that were given. -/
theorem live_iff_given (host : W) (ops : List (BusOperation M R)) (address : UInt16) :
    (after (empty host) ops).device.live address ↔
      ∃ kind description, Given W ops kind description address := by
  have htidy : Tidy (after (empty host) ops).device := tidy_after host ops
  rw [htidy.live_eq]
  constructor
  · intro hrouted
    have hdescribed := hrouted
    rw [← htidy.described] at hdescribed
    obtain ⟨kind, hkind⟩ := Option.isSome_iff_exists.mp hrouted
    obtain ⟨description, hdescription⟩ := Option.isSome_iff_exists.mp hdescribed
    exact ⟨kind, description,
      (shows_after_iff_given host ops kind description address).mp ⟨hkind, hdescription⟩⟩
  · rintro ⟨kind, description, hgiven⟩
    rw [((shows_after_iff_given host ops kind description address).mpr hgiven).1]
    rfl

/-- What the installed controller lists at an address that is routed to a controller is shown
there. -/
theorem shows_listed (host : W) (ops : List (BusOperation M R)) {controller : Controller M R}
    {label : String} {address : UInt16}
    (hinstalled : (after (empty host) ops).device.controller = some controller)
    (hrouted : (after (empty host) ops).device.routes[address]? = some .diskController)
    (hlisted : (label, address) ∈ controller.addresses) :
    (after (empty host) ops).device.Shows .diskController label address := by
  induction ops using List.reverseRecOn generalizing controller with
  | nil => cases hinstalled
  | append_singleton ops op ih =>
    have hfinal : after (empty host) (ops ++ [op]) = (perform (after (empty host) ops) op).2 :=
      Run.final_append ..
    rw [hfinal] at hinstalled hrouted ⊢
    rw [shows_perform]
    have hbase := base?_perform (after (empty host) ops) op
    rw [base?, hinstalled] at hbase
    rcases (routed_perform _ op address).mp hrouted with ⟨installed, rfl, _⟩ | ⟨hbefore, hkept⟩
    · rw [Controller.addresses_congr (Option.some.inj hbase)] at hlisted
      exact Or.inl ⟨rfl, hlisted⟩
    · -- Another operation leaves a controller where it is, and so what it lists.
      have hsame (hsame : (after (empty host) ops).device.base? = some controller.base) :
          (after (empty host) ops).device.Shows .diskController label address := by
        obtain ⟨earlier, hearlier, hbase⟩ := Option.map_eq_some_iff.mp hsame
        rw [← Controller.addresses_congr hbase] at hlisted
        exact ih hearlier hbefore hlisted
      cases op with
      | installController installed =>
        rw [Controller.addresses_congr (Option.some.inj hbase)] at hlisted
        exact Or.inl ⟨rfl, hlisted⟩
      | removeController => cases hbase
      | installSwitches switches =>
        refine Or.inr ⟨hsame hbase.symm, fun htaken => hkept ?_⟩
        exact List.mem_singleton.mp htaken
      | _ => exact Or.inr ⟨hsame hbase.symm, List.not_mem_nil⟩

/-! ## The first access -/

/-- A device answered at an address when it was accessed for the first time. -/
def LiveAtFirst (host : W) (ops : List (BusOperation M R)) (address : UInt16) : Prop :=
  ∃ before op later, ops = before ++ op :: later ∧ op.accesses address ∧
    (∀ op' ∈ before, op'.accesses address = false) ∧
    (after (empty host) before).device.live address

/-- The last operation is the first access at a live address, or an earlier one was. -/
theorem liveAtFirst_snoc {host : W} {ops : List (BusOperation M R)} {op : BusOperation M R}
    {address : UInt16} :
    LiveAtFirst host (ops ++ [op]) address ↔
      (op.accesses address ∧ (∀ op' ∈ ops, op'.accesses address = false) ∧
        (after (empty host) ops).device.live address) ∨
      LiveAtFirst host ops address := by
  have hsince (ops : List (BusOperation M R)) : LiveAtFirst host ops address ↔
      Run.Since (fun before op => op.accesses address ∧
        (∀ op' ∈ before, op'.accesses address = false) ∧
        (after (empty host) before).device.live address) (fun _ => False) ops := by
    simp [LiveAtFirst, Run.Since]
  rw [hsince, hsince, Run.since_snoc, not_false_iff, and_true]

/-- What an operation does to the mark of an answer: the first access sets it, later ones keep it,
and nothing else touches the traffic. -/
theorem answered_perform {h : Hosted (Bus M R) W} {op : BusOperation M R} {address : UInt16}
    (hfaultless : (perform h op).1.isFault = false) {traffic : Traffic}
    (htraffic : (perform h op).2.device.traffic[address]? = some traffic) :
    (op.accesses address ∧ traffic.answered =
      (h.device.traffic[address]?).elim (h.device.live address) Traffic.answered) ∨
    (op.accesses address = false ∧ h.device.traffic[address]? = some traffic) := by
  rcases traffic_perform h op address hfaultless with
    ⟨byte, rfl, _, hread⟩ | ⟨byte, rfl, hwritten⟩ | ⟨helsewhere, hkept⟩
  · obtain rfl := Option.some.inj (hread.symm.trans htraffic)
    refine Or.inl ⟨by simp [BusOperation.accesses, BusOperation.readsAt], ?_⟩
    cases h.device.traffic[address]? <;> rfl
  · obtain rfl := Option.some.inj (hwritten.symm.trans htraffic)
    refine Or.inl ⟨by simp [BusOperation.accesses, BusOperation.writesAt], ?_⟩
    cases h.device.traffic[address]? <;> rfl
  · exact Or.inr ⟨helsewhere, hkept.symm.trans htraffic⟩

/-- The traffic at an address tells whether a device answered the first access there. -/
theorem answered_iff_liveAtFirst {host : W} {ops : List (BusOperation M R)}
    (hfaultless : Faultless host ops) {address : UInt16} {traffic : Traffic}
    (htraffic : (after (empty host) ops).device.traffic[address]? = some traffic) :
    traffic.answered ↔ LiveAtFirst host ops address := by
  induction ops using List.reverseRecOn generalizing traffic with
  | nil => simp [empty] at htraffic
  | append_singleton ops op ih =>
    obtain ⟨hbefore, hlast⟩ := faultless_snoc.mp hfaultless
    have hfinal : after (empty host) (ops ++ [op]) = (perform (after (empty host) ops) op).2 :=
      Run.final_append ..
    rw [hfinal] at htraffic
    rw [liveAtFirst_snoc]
    rcases answered_perform hlast htraffic with ⟨haccess, hanswered⟩ | ⟨helsewhere, hkept⟩
    · have hseen := accessed_iff hbefore address
      cases hearlier : (after (empty host) ops).device.traffic[address]? with
      | none =>
        rw [hearlier] at hanswered hseen
        have hfirst : ∀ op' ∈ ops, op'.accesses address = false := by simpa using hseen
        have hnot : ¬LiveAtFirst host ops address := by
          rintro ⟨before, op', later, rfl, haccess', _⟩
          rw [hfirst op' (by simp)] at haccess'
          cases haccess'
        rw [hanswered, Option.elim_none]
        constructor
        · exact fun hlive => Or.inl ⟨haccess, hfirst, hlive⟩
        · rintro (⟨_, _, hlive⟩ | hlive)
          · exact hlive
          · exact absurd hlive hnot
      | some earlier =>
        rw [hearlier] at hanswered hseen
        obtain ⟨op', hop', haccess'⟩ := hseen.mp rfl
        rw [hanswered, Option.elim_some, ih hbefore hearlier]
        refine ⟨Or.inr, ?_⟩
        rintro (⟨_, hfirst, _⟩ | hlive)
        · rw [hfirst op' hop'] at haccess'
          cases haccess'
        · exact hlive
    · rw [ih hbefore hkept, helsewhere]
      simp

/-- After a run without faults a report has exactly one entry for an address that was accessed. An
address is live if some device was given it, and what the installed controller lists there is
what it was given with. The entry gives the description that the answering device was
installed with, and says that there is none if none answers, exactly unless a device answers now
and none did at the first access: then the live address is reported as if there were none. -/
theorem live_address_reported_iff (host : W) (ops : List (BusOperation M R))
    (hfaultless : Faultless host ops) (address : UInt16)
    (hseen : ∃ op ∈ ops, op.accesses address) :
    let bus := (after (empty host) ops).device
    ∃ description traffic,
      (∀ entry, entry ∈ bus.report ∧ entry.1 = address ↔
        entry = (address, description, traffic)) ∧
      (bus.live address ↔ ∃ kind given, Given W ops kind given address) ∧
      (∀ controller label, bus.controller = some controller →
        bus.routes[address]? = some .diskController → (label, address) ∈ controller.addresses →
        Given W ops .diskController label address) ∧
      (((∀ kind given, Given W ops kind given address → description = given) ∧
          (bus.live address = false → description = unmapped)) ↔
        (bus.live address → LiveAtFirst host ops address)) ∧
      (bus.live address → ¬LiveAtFirst host ops address → description = unmapped) := by
  intro bus
  have htidy : Tidy bus := tidy_after host ops
  obtain ⟨traffic, htraffic⟩ :=
    Option.isSome_iff_exists.mp ((accessed_iff hfaultless address).mpr hseen)
  have hanswered := answered_iff_liveAtFirst hfaultless htraffic
  have hlive : bus.live address ↔ ∃ kind given, Given W ops kind given address :=
    live_iff_given host ops address
  have hdescribed (hanswering : LiveAtFirst host ops address) {kind : DeviceKind} {given : String}
      (hgiven : Given W ops kind given address) :
      (if traffic.answered then bus.description? address else none).getD unmapped = given := by
    rw [if_pos (hanswered.mpr hanswering)]
    rw [((shows_after_iff_given host ops kind given address).mpr hgiven).2, Option.getD_some]
  have hunmapped (hsilent : ¬LiveAtFirst host ops address) :
      (if traffic.answered then bus.description? address else none).getD unmapped = unmapped := by
    rw [if_neg (mt hanswered.mp hsilent), Option.getD_none]
  refine ⟨_, traffic, fun entry => ?_, hlive, ?_, ?_, fun _ => hunmapped⟩
  · obtain ⟨address', description', traffic'⟩ := entry
    rw [mem_report_iff, Prod.mk.injEq, Prod.mk.injEq]
    constructor
    · rintro ⟨⟨htraffic', hdescription⟩, rfl⟩
      obtain rfl := Option.some.inj (htraffic.symm.trans htraffic')
      exact ⟨rfl, hdescription, rfl⟩
    · rintro ⟨rfl, rfl, rfl⟩
      exact ⟨⟨htraffic, rfl⟩, rfl⟩
  · intro controller label hinstalled hrouted hlisted
    rw [← shows_after_iff_given host]
    exact shows_listed host ops hinstalled hrouted hlisted
  · constructor
    · rintro ⟨hdue, _⟩ hanswering
      by_contra hsilent
      obtain ⟨kind, given, hgiven⟩ := hlive.mp hanswering
      exact hgiven.ne_unmapped ((hdue kind given hgiven).symm.trans (hunmapped hsilent))
    · intro hfirst
      refine ⟨fun kind given hgiven => hdescribed (hfirst (hlive.mpr ⟨kind, given, hgiven⟩)) hgiven,
        fun hdead => ?_⟩
      rw [htidy.live_eq, Option.isSome_eq_false_iff, Option.isNone_iff_eq_none] at hdead
      rw [description?, htidy.undescribed hdead, ite_self, Option.getD_none]

/-- An address that another controller was moved over is reported as the register that answers
there now. -/
theorem live_address_reported_after_replacement :
    let first : Controller CopyOnWrite PatchPool := .ofPool 1 8
    let second : Controller CopyOnWrite PatchPool := .ofPool 1 7
    let ops : List (BusOperation CopyOnWrite PatchPool) :=
      [.installController first, .read 8, .removeController, .write 8 1, .installController second]
    Faultless () ops ∧ (∃ op ∈ ops, op.accesses 8) ∧
      ∃ traffic, (8, "DCDD Drive Function/Sector Position", traffic) ∈
        (after (empty ()) ops).device.report := by
  intro first second ops
  have hfaultless : Faultless () ops := by
    unfold Faultless
    decide +kernel
  have hseen : ∃ op ∈ ops, op.accesses 8 := ⟨.read 8, by simp [ops], rfl⟩
  obtain ⟨description, traffic, hentry, _, hlisted, hreported, _⟩ :=
    live_address_reported_iff () ops hfaultless 8 hseen
  have hgiven := hlisted second "DCDD Drive Function/Sector Position" rfl (by decide +kernel)
    (by decide +kernel)
  have hfirst : LiveAtFirst () ops 8 := by
    refine ⟨[.installController first], .read 8, _, rfl, rfl, ?_, by decide +kernel⟩
    simp [BusOperation.accesses, BusOperation.readsAt, BusOperation.writesAt]
  have hdescription := (hreported.mpr fun _ => hfirst).1 _ _ hgiven
  refine ⟨hfaultless, hseen, traffic, ?_⟩
  rw [← hdescription]
  exact ((hentry _).mpr rfl).1

/-- An address that is read before a controller is installed at it stays without a description in
the report, though the status register answers there from then on. -/
theorem early_access_leaves_live_address_unmapped :
    let controller : Controller CopyOnWrite PatchPool := .ofPool 1 8
    let ops : List (BusOperation CopyOnWrite PatchPool) :=
      [.read 8, .installController controller, .read 8]
    let bus := (after (empty ()) ops).device
    Faultless () ops ∧ bus.live 8 = true ∧ bus.description? 8 = some "DCDD Drive Select/Status" ∧
      bus.report = [(8, "Unmapped", ⟨false, 0xE7, 0, 2, 0⟩)] := by
  unfold Faultless
  decide +kernel

end Bus

end HardSector
