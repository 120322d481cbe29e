import HardSector.Proofs.Controller.Accounts

/-!
# Pending bytes

A byte that a drive has taken is pending until the buffer is stored. The record of a run
shows what befalls the pending bytes of each drive: they are stored by one call, to the
medium and at the offset at which all of them were taken, before the head or the medium
goes elsewhere; and a call stores only if bytes are pending.
-/

namespace HardSector

/-- What befalls the pending bytes of a drive: a byte is taken, the buffer is stored while it
stands so, or the head or the medium goes elsewhere. -/
inductive PendingEvent where
  | taken (label : Label) (offset : Nat)
  | stored (label : Label) (offset : Nat) (data standing : Bytes)
  | displaced
deriving DecidableEq

/-- Events in which no pending byte is lost, stored twice or stored elsewhere, after the labels and
offsets at which the pending bytes were taken. -/
def Orderly : List (Label × Nat) → List PendingEvent → Prop
  | _, [] => True
  | group, .taken label offset :: events => Orderly (group ++ [(label, offset)]) events
  | group, .stored label offset data standing :: events =>
    group ≠ [] ∧ (∀ entry ∈ group, entry = (label, offset)) ∧ data = standing ∧ Orderly [] events
  | group, .displaced :: events => group = [] ∧ Orderly [] events

/-- Whether events are orderly can be computed. -/
instance decidableOrderly : (group : List (Label × Nat)) → (events : List PendingEvent) →
    Decidable (Orderly group events)
  | _, [] => .isTrue trivial
  | group, .taken label offset :: events =>
    decidableOrderly (group ++ [(label, offset)]) events
  | group, .stored label offset data standing :: events =>
    have := decidableOrderly [] events
    inferInstanceAs (Decidable (group ≠ [] ∧ (∀ entry ∈ group, entry = (label, offset)) ∧
      data = standing ∧ Orderly [] events))
  | group, .displaced :: events =>
    have := decidableOrderly [] events
    inferInstanceAs (Decidable (group = [] ∧ Orderly [] events))

-- A pending byte may not be left behind, and nothing may be stored twice.
example :
    ¬Orderly [] [.taken ⟨0, 0⟩ 137, .displaced] ∧
      ¬Orderly [] [.taken ⟨0, 0⟩ 137, .stored ⟨0, 0⟩ 137 #[] #[], .stored ⟨0, 0⟩ 137 #[] #[]] := by
  decide

/-- The event of a call that stores while the buffer stands so. -/
def MediumCall.event? (standing : Bytes) : MediumCall → Option PendingEvent
  | .store label offset data => some (.stored label offset data standing)
  | _ => none

/-- A control byte that steps the head leaves the drive owing nothing: the buffer is flushed before
the head moves. -/
theorem Bay.owed_of_steps {M R W : Type} [Medium M R W] (bay : Bay (Labelled M) R (Recorded W))
    {control : Control} (hsteps : control.stepIn = true ∨ control.stepOut = true) :
    (bay.follow (bay.drive.functionMotions control)).drive.owed = [] := by
  cases hloaded : bay.drive.isLoaded with
  | false =>
    have hlabel : bay.drive.label? = none := by
      simpa [Drive.isLoaded, Drive.label?] using hloaded
    simp [Drive.functionMotions, hloaded, Drive.owed, hlabel]
  | true =>
    obtain ⟨motions, hmotions⟩ : ∃ motions,
        bay.drive.functionMotions control = .flush :: motions := by
      unfold Drive.functionMotions
      rw [if_pos hloaded]
      rcases hsteps with hin | hout
      · exact ⟨_, by rw [hin]; rfl⟩
      · cases control.stepIn
        · exact ⟨_, by rw [hout]; rfl⟩
        · exact ⟨_, rfl⟩
    have htakes : ∀ motion ∈ motions, motion.takes = false := fun motion hmem =>
      (bay.drive.takes_motions control).1 motion (hmotions ▸ List.mem_cons_of_mem _ hmem)
    have hclean : (bay.flush.follow motions).drive.dirty = false :=
      Bay.clean_follow htakes bay.dirty_flush
    rw [hmotions]
    exact Drive.owed_of_clean hclean

namespace Controller

variable {M R W : Type}

/-! ## Groups of pending bytes -/

/-- The byte that a drive takes in an operation: one that is written while the drive is selected
and loaded. -/
def takenBy (n : Fin driveCount) (h : Recording M R W) : Operation (Labelled M) → List PendingEvent
  | .command (.write _) =>
    if h.device.selected = n then
      (bay h n).drive.whereabouts.toList.map fun entry => .taken entry.1 entry.2
    else []
  | _ => []

/-- The labels and offsets at which the pending bytes of a drive were taken: there are none exactly
if the drive owes nothing, and all are those of the drive. -/
structure Tallies (group : List (Label × Nat)) (drive : Drive (Labelled M)) : Prop where
  owed : group = [] ↔ drive.owed = []
  here : ∀ entry ∈ group, drive.whereabouts = some entry

namespace Tallies

variable {group : List (Label × Nat)} {n : Fin driveCount} {h h' : Recording M R W}

/-- Nothing is pending in a drive that owes nothing. -/
theorem none {drive : Drive (Labelled M)} (howed : drive.owed = []) : Tallies [] drive :=
  ⟨⟨fun _ => howed, fun _ => rfl⟩, nofun⟩

/-- Over a stretch in which no byte is taken the pending bytes are stored, or stay pending where
they are. -/
theorem settle (ht : Tallies group (bay h n).drive) (ha : Accounts h h') {displaced : Prop}
    [Decidable displaced] (hdisplaced : displaced → (bay h' n).drive.owed = [])
    {events : List PendingEvent}
    (hevents : ∀ group', Tallies group' (bay h' n).drive → Orderly group' events) :
    Orderly group
      ((storesBetween n h h').filterMap (MediumCall.event? (bay h n).drive.buffer.sector) ++
        (if displaced then [.displaced] else []) ++ events) := by
  obtain ⟨calls, hcalls, hstores⟩ := ha.recorded
  have hempty (howed : (bay h' n).drive.owed = []) :
      Orderly [] ((if displaced then [.displaced] else []) ++ events) := by
    have hrest := hevents [] (none howed)
    split
    · exact ⟨rfl, hrest⟩
    · exact hrest
  have haccount := hstores n
  rw [storesBetween_eq hcalls]
  rcases (bay h n).drive.owed_cases with howed | ⟨label, hlabel, howed⟩
  · rw [howed] at haccount
    obtain ⟨hnone, howed'⟩ := List.append_eq_nil_iff.mp haccount
    obtain rfl : group = [] := ht.owed.mpr howed
    rw [hnone]
    exact hempty howed'
  · have hgroup : group ≠ [] := by simp [ht.owed, howed]
    rw [howed] at haccount
    rcases List.append_eq_singleton_iff.mp haccount with ⟨hnone, howed'⟩ | ⟨hone, howed'⟩
    · -- The call is still owed, so the drive has not moved.
      have hstay : ¬displaced := fun hd => by simp [hdisplaced hd] at howed'
      rw [hnone, if_neg hstay]
      refine hevents group ⟨by simp [hgroup, howed'], fun entry hmem => ?_⟩
      rcases ha.still n with hcontra | hstill
      · simp [hcontra] at howed'
      · rw [hstill]
        exact ht.here entry hmem
    · rw [hone]
      refine ⟨hgroup, fun entry hmem => ?_, rfl, hempty howed'⟩
      have hhere := ht.here entry hmem
      rw [Drive.whereabouts, hlabel] at hhere
      exact (Option.some.inj hhere).symm

/-- A byte that is written joins the pending bytes of the drive if that takes it. -/
theorem take (ht : Tallies group (bay h n).drive) {byte : UInt8} {taken : Drive (Labelled M)}
    (hdrive : taken = if n = h.device.selected ∧ (bay h n).drive.isLoaded then
      (bay h n).drive.written byte else (bay h n).drive)
    {events : List PendingEvent}
    (hevents : ∀ group', Tallies group' taken → Orderly group' events) :
    Orderly group (takenBy n h (.command (.write byte)) ++ events) := by
  by_cases hn : n = h.device.selected ∧ (bay h n).drive.isLoaded = true
  · obtain ⟨hselected, hloaded⟩ := hn
    rw [if_pos ⟨hselected, hloaded⟩] at hdrive
    obtain ⟨medium, hmedium⟩ := Option.isSome_iff_exists.mp hloaded
    have hlabel : (bay h n).drive.label? = some medium.label := congrArg (Option.map _) hmedium
    have hplace : (bay h n).drive.whereabouts = some (medium.label, (bay h n).drive.offset) :=
      congrArg (Option.map _) hlabel
    have htaken : takenBy n h (.command (.write byte)) =
        [.taken medium.label (bay h n).drive.offset] := by
      simp [takenBy, hselected.symm, hplace]
    have hwritten : ((bay h n).drive.written byte).label? = some medium.label := hlabel
    have howed : taken.owed ≠ [] := by
      rw [hdrive, Drive.owed_of_dirty rfl hwritten]
      exact List.cons_ne_nil _ _
    have hwhere : taken.whereabouts = (bay h n).drive.whereabouts := by
      rw [hdrive]
      rfl
    rw [htaken]
    refine hevents _ ⟨by simp [howed], fun entry hmem => ?_⟩
    rw [hwhere]
    rcases List.mem_append.mp hmem with hmem | hmem
    · exact ht.here entry hmem
    · rw [hplace, List.mem_singleton.mp hmem]
  · have htaken : takenBy n h (.command (.write byte)) = [] := by
      by_cases hselected : h.device.selected = n
      · have hempty : (bay h n).drive.whereabouts = Option.none := by
          have hmedium : ¬(bay h n).drive.isLoaded = true := fun hl => hn ⟨hselected.symm, hl⟩
          simpa [Drive.whereabouts, Drive.label?, Drive.isLoaded] using hmedium
        simp [takenBy, hempty]
      · simp [takenBy, hselected]
    rw [if_neg hn] at hdrive
    rw [htaken]
    exact hevents group (hdrive ▸ ht)

end Tallies

/-! ## The events of a run -/

/-- Whether an operation is a control byte that steps the head of a drive. -/
def steps (n : Fin driveCount) (h : Recording M R W) : Operation (Labelled M) → Bool
  | .command (.function byte) =>
    h.device.selected == n && ((Control.ofByte byte).stepIn || (Control.ofByte byte).stepOut)
  | _ => false

variable [Medium M R W]

/-- The sector in the buffer of a drive when it is stored in an operation: after the byte was taken
if the operation writes one, and as it was before otherwise. -/
def standing (n : Fin driveCount) (h : Recording M R W) (op : Operation (Labelled M)) : Bytes :=
  match op with
  | .command (.write _) => (bay (perform h op).2 n).drive.buffer.sector
  | _ => (bay h n).drive.buffer.sector

/-- What befalls the pending bytes of a drive in an operation. -/
def eventsOf (n : Fin driveCount) (h : Recording M R W) (op : Operation (Labelled M)) :
    List PendingEvent :=
  takenBy n h op ++
    ((storesBetween n h (perform h op).2).filterMap (MediumCall.event? (standing n h op)) ++
      if (bay (perform h op).2 n).drive.whereabouts ≠ (bay h n).drive.whereabouts ∨ steps n h op
      then [.displaced] else [])

/-- What befalls the pending bytes of a drive in a run, at whose end the controller goes. -/
def timeline (n : Fin driveCount) : Recording M R W → List (Operation (Labelled M)) →
    List PendingEvent
  | h, [] =>
    (storesBetween n h (flushAll h)).filterMap
      (MediumCall.event? (bay h n).drive.buffer.sector) ++ [.displaced]
  | h, op :: ops => eventsOf n h op ++ timeline n (perform h op).2 ops

/-- A drive whose head was stepped owes nothing. -/
theorem owed_of_steps {n : Fin driveCount} {h : Recording M R W} {op : Operation (Labelled M)}
    (hsteps : steps n h op = true) : (bay (perform h op).2 n).drive.owed = [] := by
  cases op with
  | command command =>
    cases command with
    | function byte =>
      obtain ⟨hselected, hcontrol⟩ : h.device.selected = n ∧
          ((Control.ofByte byte).stepIn = true ∨ (Control.ofByte byte).stepOut = true) := by
        simpa [steps] using hsteps
      subst hselected
      have hobeyed : bay (perform h (.command (.function byte))).2 h.device.selected =
          (bay h h.device.selected).follow
            ((bay h h.device.selected).drive.functionMotions (Control.ofByte byte)) :=
        bay_obey h nofun
      rw [hobeyed]
      exact Bay.owed_of_steps _ hcontrol
    | _ => cases hsteps
  | _ => cases hsteps

/-! ## The groups along a run -/

namespace Tallies

variable {group : List (Label × Nat)} {n : Fin driveCount} {h : Recording M R W}

/-- An operation that writes no byte. -/
theorem perform (hk : Kept h) (ht : Tallies group (bay h n).drive) {op : Operation M} (turn : Nat)
    (hread : ∀ byte, op ≠ .command (.write byte)) {events : List PendingEvent}
    (hevents : ∀ group', Tallies group' (bay (perform h (op.labelled turn)).2 n).drive →
      Orderly group' events) :
    Orderly group (eventsOf n h (op.labelled turn) ++ events) := by
  obtain ⟨_, ha⟩ := hk.perform turn hread
  have hdisplaced : (bay (Controller.perform h (op.labelled turn)).2 n).drive.whereabouts ≠
      (bay h n).drive.whereabouts ∨ steps n h (op.labelled turn) →
        (bay (Controller.perform h (op.labelled turn)).2 n).drive.owed = [] := by
    rintro (hmoved | hsteps)
    · exact (ha.still n).resolve_right hmoved
    · exact owed_of_steps hsteps
  have hplain : takenBy n h (op.labelled turn) = [] ∧
      standing n h (op.labelled turn) = (bay h n).drive.buffer.sector := by
    cases op with
    | command command =>
      cases command with
      | write byte => exact absurd rfl (hread byte)
      | _ => exact ⟨rfl, rfl⟩
    | _ => exact ⟨rfl, rfl⟩
  rw [eventsOf, hplain.1, hplain.2, List.nil_append]
  exact ht.settle ha hdisplaced hevents

/-- An operation that writes a byte: the byte is taken, and what was pending with it is stored, or
stays pending. -/
theorem write (hk : Kept h) (ht : Tallies group (bay h n).drive) (byte : UInt8)
    {events : List PendingEvent}
    (hevents : ∀ group', Tallies group'
      (bay (Controller.perform h (.command (.write byte))).2 n).drive → Orderly group' events) :
    Orderly group (eventsOf n h (.command (.write byte)) ++ events) := by
  obtain ⟨taken, hcalls, hdrive, _, ha, hbuffer⟩ := hk.write byte
  have hwhere : (bay taken n).drive.whereabouts = (bay h n).drive.whereabouts := by
    rw [hdrive n]
    split <;> rfl
  have hbetween : storesBetween n h (Controller.perform h (.command (.write byte))).2 =
      storesBetween n taken (Controller.perform h (.command (.write byte))).2 := by
    rw [storesBetween, storesBetween, hcalls]
  have hstanding : standing n h (.command (.write byte)) = (bay taken n).drive.buffer.sector :=
    congrArg Buffer.sector (hbuffer n)
  rw [eventsOf, List.append_assoc, hbetween, hstanding]
  refine ht.take (hdrive n) fun group' ht' => ht'.settle ha ?_ hevents
  rintro (hmoved | hsteps)
  · exact (ha.still n).resolve_right (hwhere ▸ hmoved)
  · cases hsteps

/-- A run and the end of the controller. -/
theorem timeline (hk : Kept h) (ht : Tallies group (bay h n).drive) (turn : Nat)
    (ops : List (Operation M)) :
    Orderly group (Controller.timeline n h (labelledFrom turn ops)) := by
  induction ops generalizing h group turn with
  | nil =>
    obtain ⟨_, ha⟩ := hk.flushAll
    have howed : (bay (flushAll h) n).drive.owed = [] := Drive.owed_of_clean (dirty_flushAll h n)
    have hsettle : Orderly group ((storesBetween n h (flushAll h)).filterMap
        (MediumCall.event? (bay h n).drive.buffer.sector) ++
          (if True then [.displaced] else []) ++ []) :=
      ht.settle ha (fun _ => howed) fun _ _ => trivial
    rw [if_pos trivial, List.append_nil] at hsettle
    exact hsettle
  | cons op ops ih =>
    by_cases hwrite : ∃ byte, op = .command (.write byte)
    · obtain ⟨byte, rfl⟩ := hwrite
      obtain ⟨_, _, _, hk', _⟩ := hk.write byte
      exact ht.write hk byte fun group' ht' => ih hk' ht' (turn + 1)
    · have hread : ∀ byte, op ≠ .command (.write byte) := not_exists.mp hwrite
      obtain ⟨hk', _⟩ := hk.perform turn hread
      exact ht.perform hk turn hread fun group' ht' => ih hk' ht' (turn + 1)

end Tallies

/-- For every kind of media, whatever they answer, and over every run of a controller and its end,
no pending byte of any drive is lost, stored twice or stored elsewhere, and nothing is stored of
which no byte is pending. A second flush in a row makes no call and changes nothing. This is told
from a record of the calls, without which the run is the same. -/
theorem pending_bytes_stored_once (shared : R) (base : UInt16) (host : W)
    (ops : List (Operation M)) :
    let start : Recording M R W := fresh shared base ⟨host, []⟩
    let last := after start (labelledFrom 0 ops)
    (∀ n, Orderly [] (timeline n start (labelledFrom 0 ops))) ∧
      flushAll (flushAll last) = flushAll last ∧
      plain last = after (fresh shared base host) ops ∧
      plain (flushAll last) = flushAll (after (fresh shared base host) ops) := by
  intro start last
  have hplain : plain last = after (fresh shared base host) ops := by
    rw [← plain_fresh]
    exact plain_after start 0 ops
  refine ⟨fun n => ?_, flushAll_flushAll last, hplain, ?_⟩
  · have hdrive : (bay start n).drive = { number := n.val } := by
      simp [start, bay, fresh, ofShared]
    refine (Tallies.none ?_).timeline (.start shared base host) 0 ops
    rw [hdrive]
    rfl
  · rw [plain_flushAll, hplain]

end Controller

end HardSector
