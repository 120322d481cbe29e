import HardSector.Proofs.Drive.Motion

/-!
# Recorded media

Any kind of media can be given labels and a host that records every call of them. Nothing
else changes: with the labels and the record taken away, a bay does what it did before. So
what the record of a run shows is true of the run without a record.
-/

namespace HardSector

/-- Which load put a medium into its drive: the drive, and the turn of the load in its run. -/
structure Label where
  drive : Nat
  turn : Nat
deriving DecidableEq, Repr

/-- A call of a medium. -/
inductive MediumCall where
  | fetch (label : Label) (offset count : Nat)
  | store (label : Label) (offset : Nat) (data : Bytes)
  | release (label : Label)
deriving DecidableEq, Repr

/-- Whether a call stores to a medium that was put into the drive with a number. -/
def MediumCall.storesTo (n : Nat) : MediumCall → Bool
  | .store label _ _ => label.drive == n
  | _ => false

/-- A medium with a label. -/
structure Labelled (M : Type) where
  label : Label
  medium : M

/-- A host with a record of the calls of media, oldest first. -/
structure Recorded (W : Type) where
  host : W
  calls : List MediumCall := []

variable {M R W : Type}

/-- A site without its record. -/
def Site.plain (site : Site R (Recorded W)) : Site R W :=
  ⟨site.shared, site.host.host, site.notices⟩

/-- A site with a record of calls. -/
def Site.recording (site : Site R W) (calls : List MediumCall) : Site R (Recorded W) :=
  ⟨site.shared, ⟨site.host, calls⟩, site.notices⟩

/-- Labelled media do what they did without labels, and every call is recorded. -/
instance [Medium M R W] : Medium (Labelled M) R (Recorded W) where
  size labelled := (Medium.toDescribed R W).size labelled.medium
  describe labelled := (Medium.toDescribed R W).describe labelled.medium
  fetch labelled site offset count :=
    let fetched := Medium.fetch labelled.medium site.plain offset count
    ⟨fetched.delivered, fetched.outcome, { labelled with medium := fetched.medium },
      fetched.site.recording (site.host.calls ++ [.fetch labelled.label offset count])⟩
  store labelled site offset data :=
    let stored := Medium.store labelled.medium site.plain offset data
    ⟨stored.outcome, { labelled with medium := stored.medium },
      stored.site.recording (site.host.calls ++ [.store labelled.label offset data])⟩
  release labelled site :=
    let released := Medium.release labelled.medium site.plain
    ({ labelled with medium := released.1 },
      released.2.recording (site.host.calls ++ [.release labelled.label]))

namespace Drive

/-- A drive without the label of its medium. -/
def plain (drive : Drive (Labelled M)) : Drive M :=
  { drive with medium := drive.medium.map Labelled.medium }

/-- The label of the medium in a drive. -/
def label? (drive : Drive (Labelled M)) : Option Label := drive.medium.map Labelled.label

/-- The calls that a drive still owes its medium: one store of a dirty buffer. -/
def owed (drive : Drive (Labelled M)) : List MediumCall :=
  if drive.dirty then
    drive.label?.toList.map fun label => .store label drive.offset drive.buffer.sector
  else []

/-- Where a drive would store: the label of its medium and the offset of its buffer. -/
def whereabouts (drive : Drive (Labelled M)) : Option (Label × Nat) :=
  drive.label?.map fun label => (label, drive.offset)

variable (drive : Drive (Labelled M))

@[simp] theorem isLoaded_plain : drive.plain.isLoaded = drive.isLoaded := by
  simp [plain, isLoaded]

/-- The shell of a drive does not tell the label. -/
@[simp] theorem shell_plain : drive.plain.shell = drive.shell := by
  unfold shell
  rw [isLoaded_plain]
  rfl

/-- A move goes without the label as it goes with it. -/
@[simp] theorem plain_move (move : Move) : (drive.move move).plain = drive.plain.move move := by
  cases move <;> rfl

/-- A move does not touch the label. -/
@[simp] theorem label?_move (move : Move) : (drive.move move).label? = drive.label? :=
  congrArg (Option.map _) (drive.medium_move move)

/-- A drive that is not dirty owes nothing. -/
theorem owed_of_clean {drive : Drive (Labelled M)} (hclean : drive.dirty = false) :
    drive.owed = [] := by
  rw [owed, if_neg (by simp [hclean])]

/-- A dirty drive owes a store to its medium. -/
theorem owed_of_dirty {drive : Drive (Labelled M)} {label : Label} (hdirty : drive.dirty = true)
    (hlabel : drive.label? = some label) :
    drive.owed = [.store label drive.offset drive.buffer.sector] := by
  rw [owed, if_pos hdirty, hlabel]
  rfl

/-- A drive owes nothing, or one store of its buffer where it stands. -/
theorem owed_cases : drive.owed = [] ∨ ∃ label, drive.label? = some label ∧
    drive.owed = [.store label drive.offset drive.buffer.sector] := by
  unfold owed
  split
  · cases hlabel : drive.label? with
    | none => exact .inl rfl
    | some label => exact .inr ⟨label, rfl, rfl⟩
  · exact .inl rfl

end Drive

namespace Bay

/-- A bay without the label and the record. -/
def plain (bay : Bay (Labelled M) R (Recorded W)) : Bay M R W := ⟨bay.drive.plain, bay.site.plain⟩

/-- The calls recorded at a bay. -/
abbrev calls (bay : Bay (Labelled M) R (Recorded W)) : List MediumCall := bay.site.host.calls

variable [Medium M R W] (bay : Bay (Labelled M) R (Recorded W))

/-! ## The record changes nothing -/

/-- Storing the buffered sector, with and without the record. -/
theorem storeSector_recorded :
    bay.storeSector.plain = bay.plain.storeSector ∧
      bay.storeSector.drive.label? = bay.drive.label? ∧
      bay.storeSector.calls = bay.calls ++
        bay.drive.label?.toList.map fun label =>
          .store label bay.drive.offset bay.drive.buffer.sector := by
  cases hmedium : bay.drive.medium with
  | none =>
    have hplain : bay.plain.drive.medium = none := congrArg (Option.map _) hmedium
    have hlabel : bay.drive.label? = none := congrArg (Option.map _) hmedium
    rw [storeSector_of_none hmedium, storeSector_of_none hplain, hlabel]
    simp
  | some labelled =>
    have hplain : bay.plain.drive.medium = some labelled.medium := congrArg (Option.map _) hmedium
    have hlabel : bay.drive.label? = some labelled.label := congrArg (Option.map _) hmedium
    obtain ⟨outcome, medium, site, hstored⟩ : ∃ outcome medium site,
        Medium.store labelled.medium bay.plain.site bay.plain.drive.offset
          bay.plain.drive.buffer.sector = ⟨outcome, medium, site⟩ := ⟨_, _, _, rfl⟩
    have hrecorded : Medium.store labelled bay.site bay.drive.offset bay.drive.buffer.sector =
        ⟨outcome, ⟨labelled.label, medium⟩, site.recording (bay.calls ++
          [.store labelled.label bay.drive.offset bay.drive.buffer.sector])⟩ := by
      change Stored.mk _ _ _ = _
      rw [show Medium.store labelled.medium bay.site.plain bay.drive.offset
        bay.drive.buffer.sector = ⟨outcome, medium, site⟩ from hstored]
    rw [storeSector_of_some hmedium, storeSector_of_some hplain, hlabel, hstored, hrecorded]
    cases outcome <;> exact ⟨rfl, rfl, rfl⟩

/-- A flush makes the calls that the drive owes, and is else the flush without the record. -/
theorem flush_recorded :
    bay.flush.plain = bay.plain.flush ∧ bay.flush.drive.label? = bay.drive.label? ∧
      bay.flush.calls = bay.calls ++ bay.drive.owed := by
  obtain ⟨hplain, hlabel, hcalls⟩ := bay.storeSector_recorded
  rw [flush_eq, flush_eq, show bay.plain.drive.dirty = bay.drive.dirty from rfl, Drive.owed]
  cases bay.drive.dirty with
  | false => simp
  | true =>
    simp only [if_true]
    refine ⟨?_, hlabel, hcalls⟩
    rw [← hplain]
    rfl

/-- Making the buffer ready fetches at most, and else goes as without the record. -/
theorem ready_recorded :
    bay.ready.plain = bay.plain.ready ∧ bay.ready.drive.label? = bay.drive.label? ∧
      ∃ fetches, bay.ready.calls = bay.calls ++ fetches ∧
        ∀ n, fetches.filter (MediumCall.storesTo n) = [] := by
  cases hmedium : bay.drive.medium with
  | none =>
    have hplain : bay.plain.drive.medium = none := congrArg (Option.map _) hmedium
    unfold ready
    simp only [hmedium, hplain]
    exact ⟨trivial, trivial, [], by simp⟩
  | some labelled =>
    have hplain : bay.plain.drive.medium = some labelled.medium := congrArg (Option.map _) hmedium
    cases hfetched : bay.drive.fetched with
    | true =>
      have hplain : bay.plain.drive.fetched = true := hfetched
      rw [ready_of_fetched hfetched, ready_of_fetched hplain]
      exact ⟨rfl, rfl, [], by simp⟩
    | false =>
      have hunfetched : bay.plain.drive.fetched = false := hfetched
      obtain ⟨delivered, outcome, medium, site, hfetch⟩ : ∃ delivered outcome medium site,
          Medium.fetch labelled.medium bay.plain.site bay.plain.drive.offset sectorSize =
            ⟨delivered, outcome, medium, site⟩ := ⟨_, _, _, _, rfl⟩
      have hrecorded : Medium.fetch labelled bay.site bay.drive.offset sectorSize =
          ⟨delivered, outcome, ⟨labelled.label, medium⟩, site.recording (bay.calls ++
            [.fetch labelled.label bay.drive.offset sectorSize])⟩ := by
        change Fetched.mk _ _ _ _ = _
        rw [show Medium.fetch labelled.medium bay.site.plain bay.drive.offset sectorSize =
          ⟨delivered, outcome, medium, site⟩ from hfetch]
      have hlabel : bay.drive.label? = some labelled.label := congrArg (Option.map _) hmedium
      unfold ready fetchSector
      simp only [hmedium, hplain, hfetched, hunfetched, hfetch, hrecorded, hlabel]
      cases outcome <;>
        exact ⟨rfl, rfl, [.fetch labelled.label bay.drive.offset sectorSize], rfl, fun _ => rfl⟩

/-- Vacating a bay releases its medium at most, and else goes as without the record. -/
theorem vacate_recorded :
    bay.vacate.plain = bay.plain.vacate ∧
      ∃ releases, bay.vacate.calls = bay.calls ++ releases ∧
        ∀ n, releases.filter (MediumCall.storesTo n) = [] := by
  unfold vacate
  cases hmedium : bay.drive.medium with
  | none =>
    have hplain : bay.plain.drive.medium = none := congrArg (Option.map _) hmedium
    simp only [hplain]
    exact ⟨rfl, [], by simp⟩
  | some labelled =>
    have hplain : bay.plain.drive.medium = some labelled.medium := congrArg (Option.map _) hmedium
    simp only [hplain]
    exact ⟨rfl, [.release labelled.label], rfl, fun _ => rfl⟩

/-- A motion goes without the record as it goes with it. -/
theorem plain_make (motion : Motion) : (bay.make motion).plain = bay.plain.make motion := by
  cases motion with
  | flush => exact bay.flush_recorded.1
  | ready => exact bay.ready_recorded.1
  | move move => exact congrArg (Bay.mk · bay.plain.site) (bay.drive.plain_move move)

/-- Motions go without the record as they go with it. -/
theorem plain_follow (motions : List Motion) :
    (bay.follow motions).plain = bay.plain.follow motions := by
  induction motions generalizing bay with
  | nil => rfl
  | cons motion motions ih => rw [follow_cons, follow_cons, ih, plain_make]

/-- A medium goes into a drive without its label as with it. -/
theorem plain_load (labelled : Labelled M) :
    (bay.load labelled).plain = bay.plain.load labelled.medium := by
  rw [load_eq, load_eq, ← bay.flush_recorded.1, ← bay.flush.vacate_recorded.1]
  rfl

/-- A medium comes out of a drive without its label as with it. -/
theorem plain_eject :
    (bay.eject.1.map Labelled.medium, bay.eject.2.plain) = bay.plain.eject := by
  rw [eject_eq, eject_eq, ← bay.flush_recorded.1, ← bay.flush.vacate_recorded.1]
  refine Prod.ext ?_ rfl
  change Option.map _ (Option.map _ bay.flush.drive.medium) =
    Option.map _ (Option.map _ bay.flush.drive.medium)
  rw [Option.map_map, Option.map_map]
  rfl

end Bay

end HardSector
