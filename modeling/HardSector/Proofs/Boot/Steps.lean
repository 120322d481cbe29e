import HardSector.Boot

/-!
# Boots of related spaces

The steps of a boot reach an I/O space only through its three registers, and they write to
two of them only. So whatever two spaces have in common, if such accesses keep it and are
answered alike, then whole boots are answered alike and keep it too. This says at once what
a boot does not change, and how it goes when its accesses are written down.
-/

namespace HardSector.Boot

/-- The address of a register. -/
def Registers.address (r : Registers) : Register → UInt16
  | .status => r.status
  | .sector => r.sector
  | .data => r.data

section Sequence

variable {S α β : Type} {first : Step S α} {next : α → Step S β} {s s' : S}

/-- After a step that succeeded the next goes on. -/
theorem andThen_of_ok {value : α} (hfirst : first s = (.ok value, s')) :
    andThen first next s = next value s' := by
  unfold andThen
  rw [hfirst]

/-- After a step that failed nothing is done. -/
theorem andThen_of_error {cause : BootError} (hfirst : first s = (.error cause, s')) :
    andThen first next s = (.error cause, s') := by
  unfold andThen
  rw [hfirst]

/-- Steps one after another succeed only if each of them does. -/
theorem andThen_eq_ok {result : β} (heq : andThen first next s = (.ok result, s')) :
    ∃ value between, first s = (.ok value, between) ∧ next value between = (.ok result, s') := by
  unfold andThen at heq
  split at heq
  · next value between hfirst => exact ⟨value, between, hfirst, heq⟩
  · cases heq

variable [IoSpace S] {address : UInt16} {wanted : UInt8 → Bool} {failure : BootError} {byte : UInt8}

/-- A byte is read only if the space has one there. -/
theorem input_eq_ok (heq : input address s = (.ok byte, s')) :
    IoSpace.read s address = (.ok byte, s') := by
  unfold input at heq
  split at heq
  · next hread =>
    cases heq
    exact hread
  · cases heq

/-- A byte is written only if the space takes it. -/
theorem output_eq_ok (heq : output address byte s = (.ok (), s')) :
    IoSpace.write s address byte = (.ok (), s') := by
  unfold output at heq
  split at heq
  · next hwrite =>
    cases heq
    exact hwrite
  · cases heq

/-- A wait ends with the first byte that is wanted. -/
theorem poll_of_wanted (hinput : input address s = (.ok byte, s')) (hwanted : wanted byte = true)
    (limit : Nat) : poll address wanted failure (limit + 1) s = (.ok byte, s') := by
  unfold poll
  rw [andThen_of_ok hinput, if_pos hwanted]

/-- A wait goes on after a byte that is not wanted. -/
theorem poll_of_unwanted (hinput : input address s = (.ok byte, s'))
    (hwanted : wanted byte = false) (limit : Nat) :
    poll address wanted failure (limit + 1) s = poll address wanted failure limit s' := by
  rw [poll, andThen_of_ok hinput, hwanted, if_neg Bool.false_ne_true]

end Sequence

/-- Two spaces in a relation answer every read of a register and every write to a register that
takes commands alike, and stay in the relation. -/
structure Mirrors {S T : Type} [IoSpace S] [IoSpace T] (r : Registers) (Rel : S → T → Prop) :
    Prop where
  read : ∀ {s t}, Rel s t → ∀ register : Register,
    (IoSpace.read s (r.address register)).1 = (IoSpace.read t (r.address register)).1 ∧
      Rel (IoSpace.read s (r.address register)).2 (IoSpace.read t (r.address register)).2
  write : ∀ {s t}, Rel s t → ∀ register : Register, register ≠ .data → ∀ byte,
    (IoSpace.write s (r.address register) byte).1 =
        (IoSpace.write t (r.address register) byte).1 ∧
      Rel (IoSpace.write s (r.address register) byte).2
        (IoSpace.write t (r.address register) byte).2

/-- Two steps end alike from related spaces, and leave related ones. -/
def Agree {S T α : Type} (Rel : S → T → Prop) (step : Step S α) (step' : Step T α) : Prop :=
  ∀ s t, Rel s t → (step s).1 = (step' t).1 ∧ Rel (step s).2 (step' t).2

section Agree

variable {S T α β : Type} {Rel : S → T → Prop}

/-- Steps that touch no space agree. -/
theorem agree_const (outcome : Except BootError α) :
    Agree Rel (fun s : S => (outcome, s)) (fun t : T => (outcome, t)) :=
  fun _ _ hrel => ⟨rfl, hrel⟩

/-- Steps one after another agree. -/
theorem Agree.andThen {first : Step S α} {first' : Step T α} {next : α → Step S β}
    {next' : α → Step T β} (hfirst : Agree Rel first first')
    (hnext : ∀ value, Agree Rel (next value) (next' value)) :
    Agree Rel (andThen first next) (andThen first' next') := by
  intro s t hrel
  obtain ⟨houtcome, hleft⟩ := hfirst s t hrel
  unfold Boot.andThen
  rcases hs : first s with ⟨_ | value, s'⟩ <;> rcases ht : first' t with ⟨_ | value', t'⟩ <;>
    rw [hs, ht] at houtcome hleft <;> cases houtcome
  · exact ⟨rfl, hleft⟩
  · exact hnext value s' t' hleft

variable [IoSpace S] [IoSpace T] {r : Registers}

namespace Mirrors

variable (hm : Mirrors r Rel)

include hm

/-- A register reads alike. -/
theorem input (register : Register) :
    Agree Rel (input (S := S) (r.address register)) (input (S := T) (r.address register)) := by
  intro s t hrel
  obtain ⟨houtcome, hleft⟩ := hm.read hrel register
  unfold Boot.input
  rcases hs : IoSpace.read s (r.address register) with ⟨_ | _, s'⟩ <;>
    rcases ht : IoSpace.read t (r.address register) with ⟨_ | _, t'⟩ <;>
    rw [hs, ht] at houtcome hleft <;> cases houtcome
  · exact ⟨rfl, hleft⟩
  · exact ⟨rfl, hleft⟩

/-- A command is taken alike. -/
theorem output (register : Register) (hdata : register ≠ .data) (byte : UInt8) :
    Agree Rel (output (S := S) (r.address register) byte)
      (output (S := T) (r.address register) byte) := by
  intro s t hrel
  obtain ⟨houtcome, hleft⟩ := hm.write hrel register hdata byte
  unfold Boot.output
  rcases hs : IoSpace.write s (r.address register) byte with ⟨_ | _, s'⟩ <;>
    rcases ht : IoSpace.write t (r.address register) byte with ⟨_ | _, t'⟩ <;>
    rw [hs, ht] at houtcome hleft <;> cases houtcome
  · exact ⟨rfl, hleft⟩
  · exact ⟨rfl, hleft⟩

/-- Waiting for a register ends alike. -/
theorem poll (register : Register) (wanted : UInt8 → Bool) (failure : BootError) (limit : Nat) :
    Agree Rel (poll (S := S) (r.address register) wanted failure limit)
      (poll (S := T) (r.address register) wanted failure limit) := by
  induction limit with
  | zero => exact agree_const _
  | succ limit ih =>
    refine (hm.input register).andThen fun byte => ?_
    cases wanted byte with
    | true => exact agree_const _
    | false => exact ih

/-- Selecting a drive and loading its head ends alike. -/
theorem selectAndLoad (drive : UInt8) :
    Agree Rel (selectAndLoad (S := S) r drive) (selectAndLoad (S := T) r drive) :=
  (hm.output .status nofun drive).andThen fun _ =>
    (hm.output .sector nofun headLoad).andThen fun _ =>
      (hm.poll .status _ _ _).andThen fun _ => agree_const _

/-- Bytes are transferred alike. -/
theorem transfer (count : Nat) (got : Bytes) :
    Agree Rel (transfer (S := S) r count got) (transfer (S := T) r count got) := by
  induction count generalizing got with
  | zero => exact agree_const _
  | succ count ih => exact (hm.input .data).andThen fun byte => ih (got.push byte)

/-- Homing the head ends alike. -/
theorem homeWithin (limit : Nat) :
    Agree Rel (homeWithin (S := S) r limit) (homeWithin (S := T) r limit) := by
  induction limit with
  | zero => exact agree_const _
  | succ limit ih =>
    refine (hm.input .status).andThen fun status => ?_
    cases Status.isAsserted ⟨status⟩ .trackZero with
    | true => exact agree_const _
    | false => exact (hm.output .sector nofun stepOut).andThen fun _ => ih

/-- Stepping in ends alike. -/
theorem stepInTimes (count : Nat) :
    Agree Rel (stepInTimes (S := S) r count) (stepInTimes (S := T) r count) := by
  induction count with
  | zero => exact agree_const _
  | succ count ih => exact (hm.output .sector nofun stepIn).andThen fun _ => ih

/-- A boot ends alike. -/
theorem load (memory : Bytes) : Agree Rel (load (S := S) r memory) (load (S := T) r memory) :=
  (hm.selectAndLoad 0).andThen fun _ =>
    (hm.poll .sector _ _ _).andThen fun _ => (hm.transfer _ _).andThen fun _ => agree_const _

/-- Reading a sector ends alike. -/
theorem fetch (track sector : UInt8) :
    Agree Rel (fetch (S := S) r track sector) (fetch (S := T) r track sector) :=
  (hm.selectAndLoad 0).andThen fun _ =>
    (hm.homeWithin _).andThen fun _ =>
      (hm.stepInTimes _).andThen fun _ => (hm.poll .sector _ _ _).andThen fun _ => hm.transfer _ _

end Mirrors

end Agree

/-! ## What a boot keeps -/

section Spares

variable {S : Type} [IoSpace S] {r : Registers} {P : S → Prop} {s : S}

/-- Every read of a register and every write to one that takes commands keeps a property. -/
structure Spares (r : Registers) (P : S → Prop) : Prop where
  read : ∀ {s}, P s → ∀ register : Register, P (IoSpace.read s (r.address register)).2
  write : ∀ {s}, P s → ∀ register : Register, register ≠ .data → ∀ byte,
    P (IoSpace.write s (r.address register) byte).2

/-- A space that keeps a property mirrors itself. -/
theorem Spares.mirrors (hp : Spares r P) : Mirrors r fun s t : S => s = t ∧ P s where
  read hrel register := by
    obtain ⟨rfl, hs⟩ := hrel
    exact ⟨rfl, rfl, hp.read hs register⟩
  write hrel register hdata byte := by
    obtain ⟨rfl, hs⟩ := hrel
    exact ⟨rfl, rfl, hp.write hs register hdata byte⟩

/-- A boot keeps what its accesses keep. -/
theorem Spares.load (hp : Spares r P) (memory : Bytes) (hs : P s) :
    P (Boot.load r memory s).2 :=
  (hp.mirrors.load memory s s ⟨rfl, hs⟩).2.2

/-- Reading a sector keeps what its accesses keep. -/
theorem Spares.fetch (hp : Spares r P) (track sector : UInt8) (hs : P s) :
    P (Boot.fetch r track sector s).2 :=
  (hp.mirrors.fetch track sector s s ⟨rfl, hs⟩).2.2

end Spares

end HardSector.Boot
