import HardSector.Storage.Stream

/-!
# Calls on a stream

A script may cut the calls on a stream short, interrupt them or make them fail. A call that
raises an error uses up a cue, so only finitely many calls can do so. Seeks and flushes are
made once, and change no bytes whatever becomes of them.
-/

namespace HardSector

/-- Whether a cue lets a call through that is made once. -/
def Cue.passes : Cue → Bool
  | .proceed => true
  | .limit _ => true
  | .interrupt _ => false
  | .fail _ => false

/-- Whether a cue lets a call through at least in part, or interrupts it only. -/
def Cue.progresses : Cue → Bool
  | .proceed => true
  | .limit count => decide (0 < count)
  | .interrupt _ => true
  | .fail _ => false

namespace Stream

/-! ## Cues -/

/-- What holds of all cues, and of calls past the end of the script, holds of the next one and of
those after it. -/
theorem nextCue_all {p : Cue → Bool} (hproceed : p .proceed = true) {cues : List Cue}
    (hall : ∀ cue ∈ cues, p cue = true) :
    p (nextCue cues).1 = true ∧ ∀ cue ∈ (nextCue cues).2, p cue = true := by
  cases cues with
  | nil => exact ⟨hproceed, hall⟩
  | cons cue cues =>
    exact ⟨hall cue List.mem_cons_self, fun cue' hmem => hall cue' (List.mem_cons_of_mem _ hmem)⟩

/-- The script does not get longer, and a cue that raises an error is used up. -/
theorem length_nextCue (cues : List Cue) :
    (nextCue cues).2.length ≤ cues.length ∧
      ∀ cause, (nextCue cues).1.allowance = .error cause →
        (nextCue cues).2.length < cues.length := by
  cases cues with
  | nil => exact ⟨Nat.le_refl _, nofun⟩
  | cons cue cues => exact ⟨Nat.le_succ _, fun _ _ => Nat.lt_succ_self _⟩

/-- A cue that lets a call through raises no error. -/
theorem allowance_of_passes {cue : Cue} (hcue : cue.passes = true) :
    ∃ allowance, cue.allowance = .ok allowance := by
  cases cue with
  | proceed => exact ⟨_, rfl⟩
  | limit count => exact ⟨_, rfl⟩
  | interrupt text => cases hcue
  | fail text => cases hcue

/-- A cue with which a call comes on interrupts it, or allows some of what there is. -/
theorem allowance_of_progresses {cue : Cue} (hcue : cue.progresses = true) :
    (∃ text, cue.allowance = .error (.interrupted text)) ∨
    ∃ allowance, cue.allowance = .ok allowance ∧
      ∀ count, 0 < count → 0 < Cue.clip allowance count := by
  cases cue with
  | proceed => exact Or.inr ⟨none, rfl, fun _ => id⟩
  | limit most =>
    have hmost : 0 < most := of_decide_eq_true hcue
    exact Or.inr ⟨some most, rfl, fun _ hcount => Nat.lt_min.mpr ⟨hmost, hcount⟩⟩
  | interrupt text => exact Or.inl ⟨text, rfl⟩
  | fail text => cases hcue

variable (s : Stream)

/-! ## Seeks and flushes -/

/-- A seek changes no bytes. -/
theorem contents_seek (offset : Nat) : (s.seek offset).2.contents = s.contents := by
  unfold seek
  dsimp only
  split
  · rfl
  · split
    · rfl
    · rfl

/-- A seek that succeeds moves to its offset. -/
theorem position_seek {offset : Nat} (hok : (s.seek offset).1 = .ok ()) :
    (s.seek offset).2.position = offset := by
  unfold seek at hok ⊢
  dsimp only at hok ⊢
  split at hok
  · cases hok
  · split at hok
    · next hinside => rw [if_pos hinside]
    · cases hok

/-- A seek takes no cue for a read. -/
theorem reads_seek (offset : Nat) : (s.seek offset).2.script.reads = s.script.reads := by
  unfold seek
  dsimp only
  split
  · rfl
  · split
    · rfl
    · rfl

/-- A flush changes no bytes. -/
theorem contents_flush : s.flush.2.contents = s.contents := by
  unfold flush
  dsimp only
  split
  · rfl
  · rfl

end Stream

end HardSector
