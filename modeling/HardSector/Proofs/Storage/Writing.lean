import HardSector.Proofs.Storage.Calls

/-!
# Writing to a stream

Whatever the script of a stream says, the bytes that writes have taken are at the position,
one after the other, and the position is behind them. Repeated writing uses up a cue or takes
a byte with every call, so it comes to an end, and succeeds only when everything has been
taken.
-/

namespace HardSector

namespace Stream

variable {s s' s'' : Stream} {bytes bytes' data : Bytes} {fuel : Nat}

/-- A stream has taken bytes on its way from one state to another. A call that takes none may still
fill the gap before the position with zeros. -/
structure Takes (s s' : Stream) (bytes : Bytes) : Prop where
  contents : s'.contents = s.contents.splice s.position bytes ∨
    bytes = #[] ∧ s'.contents = s.contents
  position : s'.position = s.position + bytes.size

namespace Takes

/-- A stream of which only the cues to come have changed has taken nothing. -/
theorem nothing (hcontents : s'.contents = s.contents) (hposition : s'.position = s.position) :
    Takes s s' #[] :=
  ⟨Or.inr ⟨rfl, hcontents⟩, hposition⟩

/-- What is taken later goes behind what was taken before. -/
theorem append (first : Takes s s' bytes) (second : Takes s' s'' bytes') :
    Takes s s'' (bytes ++ bytes') := by
  constructor
  · rcases first.contents with hfirst | ⟨rfl, hfirst⟩
    · left
      rcases second.contents with hsecond | ⟨rfl, hsecond⟩
      · rw [hsecond, hfirst, first.position, Bytes.splice_splice]
      · rw [hsecond, hfirst, Array.append_empty]
    · have hposition : s'.position = s.position := first.position
      rw [Array.empty_append, ← hfirst, ← hposition]
      exact second.contents
  · rw [second.position, first.position, Array.size_append, Nat.add_assoc]

/-- Reading zero past the end, nothing but the bytes that were taken is new. -/
theorem getD_contents (h : Takes s s' bytes) (i : Nat) :
    s'.contents.getD i 0 = (s.contents.splice s.position bytes).getD i 0 := by
  rcases h.contents with htaken | ⟨rfl, hsame⟩
  · rw [htaken]
  · have hnone : ¬(s.position ≤ i ∧ i < s.position + (#[] : Bytes).size) := by
      rw [List.size_toArray, List.length_nil]
      omega
    rw [hsame, Bytes.getD_splice, if_neg hnone]

end Takes

/-- One call uses up its cue. It fails and takes nothing, or takes as many bytes as the cue
allows. -/
theorem write_takes (s : Stream) (data : Bytes) :
    ∃ s', s'.script.writes = (nextCue s.script.writes).2 ∧
      ((∃ cause, ((nextCue s.script.writes).1.allowance = .error cause ∨
            within s.reach s.position = false ∧ cause = .beyondReach) ∧
          s.write data = (.error cause, s') ∧ Takes s s' #[]) ∨
        ∃ allowance, (nextCue s.script.writes).1.allowance = .ok allowance ∧
          s.write data = (.ok (Cue.clip allowance data.size), s') ∧
          Takes s s' (data.extract 0 (Cue.clip allowance data.size))) := by
  unfold write
  cases hallowance : (nextCue s.script.writes).1.allowance with
  | error cause =>
    simp only [hallowance]
    exact ⟨_, rfl, Or.inl ⟨cause, Or.inl rfl, rfl, .nothing rfl rfl⟩⟩
  | ok allowance =>
    simp only [hallowance]
    cases hreach : within s.reach s.position with
    | false =>
      simp only [Bool.false_eq_true, if_false]
      exact ⟨_, rfl, Or.inl ⟨_, Or.inr ⟨trivial, rfl⟩, rfl, .nothing rfl rfl⟩⟩
    | true =>
      have hsize : (data.extract 0 (Cue.clip allowance data.size)).size =
          Cue.clip allowance data.size := by
        rw [Array.size_extract, Nat.min_eq_left (Cue.clip_le _ _), Nat.sub_zero]
      simp only [if_true]
      refine ⟨_, rfl, Or.inr ⟨allowance, rfl, rfl, Or.inl rfl, ?_⟩⟩
      rw [hsize]

/-- A call that comes on within reach is interrupted, or takes some of the bytes. -/
theorem write_of_progresses (hwrites : ∀ cue ∈ s.script.writes, cue.progresses = true)
    (hreach : within s.reach s.position = true) (hdata : 0 < data.size) :
    ∃ s', ((∃ text, s.write data = (.error (.interrupted text), s') ∧
          s'.script.writes.length < s.script.writes.length ∧ Takes s s' #[]) ∨
        ∃ n ≤ data.size, 0 < n ∧ s.write data = (.ok n, s') ∧
          s'.script.writes.length ≤ s.script.writes.length ∧
          Takes s s' (data.extract 0 n)) := by
  obtain ⟨hprogresses, -⟩ := nextCue_all (p := Cue.progresses) rfl hwrites
  obtain ⟨hlength, hused⟩ := length_nextCue s.script.writes
  obtain ⟨s', hscript, hwrite⟩ := s.write_takes data
  rw [← hscript] at hlength hused
  refine ⟨s', ?_⟩
  obtain ⟨text, hinterrupt⟩ | ⟨allowance, hallowance, hsome⟩ := allowance_of_progresses hprogresses
  · left
    obtain ⟨cause, hraised | ⟨hout, -⟩, hwrite, hnothing⟩ | ⟨allowed, hallowed, -⟩ := hwrite
    · obtain rfl : cause = .interrupted text := Except.error.inj (hraised.symm.trans hinterrupt)
      exact ⟨text, hwrite, hused _ hinterrupt, hnothing⟩
    · exact absurd (hout.symm.trans hreach) Bool.false_ne_true
    · exact absurd (hallowed.symm.trans hinterrupt) nofun
  · right
    obtain ⟨cause, hraised | ⟨hout, -⟩, -⟩ | ⟨allowed, hallowed, hwrite, htaken⟩ := hwrite
    · exact absurd (hraised.symm.trans hallowance) nofun
    · exact absurd (hout.symm.trans hreach) Bool.false_ne_true
    · obtain rfl : allowed = allowance := Except.ok.inj (hallowed.symm.trans hallowance)
      exact ⟨_, Cue.clip_le _ _, hsome _ hdata, hwrite, hlength, htaken⟩

/-! ## Repeated writes -/

section WriteLoop

variable {cause : StorageError} {text : String} {n : Nat}

/-- Nothing more is written when everything has been taken. -/
theorem writeLoop_of_empty (hempty : data.size = 0) (fuel : Nat) :
    writeLoop fuel data s = (.ok (), s) := by
  cases fuel with
  | zero => rfl
  | succ fuel => rw [writeLoop, if_pos (Array.isEmpty_iff_size_eq_zero.mpr hempty)]

variable (hdata : 0 < data.size)

include hdata

/-- There is something to write. -/
theorem isEmpty_eq_false_of_pos : ¬data.isEmpty = true :=
  fun hempty => Nat.ne_of_gt hdata (Array.isEmpty_iff_size_eq_zero.mp hempty)

/-- An interrupted call is repeated. -/
theorem writeLoop_of_interrupt (hwrite : s.write data = (.error (.interrupted text), s')) :
    writeLoop (fuel + 1) data s = writeLoop fuel data s' := by
  rw [writeLoop, if_neg (isEmpty_eq_false_of_pos hdata), hwrite]

/-- A failed call ends the writing. -/
theorem writeLoop_of_fault (hwrite : s.write data = (.error cause, s'))
    (hcause : ∀ text, cause ≠ .interrupted text) :
    writeLoop (fuel + 1) data s = (.error cause, s') := by
  rw [writeLoop, if_neg (isEmpty_eq_false_of_pos hdata), hwrite]
  cases cause with
  | interrupted text => exact absurd rfl (hcause text)
  | _ => rfl

/-- A call that takes nothing makes the writing fail. -/
theorem writeLoop_of_none (hwrite : s.write data = (.ok 0, s')) :
    writeLoop (fuel + 1) data s = (.error .nothingWritten, s') := by
  rw [writeLoop, if_neg (isEmpty_eq_false_of_pos hdata), hwrite]
  rfl

/-- After a call that takes something the writing goes on behind it. -/
theorem writeLoop_of_some (hwrite : s.write data = (.ok n, s')) (hn : 0 < n) :
    writeLoop (fuel + 1) data s = writeLoop fuel (data.extract n data.size) s' := by
  rw [writeLoop, if_neg (isEmpty_eq_false_of_pos hdata), hwrite]
  simp only [if_neg (Nat.ne_of_gt hn)]

end WriteLoop

/-- Repeated writing takes the bytes from the first one on, as many as it gets to, and succeeds only
if it has taken them all. -/
theorem writeLoop_takes (hfuel : s.script.writes.length + data.size < fuel) :
    ∃ n ≤ data.size, Takes s (writeLoop fuel data s).2 (data.extract 0 n) ∧
      ((writeLoop fuel data s).1 = .ok () → n = data.size) := by
  induction fuel generalizing s data with
  | zero => omega
  | succ fuel ih =>
    have hnone : data.extract 0 0 = #[] := Array.extract_empty_of_stop_le_start (Nat.le_refl 0)
    rcases Nat.eq_zero_or_pos data.size with hempty | hdata
    · rw [writeLoop_of_empty hempty]
      refine ⟨0, Nat.zero_le _, ?_, fun _ => hempty.symm⟩
      rw [hnone]
      exact .nothing rfl rfl
    obtain ⟨hlength, hused⟩ := length_nextCue s.script.writes
    obtain ⟨s', hscript, ⟨cause, hcause, hwrite, hnothing⟩ | ⟨allowance, -, hwrite, htaken⟩⟩ :=
      s.write_takes data
    · by_cases hinterrupt : ∃ text, cause = .interrupted text
      · obtain ⟨text, rfl⟩ := hinterrupt
        have hshorter : s'.script.writes.length < s.script.writes.length := by
          rcases hcause with hraised | ⟨_, hreach⟩
          · rw [hscript]
            exact hused _ hraised
          · cases hreach
        have hless : s'.script.writes.length + data.size < fuel := by omega
        obtain ⟨n, hn, hlater, hall⟩ := ih hless
        have hboth := hnothing.append hlater
        rw [Array.empty_append] at hboth
        rw [writeLoop_of_interrupt hdata hwrite]
        exact ⟨n, hn, hboth, hall⟩
      · rw [writeLoop_of_fault hdata hwrite fun text heq => hinterrupt ⟨text, heq⟩]
        refine ⟨0, Nat.zero_le _, ?_, nofun⟩
        rw [hnone]
        exact hnothing
    · generalize hcount : Cue.clip allowance data.size = count at hwrite htaken
      have hmost : count ≤ data.size := hcount ▸ Cue.clip_le allowance data.size
      rcases Nat.eq_zero_or_pos count with rfl | hpos
      · rw [writeLoop_of_none hdata hwrite]
        exact ⟨0, Nat.zero_le _, htaken, nofun⟩
      · have hrest : (data.extract count data.size).size = data.size - count := by
          rw [Array.size_extract, Nat.min_self]
        have hless : s'.script.writes.length + (data.extract count data.size).size < fuel := by
          rw [hrest, hscript]
          omega
        obtain ⟨n, hn, hlater, hall⟩ := ih hless
        have hboth := htaken.append hlater
        have hpieces : data.extract 0 count ++ (data.extract count data.size).extract 0 n =
            data.extract 0 (count + n) := by
          have hall : min (count + n) data.size = count + n := by omega
          have happend := Bytes.extract_append data 0 count n
          rw [Nat.zero_add, Nat.zero_add] at happend
          rw [Array.extract_extract, Nat.add_zero, hall, happend]
        rw [hpieces] at hboth
        rw [writeLoop_of_some hdata hwrite hpos]
        refine ⟨count + n, by omega, hboth, fun hok => ?_⟩
        have hn := hall hok
        omega

end Stream

end HardSector
