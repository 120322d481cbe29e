import HardSector.Proofs.Storage.Calls

/-!
# Reading from a stream

Whatever the script of a stream says, the bytes that reads have delivered are those from the
position on, in order, and the position is behind them. Repeated reading uses up a cue or
brings a byte with every call, so it comes to an end. If no call fails for good, it brings
all that there is; if one does while bytes are still to come, it fails.
-/

namespace HardSector

/-- How many bytes are still to come after a call with a cue, of those that were to come before. -/
def Cue.leaves (cue : Cue) (left : Nat) : Nat :=
  match cue.allowance with
  | .ok allowance => left - clip allowance left
  | .error _ => left

/-- After a call there are not more bytes to come. -/
theorem Cue.leaves_le (cue : Cue) (left : Nat) : cue.leaves left ≤ left := by
  unfold leaves
  split
  · exact Nat.sub_le _ _
  · exact Nat.le_refl _

namespace Stream

variable {s s' s'' : Stream} {bytes bytes' : Bytes} {count fuel : Nat} {got : Bytes}

/-- A stream has delivered bytes on its way from one state to another. -/
structure Delivers (s s' : Stream) (bytes : Bytes) : Prop where
  contents : s'.contents = s.contents
  position : s'.position = s.position + bytes.size
  bytes : bytes = s.contents.extract s.position (s.position + bytes.size)

namespace Delivers

/-- A stream of which only the cues to come have changed has delivered nothing. -/
theorem nothing (hcontents : s'.contents = s.contents) (hposition : s'.position = s.position) :
    Delivers s s' #[] := by
  refine ⟨hcontents, hposition, ?_⟩
  rw [List.size_toArray, List.length_nil, Nat.add_zero,
    Array.extract_empty_of_stop_le_start (Nat.le_refl _)]

/-- What is delivered later comes behind what was delivered before. -/
theorem append (first : Delivers s s' bytes) (second : Delivers s' s'' bytes') :
    Delivers s s'' (bytes ++ bytes') := by
  refine ⟨second.contents.trans first.contents, ?_, ?_⟩
  · rw [second.position, first.position, Array.size_append, Nat.add_assoc]
  · have hsecond := second.bytes
    rw [first.contents, first.position] at hsecond
    rw [Array.size_append, ← Bytes.extract_append, ← first.bytes, ← hsecond]

end Delivers

/-- One call uses up its cue. It fails and delivers nothing, or delivers what the cue allows of the
bytes that are asked for and there. -/
theorem read_delivers (s : Stream) (count : Nat) :
    ∃ s', s'.script.reads = (nextCue s.script.reads).2 ∧
      ((∃ cause, (nextCue s.script.reads).1.allowance = .error cause ∧
          s.read count = (.error cause, s') ∧ Delivers s s' #[]) ∨
        ∃ allowance bytes, (nextCue s.script.reads).1.allowance = .ok allowance ∧
          s.read count = (.ok bytes, s') ∧
          bytes.size = Cue.clip allowance (min count (s.contents.size - s.position)) ∧
          Delivers s s' bytes) := by
  unfold read
  cases hallowance : (nextCue s.script.reads).1.allowance with
  | error cause =>
    simp only [hallowance]
    exact ⟨_, rfl, Or.inl ⟨cause, rfl, rfl, .nothing rfl rfl⟩⟩
  | ok allowance =>
    have hclip := Cue.clip_le allowance (min count (s.contents.size - s.position))
    have hsize : (s.contents.extract s.position (s.position +
        Cue.clip allowance (min count (s.contents.size - s.position)))).size =
          Cue.clip allowance (min count (s.contents.size - s.position)) := by
      rw [Array.size_extract]
      omega
    simp only [hallowance]
    refine ⟨_, rfl, Or.inr ⟨allowance, _, rfl, rfl, hsize, rfl, ?_, ?_⟩⟩
    · simp only [hsize]
    · rw [hsize]

/-! ## Repeated reads -/

section ReadLoop

variable {cause : StorageError} {text : String} {chunk : Bytes}

/-- Nothing more is read when everything is there. -/
theorem readLoop_of_full (hfull : count ≤ got.size) (fuel : Nat) :
    readLoop count fuel got s = ⟨got, .ok (), s⟩ := by
  cases fuel with
  | zero => rfl
  | succ fuel => rw [readLoop, if_pos hfull]

variable (hmissing : got.size < count)

include hmissing

/-- An interrupted call is repeated. -/
theorem readLoop_of_interrupt
    (hread : s.read (count - got.size) = (.error (.interrupted text), s')) :
    readLoop count (fuel + 1) got s = readLoop count fuel got s' := by
  rw [readLoop, if_neg (Nat.not_le_of_lt hmissing), hread]

/-- A failed call ends the reading. -/
theorem readLoop_of_fault (hread : s.read (count - got.size) = (.error cause, s'))
    (hcause : ∀ text, cause ≠ .interrupted text) :
    readLoop count (fuel + 1) got s = ⟨got, .error cause, s'⟩ := by
  rw [readLoop, if_neg (Nat.not_le_of_lt hmissing), hread]
  cases cause with
  | interrupted text => exact absurd rfl (hcause text)
  | _ => rfl

/-- A call that brings nothing ends the reading. -/
theorem readLoop_of_end (hread : s.read (count - got.size) = (.ok chunk, s'))
    (hchunk : chunk.size = 0) : readLoop count (fuel + 1) got s = ⟨got, .ok (), s'⟩ := by
  have hnone : chunk.isEmpty = true := Array.isEmpty_iff_size_eq_zero.mpr hchunk
  rw [readLoop, if_neg (Nat.not_le_of_lt hmissing), hread]
  simp only [hnone, if_true]

/-- After a call that brings something the reading goes on behind it. -/
theorem readLoop_of_chunk (hread : s.read (count - got.size) = (.ok chunk, s'))
    (hchunk : 0 < chunk.size) :
    readLoop count (fuel + 1) got s = readLoop count fuel (got ++ chunk) s' := by
  have hsome : chunk.isEmpty = false :=
    Array.isEmpty_eq_false_iff.mpr (Array.size_pos_iff.mp hchunk)
  rw [readLoop, if_neg (Nat.not_le_of_lt hmissing), hread]
  simp only [hsome, Bool.false_eq_true, if_false]

end ReadLoop

/-- What every read keeps, repeated reads keep. -/
theorem readLoop_induct {P : Stream → Prop} (hread : ∀ s count, P s → P (s.read count).2)
    (hs : P s) : P (readLoop count fuel got s).stream := by
  induction fuel generalizing got s with
  | zero => exact hs
  | succ fuel ih =>
    have hnext := hread s (count - got.size) hs
    unfold readLoop
    split
    · exact hs
    · split
      · next heq =>
        rw [heq] at hnext
        split
        · exact hnext
        · exact ih hnext
      · next heq =>
        rw [heq] at hnext
        exact ih hnext
      · next heq =>
        rw [heq] at hnext
        exact hnext

/-- A reading that has gone on adds to what is there the bytes from the position on. If it ends in a
failure, bytes are still missing. -/
theorem readLoop_delivers {s : Stream} {count fuel : Nat} {got : Bytes} :
    ∃ bytes, (readLoop count fuel got s).delivered = got ++ bytes ∧
      Delivers s (readLoop count fuel got s).stream bytes ∧
      ∀ cause, (readLoop count fuel got s).outcome = .error cause →
        (got ++ bytes).size < count := by
  induction fuel generalizing s got with
  | zero =>
    exact ⟨#[], Array.append_empty.symm, .nothing rfl rfl, nofun⟩
  | succ fuel ih =>
    by_cases hfull : count ≤ got.size
    · rw [readLoop_of_full hfull]
      exact ⟨#[], Array.append_empty.symm, .nothing rfl rfl, nofun⟩
    have hmissing := Nat.lt_of_not_le hfull
    obtain ⟨s', -, ⟨cause, -, hread, hnothing⟩ | ⟨allowance, chunk, -, hread, -, hchunk⟩⟩ :=
      s.read_delivers (count - got.size)
    · by_cases hinterrupt : ∃ text, cause = .interrupted text
      · obtain ⟨text, rfl⟩ := hinterrupt
        rw [readLoop_of_interrupt hmissing hread]
        obtain ⟨bytes, hdelivered, hbytes, hmore⟩ := @ih s' got
        have hboth := hnothing.append hbytes
        rw [Array.empty_append] at hboth
        exact ⟨bytes, hdelivered, hboth, hmore⟩
      · rw [readLoop_of_fault hmissing hread fun text heq => hinterrupt ⟨text, heq⟩]
        refine ⟨#[], Array.append_empty.symm, hnothing, fun _ _ => ?_⟩
        rwa [Array.append_empty]
    · by_cases hend : chunk.size = 0
      · obtain rfl : chunk = #[] := Array.size_eq_zero_iff.mp hend
        rw [readLoop_of_end hmissing hread hend]
        exact ⟨#[], Array.append_empty.symm, hchunk, nofun⟩
      · rw [readLoop_of_chunk hmissing hread (Nat.pos_of_ne_zero hend)]
        obtain ⟨bytes, hdelivered, hbytes, hmore⟩ := @ih s' (got ++ chunk)
        rw [Array.append_assoc] at hdelivered hmore
        exact ⟨chunk ++ bytes, hdelivered, hchunk.append hbytes, hmore⟩

/-- Repeated reads change no bytes. -/
theorem contents_readLoop : (readLoop count fuel got s).stream.contents = s.contents := by
  obtain ⟨bytes, -, hbytes, -⟩ := @readLoop_delivers s count fuel got
  exact hbytes.contents

/-- The reading has come to its end before its calls are used up: more of them change nothing. -/
theorem readLoop_more (hfuel : s.script.reads.length + (count - got.size) < fuel) (more : Nat) :
    readLoop count (fuel + more) got s = readLoop count fuel got s := by
  induction fuel generalizing s got with
  | zero => omega
  | succ fuel ih =>
    rw [Nat.succ_add]
    by_cases hfull : count ≤ got.size
    · rw [readLoop_of_full hfull, readLoop_of_full hfull]
    have hmissing := Nat.lt_of_not_le hfull
    obtain ⟨hlength, hused⟩ := length_nextCue s.script.reads
    obtain ⟨s', hreads, ⟨cause, hcue, hread, -⟩ | ⟨allowance, chunk, -, hread, hsize, -⟩⟩ :=
      s.read_delivers (count - got.size)
    · have hused := hused cause hcue
      by_cases hinterrupt : ∃ text, cause = .interrupted text
      · obtain ⟨text, rfl⟩ := hinterrupt
        rw [readLoop_of_interrupt hmissing hread, readLoop_of_interrupt hmissing hread]
        refine ih ?_
        rw [hreads]
        omega
      · have hcause (text : String) : cause ≠ .interrupted text :=
          fun heq => hinterrupt ⟨text, heq⟩
        rw [readLoop_of_fault hmissing hread hcause, readLoop_of_fault hmissing hread hcause]
    · by_cases hend : chunk.size = 0
      · rw [readLoop_of_end hmissing hread hend, readLoop_of_end hmissing hread hend]
      · have hpos := Nat.pos_of_ne_zero hend
        rw [readLoop_of_chunk hmissing hread hpos, readLoop_of_chunk hmissing hread hpos]
        refine ih ?_
        rw [hreads, Array.size_append]
        omega

/-! ## Reads that come on -/

/-- A call that comes on is interrupted, or brings something if anything is asked for and there. -/
theorem read_of_progresses (hreads : ∀ cue ∈ s.script.reads, cue.progresses = true) (count : Nat) :
    ∃ s', (∀ cue ∈ s'.script.reads, cue.progresses = true) ∧
      ((∃ text, s.read count = (.error (.interrupted text), s') ∧
          s'.script.reads.length < s.script.reads.length ∧ Delivers s s' #[]) ∨
        ∃ bytes, s.read count = (.ok bytes, s') ∧
          s'.script.reads.length ≤ s.script.reads.length ∧
          bytes.size ≤ min count (s.contents.size - s.position) ∧
          (bytes.size = 0 → min count (s.contents.size - s.position) = 0) ∧
          Delivers s s' bytes) := by
  obtain ⟨hprogresses, hrest⟩ := nextCue_all (p := Cue.progresses) rfl hreads
  obtain ⟨hlength, hused⟩ := length_nextCue s.script.reads
  obtain ⟨s', hscript, hread⟩ := s.read_delivers count
  rw [← hscript] at hrest hlength hused
  refine ⟨s', hrest, ?_⟩
  obtain ⟨text, hinterrupt⟩ | ⟨allowance, hallowance, hsome⟩ := allowance_of_progresses hprogresses
  · left
    obtain ⟨cause, hcue, hread, hnothing⟩ | ⟨allowance, bytes, hcue, -⟩ := hread
    · obtain rfl : cause = .interrupted text := Except.error.inj (hcue.symm.trans hinterrupt)
      exact ⟨text, hread, hused _ hinterrupt, hnothing⟩
    · exact absurd (hcue.symm.trans hinterrupt) nofun
  · right
    obtain ⟨cause, hcue, -⟩ | ⟨allowed, bytes, hcue, hread, hsize, hbytes⟩ := hread
    · exact absurd (hcue.symm.trans hallowance) nofun
    · obtain rfl : allowed = allowance := Except.ok.inj (hcue.symm.trans hallowance)
      refine ⟨bytes, hread, hlength, hsize ▸ Cue.clip_le _ _, fun hnone => ?_, hbytes⟩
      rw [hsize] at hnone
      exact Nat.eq_zero_of_not_pos fun hpos => absurd hnone (Nat.ne_of_gt (hsome _ hpos))

/-- If no call fails for good, the reading succeeds and brings all that is asked for and there. -/
theorem readLoop_of_progresses (hreads : ∀ cue ∈ s.script.reads, cue.progresses = true)
    (hgot : got.size ≤ count) (hfuel : s.script.reads.length + (count - got.size) < fuel) :
    (readLoop count fuel got s).outcome = .ok () ∧
      (readLoop count fuel got s).delivered.size =
        got.size + min (count - got.size) (s.contents.size - s.position) := by
  induction fuel generalizing s got with
  | zero => omega
  | succ fuel ih =>
    by_cases hfull : count ≤ got.size
    · rw [readLoop_of_full hfull, Nat.sub_eq_zero_of_le hfull, Nat.zero_min]
      exact ⟨rfl, rfl⟩
    have hmissing := Nat.lt_of_not_le hfull
    obtain ⟨s', hrest, ⟨text, hread, hscript, hnothing⟩ |
      ⟨chunk, hread, hscript, hmost, hnone, hchunk⟩⟩ := read_of_progresses hreads (count - got.size)
    · have hposition : s'.position = s.position := hnothing.position
      rw [readLoop_of_interrupt hmissing hread, ← hnothing.contents, ← hposition]
      exact ih hrest hgot (by omega)
    by_cases hend : chunk.size = 0
    · rw [readLoop_of_end hmissing hread hend, hnone hend]
      exact ⟨rfl, rfl⟩
    · have hboth : (got ++ chunk).size = got.size + chunk.size := Array.size_append
      obtain ⟨hok, hall⟩ := @ih s' (got ++ chunk) hrest (by omega) (by omega)
      rw [readLoop_of_chunk hmissing hread (Nat.pos_of_ne_zero hend)]
      refine ⟨hok, ?_⟩
      rw [hall, hboth, hchunk.contents, hchunk.position]
      omega

/-- If no call fails for good, repeated reading brings the bytes from the position on, as many as
there are. -/
theorem readFully_of_progresses (hreads : ∀ cue ∈ s.script.reads, cue.progresses = true)
    (count : Nat) :
    (s.readFully count).outcome = .ok () ∧
      (s.readFully count).delivered = s.contents.extract s.position (s.position + count) := by
  have hnone : (#[] : Bytes).size ≤ count := Nat.zero_le count
  obtain ⟨hok, hsize⟩ := readLoop_of_progresses hreads hnone (Nat.lt_succ_self _)
  obtain ⟨bytes, hdelivered, hbytes, -⟩ :=
    @readLoop_delivers s count (s.script.reads.length + count + 1) #[]
  rw [Array.empty_append] at hdelivered
  have hcount : bytes.size = 0 + min count (s.contents.size - s.position) := by
    rw [← hdelivered]
    exact hsize
  refine ⟨hok, hdelivered.trans ?_⟩
  rw [hbytes.bytes, Array.extract_eq_extract_right]
  omega

/-! ## Reads that fail -/

/-- How many of some bytes are still to come after calls with some cues. -/
def leaves (cues : List Cue) (left : Nat) : Nat :=
  cues.foldl (fun left cue => cue.leaves left) left

/-- After some calls there are not more bytes to come. -/
theorem leaves_le (cues : List Cue) (left : Nat) : leaves cues left ≤ left := by
  induction cues generalizing left with
  | nil => exact Nat.le_refl _
  | cons cue cues ih => exact Nat.le_trans (ih _) (cue.leaves_le left)

/-- While bytes are still to come, a call that comes on is followed by others, and as many bytes are
to come then as its cue leaves. -/
theorem readLoop_of_cue {cue : Cue} {cues : List Cue} (hreads : s.script.reads = cue :: cues)
    (hcue : cue.progresses = true)
    (hthere : 0 < min (count - got.size) (s.contents.size - s.position)) :
    ∃ s' chunk, readLoop count (fuel + 1) got s = readLoop count fuel (got ++ chunk) s' ∧
      s'.script.reads = cues ∧
      min (count - (got ++ chunk).size) (s'.contents.size - s'.position) =
        cue.leaves (min (count - got.size) (s.contents.size - s.position)) := by
  have hmissing : got.size < count := by omega
  obtain ⟨s', hscript, hread⟩ := s.read_delivers (count - got.size)
  rw [hreads] at hscript hread
  unfold Cue.leaves
  obtain ⟨text, hinterrupt⟩ | ⟨allowance, hallowance, hsome⟩ := allowance_of_progresses hcue
  · obtain ⟨cause, hraised, hread, hnothing⟩ | ⟨allowed, chunk, hallowed, -⟩ := hread
    · obtain rfl : cause = .interrupted text := Except.error.inj (hraised.symm.trans hinterrupt)
      refine ⟨s', #[], ?_, hscript, ?_⟩
      · rw [Array.append_empty, readLoop_of_interrupt hmissing hread]
      · have hposition : s'.position = s.position := hnothing.position
        rw [hinterrupt, Array.append_empty, hnothing.contents, hposition]
    · exact absurd (hallowed.symm.trans hinterrupt) nofun
  · obtain ⟨cause, hraised, -⟩ | ⟨allowed, chunk, hallowed, hread, hsize, hchunk⟩ := hread
    · exact absurd (hraised.symm.trans hallowance) nofun
    · obtain rfl : allowed = allowance := Except.ok.inj (hallowed.symm.trans hallowance)
      have hpos := hsome _ hthere
      rw [← hsize] at hpos
      refine ⟨s', chunk, readLoop_of_chunk hmissing hread hpos, hscript, ?_⟩
      simp only [hallowance, ← hsize]
      rw [Array.size_append, hchunk.contents, hchunk.position]
      omega

/-- A call that fails for good while bytes are still to come makes the reading fail. -/
theorem readLoop_of_fail {before rest : List Cue} {text : String}
    (hreads : s.script.reads = before ++ .fail text :: rest)
    (hbefore : ∀ cue ∈ before, cue.progresses = true)
    (hleft : 0 < leaves before (min (count - got.size) (s.contents.size - s.position)))
    (hfuel : before.length < fuel) :
    (readLoop count fuel got s).outcome = .error (.fault text) := by
  induction before generalizing s got fuel with
  | nil =>
    have hthere := Nat.lt_of_lt_of_le hleft (leaves_le _ _)
    have hmissing : got.size < count := by omega
    obtain ⟨fuel, rfl⟩ := Nat.exists_eq_succ_of_ne_zero (Nat.ne_zero_of_lt hfuel)
    obtain ⟨s', hscript, hread⟩ := s.read_delivers (count - got.size)
    rw [hreads] at hread
    obtain ⟨cause, hraised, hread, -⟩ | ⟨allowance, chunk, hallowed, -⟩ := hread
    · obtain rfl : StorageError.fault text = cause := Except.error.inj hraised
      rw [readLoop_of_fault hmissing hread nofun]
    · cases hallowed
  | cons cue before ih =>
    have hthere := Nat.lt_of_lt_of_le hleft (leaves_le _ _)
    obtain ⟨fuel, rfl⟩ := Nat.exists_eq_succ_of_ne_zero (Nat.ne_zero_of_lt hfuel)
    obtain ⟨s', chunk, hloop, hscript, hnext⟩ :=
      readLoop_of_cue hreads (hbefore cue List.mem_cons_self) hthere
    rw [hloop]
    refine ih hscript (fun later hmem => hbefore later (List.mem_cons_of_mem _ hmem)) ?_
      (Nat.lt_of_succ_lt_succ hfuel)
    rw [hnext]
    exact hleft

end Stream

end HardSector
