import HardSector.Geometry
import HardSector.Proofs.Storage.Reading
import HardSector.Proofs.Storage.Writing

/-!
# Cooperative streams

A stream may cut the calls on it short and interrupt them. As long as each call comes on a
little or is only interrupted, repeated reading delivers what one undisturbed call would
have delivered, and repeated writing takes everything.
-/

namespace HardSector

namespace Stream

/-- A stream on which no call within the size of a disk fails for good. -/
structure Cooperative (s : Stream) : Prop where
  seeks : ∀ cue ∈ s.script.seeks, cue.passes = true
  reads : ∀ cue ∈ s.script.reads, cue.progresses = true
  writes : ∀ cue ∈ s.script.writes, cue.progresses = true
  flushes : ∀ cue ∈ s.script.flushes, cue.passes = true
  inside : ∀ offset < Geometry.eightInch.diskSize,
    within s.farthest offset = true ∧ within s.reach offset = true

namespace Cooperative

variable {s : Stream}

/-! ## Single calls -/

/-- A seek within the bounds of the stream succeeds. -/
theorem seek (hs : s.Cooperative) {offset : Nat} (hoffset : within s.farthest offset = true) :
    ∃ s', s.seek offset = (.ok (), s') ∧ s'.Cooperative ∧ s'.contents = s.contents ∧
      s'.position = offset := by
  obtain ⟨hpasses, hrest⟩ := nextCue_all (p := Cue.passes) rfl hs.seeks
  obtain ⟨allowance, hallowance⟩ := allowance_of_passes hpasses
  unfold Stream.seek
  simp only [hallowance, hoffset, if_true]
  exact ⟨_, rfl, ⟨hrest, hs.reads, hs.writes, hs.flushes, hs.inside⟩, rfl, rfl⟩

/-- A flush succeeds. -/
theorem flush (hs : s.Cooperative) :
    ∃ s', s.flush = (.ok (), s') ∧ s'.Cooperative ∧ s'.contents = s.contents := by
  obtain ⟨hpasses, hrest⟩ := nextCue_all (p := Cue.passes) rfl hs.flushes
  obtain ⟨allowance, hallowance⟩ := allowance_of_passes hpasses
  unfold Stream.flush
  simp only [hallowance]
  exact ⟨_, rfl, ⟨hs.seeks, hs.reads, hs.writes, hrest, hs.inside⟩, rfl⟩

/-- A read leaves the stream cooperative. -/
theorem read (hs : s.Cooperative) (count : Nat) : (s.read count).2.Cooperative := by
  obtain ⟨-, hrest⟩ := nextCue_all (p := Cue.progresses) rfl hs.reads
  unfold Stream.read
  dsimp only
  split
  · exact ⟨hs.seeks, hrest, hs.writes, hs.flushes, hs.inside⟩
  · exact ⟨hs.seeks, hrest, hs.writes, hs.flushes, hs.inside⟩

/-- A write leaves the stream cooperative. -/
theorem write (hs : s.Cooperative) (data : Bytes) : (s.write data).2.Cooperative := by
  obtain ⟨-, hrest⟩ := nextCue_all (p := Cue.progresses) rfl hs.writes
  unfold Stream.write
  dsimp only
  split
  · exact ⟨hs.seeks, hs.reads, hrest, hs.flushes, hs.inside⟩
  · split
    · exact ⟨hs.seeks, hs.reads, hrest, hs.flushes, hs.inside⟩
    · exact ⟨hs.seeks, hs.reads, hrest, hs.flushes, hs.inside⟩

/-! ## Repeated calls -/

/-- Reading delivers the bytes from the position on, as many as there are. -/
theorem readFully (hs : s.Cooperative) (count : Nat) :
    ∃ s', s.readFully count =
        ⟨s.contents.extract s.position (s.position + count), .ok (), s'⟩ ∧
      s'.Cooperative ∧ s'.contents = s.contents := by
  obtain ⟨hok, hall⟩ := readFully_of_progresses hs.reads count
  obtain ⟨bytes, -, hbytes, -⟩ :=
    @readLoop_delivers s count (s.script.reads.length + count + 1) #[]
  refine ⟨(s.readFully count).stream, ?_, ?_, hbytes.contents⟩
  · rw [← hok, ← hall]
  · exact readLoop_induct (P := Cooperative) (fun _ count hs => hs.read count) hs

/-- Writing takes all bytes that are left. Each call uses up a cue or takes a byte. -/
theorem writeLoop (hs : s.Cooperative) {data : Bytes} {fuel : Nat}
    (hinside : s.position + data.size ≤ Geometry.eightInch.diskSize)
    (hfuel : s.script.writes.length + data.size < fuel) :
    (Stream.writeLoop fuel data s).1 = .ok () ∧ (Stream.writeLoop fuel data s).2.Cooperative := by
  induction fuel generalizing s data with
  | zero => omega
  | succ fuel ih =>
    rcases Nat.eq_zero_or_pos data.size with hempty | hdata
    · rw [writeLoop_of_empty hempty]
      exact ⟨rfl, hs⟩
    obtain ⟨s', ⟨text, hwrite, hscript, hnothing⟩ | ⟨n, hn, hpos, hwrite, hscript, htaken⟩⟩ :=
      write_of_progresses hs.writes (hs.inside s.position (by omega)).2 hdata
    · have hposition : s'.position = s.position := hnothing.position
      have hnext : s'.Cooperative := by
        have hleft := hs.write data
        rwa [hwrite] at hleft
      rw [writeLoop_of_interrupt hdata hwrite]
      exact ih hnext (by omega) (by omega)
    · have hposition := htaken.position
      have hnext : s'.Cooperative := by
        have hleft := hs.write data
        rwa [hwrite] at hleft
      have hrest : (data.extract n data.size).size = data.size - n := by
        rw [Array.size_extract, Nat.min_self]
      rw [Array.size_extract, Nat.min_eq_left hn, Nat.sub_zero] at hposition
      rw [writeLoop_of_some hdata hwrite hpos]
      exact ih hnext (by omega) (by omega)

/-- Writing takes all bytes, at the position. -/
theorem writeAll (hs : s.Cooperative) {data : Bytes}
    (hinside : s.position + data.size ≤ Geometry.eightInch.diskSize) :
    ∃ s', s.writeAll data = (.ok (), s') ∧ s'.Cooperative ∧
      ∀ i, s'.contents.getD i 0 = (s.contents.splice s.position data).getD i 0 := by
  obtain ⟨hok, hcooperative⟩ := hs.writeLoop hinside (Nat.lt_succ_self _)
  obtain ⟨n, -, htaken, hall⟩ :=
    writeLoop_takes (Nat.lt_succ_self (s.script.writes.length + data.size))
  refine ⟨(s.writeAll data).2, Prod.ext hok rfl, hcooperative, fun i => ?_⟩
  have hwhole := htaken.getD_contents i
  rw [hall hok, Array.extract_size] at hwhole
  exact hwhole

end Cooperative

end Stream

end HardSector
