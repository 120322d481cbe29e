import HardSector.Proofs.Medium.Conserving
import HardSector.Proofs.Medium.Legible

/-!
# What a fetch delivers

A stream delivers what is fetched over several calls. As long as each of them brings a byte
or is only interrupted, the fetch brings the bytes of the stream from its offset on, as many
as are asked for and there, however they are cut. A call that fails for good makes the fetch
fail, before the last byte asked for; the bytes that came are still those from the offset on.
-/

namespace HardSector

/-- A fetch that fails has brought bytes from its offset on, but not all of them. -/
theorem InPlace.failed_fetchStream {s : Stream} {offset count : Nat} {cause : StorageError}
    (hfailed : (fetchStream s offset count).outcome = .error cause) (hcount : 0 < count) :
    ∃ n < count, (fetchStream s offset count).delivered.size = n ∧
      (fetchStream s offset count).delivered = s.contents.extract offset (offset + n) := by
  have hcontents := s.contents_seek offset
  have hposition : (s.seek offset).1 = .ok () → (s.seek offset).2.position = offset :=
    s.position_seek
  unfold fetchStream at hfailed ⊢
  generalize s.seek offset = sought at hfailed hcontents hposition ⊢
  obtain ⟨outcome | ⟨⟩, s'⟩ := sought
  · refine ⟨0, hcount, rfl, ?_⟩
    rw [Nat.add_zero, Array.extract_empty_of_stop_le_start (Nat.le_refl _)]
  · obtain ⟨bytes, hdelivered, hbytes, hmissing⟩ :=
      @Stream.readLoop_delivers s' count (s'.script.reads.length + count + 1) #[]
    rw [Array.empty_append] at hdelivered hmissing
    have hsame := hbytes.bytes
    rw [hcontents, hposition rfl] at hsame
    refine ⟨bytes.size, hmissing cause hfailed, ?_, ?_⟩
    · exact congrArg Array.size hdelivered
    · exact hdelivered.trans hsame

/-- The bytes of a buffer after a fetch into it: those that were delivered come to its start. -/
def Fetched.fill {M R W : Type} (fetched : Fetched M R W) (buffer : Bytes) : Bytes :=
  buffer.splice 0 fetched.delivered

/-- Bytes delivered to the start of a buffer that has room for them. -/
theorem Bytes.getElem?_splice_zero {buffer delivered : Bytes}
    (hsize : delivered.size ≤ buffer.size) :
    (buffer.splice 0 delivered).size = buffer.size ∧
      (∀ i < delivered.size, (buffer.splice 0 delivered)[i]? = delivered[i]?) ∧
      ∀ i, delivered.size ≤ i → (buffer.splice 0 delivered)[i]? = buffer[i]? := by
  refine ⟨?_, fun i hi => ?_, fun i hi => ?_⟩
  · rw [size_splice, Nat.zero_add, Nat.max_eq_left hsize]
  · rw [getElem?_splice, if_pos (by omega), Nat.sub_zero]
  · rw [getElem?_splice, if_neg (by omega), if_neg (by omega)]

namespace InPlace

variable {s : Stream} {offset : Nat}

/-- A fetch is a seek and repeated reads, if the seek succeeds. -/
theorem fetchStream_of_seek (hseek : (s.seek offset).1 = .ok ()) (count : Nat) :
    fetchStream s offset count = (s.seek offset).2.readFully count := by
  unfold fetchStream
  generalize s.seek offset = sought at hseek ⊢
  obtain ⟨outcome, s'⟩ := sought
  obtain rfl : outcome = .ok () := hseek
  rfl

/-- If no read fails for good, a fetch succeeds and brings the bytes from its offset on, as many as
there are. -/
theorem fetchStream_of_progresses (hseek : (s.seek offset).1 = .ok ())
    (hreads : ∀ cue ∈ s.script.reads, cue.progresses = true) (count : Nat) :
    (fetchStream s offset count).outcome = .ok () ∧
      (fetchStream s offset count).delivered = s.contents.extract offset (offset + count) := by
  rw [← s.reads_seek offset] at hreads
  have hread := Stream.readFully_of_progresses hreads count
  rw [s.contents_seek, s.position_seek hseek] at hread
  rw [fetchStream_of_seek hseek]
  exact hread

/-- A read that fails for good while bytes are still to come makes a fetch fail. -/
theorem fetchStream_of_fail (hseek : (s.seek offset).1 = .ok ()) {before rest : List Cue}
    {text : String} (hreads : s.script.reads = before ++ .fail text :: rest)
    (hbefore : ∀ cue ∈ before, cue.progresses = true) {count : Nat}
    (hleft : 0 < Stream.leaves before (min count (s.contents.size - offset))) :
    (fetchStream s offset count).outcome = .error (.fault text) := by
  rw [← s.reads_seek offset] at hreads
  have hlength : before.length < (s.seek offset).2.script.reads.length + count + 1 := by
    rw [hreads, List.length_append]
    omega
  rw [fetchStream_of_seek hseek]
  refine Stream.readLoop_of_fail hreads hbefore ?_ hlength
  rw [s.contents_seek, s.position_seek hseek]
  exact hleft

section Outcome

variable {H W : Type} [Backing H W] {disk : InPlace H} {site : Site Unit W} {count : Nat}

/-- A fetch succeeds with as many bytes as were delivered. -/
theorem outcome_fetch_of_ok
    (hok : (fetchStream (disk.stream site.host) offset count).outcome = .ok ()) :
    (Medium.fetch disk site offset count).outcome =
      .ok (fetchStream (disk.stream site.host) offset count).delivered.size := by
  simp only [Medium.fetch, hok]

/-- A fetch fails as the reads of the stream do. -/
theorem outcome_fetch_of_error {cause : StorageError}
    (hfailed : (fetchStream (disk.stream site.host) offset count).outcome = .error cause) :
    (Medium.fetch disk site offset count).outcome = .error (.storage cause) := by
  simp only [Medium.fetch, hfailed]

end Outcome

/-- However the reads of a stream are cut and interrupted, a fetch from a medium in place ends, and
puts into the buffer the bytes of the stream from its offset on, as many as the buffer takes and the
stream has, with the rest of the buffer, the stream and the length of the medium as they were. If a
read fails for good before all these bytes have come, the fetch fails. -/
theorem fetch_reads_piecemeal {H W : Type} [Backing H W] [LawfulBacking H W] (disk : InPlace H)
    (site : Site Unit W) (offset : Nat) (buffer : Bytes) :
    let s := disk.stream site.host
    let count := min buffer.size (s.contents.size - offset)
    let fetched := Medium.fetch disk site offset buffer.size
    let filled := fetched.fill buffer
    (s.seek offset).1 = .ok () →
    ((∀ cue ∈ s.script.reads, cue.progresses = true) →
      fetched.outcome = .ok count ∧
      filled.size = buffer.size ∧
      (∀ i < count, filled[i]? = s.contents[offset + i]?) ∧
      (∀ i, count ≤ i → filled[i]? = buffer[i]?) ∧
      (fetched.medium.stream fetched.site.host).contents = s.contents ∧
      fetched.medium.length = disk.length ∧
      ∀ more, Stream.readLoop buffer.size (s.script.reads.length + buffer.size + 1 + more) #[]
        (s.seek offset).2 = (s.seek offset).2.readFully buffer.size) ∧
    ∀ before text rest, s.script.reads = before ++ .fail text :: rest →
      (∀ cue ∈ before, cue.progresses = true) → 0 < Stream.leaves before count →
      fetched.outcome = .error (.storage (.fault text)) := by
  intro s count fetched filled hseek
  constructor
  · intro hreads
    obtain ⟨hok, hdelivered⟩ := fetchStream_of_progresses hseek hreads buffer.size
    have hsame := contents_fetchStream s offset buffer.size
    have hsize : fetched.delivered.size = count := by
      change (fetchStream s offset buffer.size).delivered.size = count
      rw [hdelivered, Array.size_extract]
      omega
    have hroom : fetched.delivered.size ≤ buffer.size := by
      rw [hsize]
      exact Nat.min_le_left _ _
    obtain ⟨hfilled, hfirst, hrest⟩ := Bytes.getElem?_splice_zero hroom
    rw [hsize] at hfirst hrest
    refine ⟨?_, hfilled, fun i hi => ?_, hrest, ?_, rfl, fun more => ?_⟩
    · rw [← hsize]
      exact outcome_fetch_of_ok hok
    · refine (hfirst i hi).trans ?_
      change (fetchStream s offset buffer.size).delivered[i]? = s.contents[offset + i]?
      rw [hdelivered, Array.getElem?_extract, if_pos (by omega)]
    · exact (LawfulBacking.contents disk.handle site.host hsame).1.trans hsame
    · have hcalls : (s.seek offset).2.script.reads.length + (buffer.size - (#[] : Bytes).size) <
          (s.seek offset).2.script.reads.length + buffer.size + 1 :=
        Nat.lt_succ_self _
      rw [← s.reads_seek offset]
      exact Stream.readLoop_more hcalls more
  · intro before text rest hreads hbefore hleft
    exact outcome_fetch_of_error (fetchStream_of_fail hseek hreads hbefore hleft)

/-- Three bytes come in two calls with an interruption between them, and the fourth byte of the
buffer stays. With a failure after the first byte there is no success. -/
theorem fetch_reads_piecemeal_in_two_calls :
    let disk (last : Cue) : InPlace Stream :=
      { handle :=
          { contents := #[1, 2, 3, 4, 5]
            script := { reads := [.limit 1, .interrupt "again", last] } }
        length := 5 }
    let site : Site Unit Unit := { shared := (), host := () }
    let buffer : Bytes := #[9, 9, 9, 9]
    (Medium.fetch (disk (.limit 3)) site 2 buffer.size).outcome = .ok 3 ∧
      ((Medium.fetch (disk (.limit 3)) site 2 buffer.size).fill buffer)[2]? = some 5 ∧
      ((Medium.fetch (disk (.limit 3)) site 2 buffer.size).fill buffer)[3]? = some 9 ∧
      (Medium.fetch (disk (.fail "bad")) site 2 buffer.size).outcome =
        .error (.storage (.fault "bad")) := by
  intro disk site buffer
  have hseek (last : Cue) : (((disk last).stream site.host).seek 2).1 = .ok () := rfl
  have hcues : ∀ cue ∈ ((disk (.limit 3)).stream site.host).script.reads,
      cue.progresses = true := by
    decide
  have hcount (last : Cue) :
      min buffer.size (((disk last).stream site.host).contents.size - 2) = 3 :=
    rfl
  obtain ⟨hok, -, hfirst, hrest, -⟩ :=
    (fetch_reads_piecemeal (disk (.limit 3)) site 2 buffer (hseek _)).1 hcues
  have hfail := (fetch_reads_piecemeal (disk (.fail "bad")) site 2 buffer (hseek _)).2
    [.limit 1, .interrupt "again"] "bad" [] rfl (by decide) (by decide)
  rw [hcount] at hok hfirst hrest
  refine ⟨hok, ?_, ?_, hfail⟩
  · exact (hfirst 2 (by decide)).trans rfl
  · exact (hrest 3 (by decide)).trans rfl

end InPlace

end HardSector
