import HardSector.Proofs.Medium.Conserving
import HardSector.Proofs.Run
import HardSector.Proofs.Storage.Writing

/-!
# What a store to a medium in place may change

A store may be torn: the stream may fail at any of its calls, with some of the bytes taken and
the others not. Even so nothing outside the window of the store is changed, and the window
holds the first bytes of the store before those that it held. The length of the medium counts
only stores that succeeded, so it is never more than the length of the stream.
-/

namespace HardSector

/-- Bytes that are left when the first `count` bytes of `data` have been put into a window that
starts at `offset`. -/
structure Bytes.Overwritten (before : Bytes) (offset : Nat) (data : Bytes) (count : Nat)
    (after : Bytes) : Prop where
  grown : before.size ≤ after.size
  ends : after.size ≤ max before.size (offset + data.size)
  outside : ∀ i < before.size, ¬(offset ≤ i ∧ i < offset + data.size) → after[i]? = before[i]?
  gap : ∀ i < after.size, before.size ≤ i → i < offset → after[i]? = some 0
  window : ∀ i < data.size,
    after[offset + i]? = if i < count then data[i]? else before[offset + i]?

namespace Bytes.Overwritten

variable {before after data : Bytes} {offset count : Nat}

/-- Nothing has been put into the window yet. -/
theorem none (before : Bytes) (offset : Nat) (data : Bytes) :
    Overwritten before offset data 0 before := by
  refine ⟨Nat.le_refl _, Nat.le_max_left _ _, fun _ _ _ => rfl, fun i hi hout => ?_, ?_⟩
  · omega
  · intro i _
    rw [if_neg (Nat.not_lt_zero i)]

/-- Bytes have been spliced into the window. -/
theorem splice (before : Bytes) (offset : Nat) {data : Bytes} (hcount : count ≤ data.size) :
    Overwritten before offset data count (before.splice offset (data.extract 0 count)) := by
  have hsize : (data.extract 0 count).size = count := by
    rw [Array.size_extract, Nat.min_eq_left hcount, Nat.sub_zero]
  have hspliced : (before.splice offset (data.extract 0 count)).size =
      max before.size (offset + count) := by
    rw [size_splice, hsize]
  refine ⟨by omega, by omega, fun i hi hout => ?_, fun i hi hpast hgap => ?_, fun i hi => ?_⟩
  · rw [getElem?_splice, hsize, if_neg (by omega), if_neg (by omega)]
  · rw [getElem?_splice, hsize, if_neg (by omega), if_pos ⟨hpast, hgap⟩]
  · rw [getElem?_splice, hsize]
    split
    · next hin =>
      rw [if_pos (by omega), Nat.add_sub_cancel_left, Array.getElem?_extract,
        if_pos (by omega), Nat.zero_add]
    · next hout => rw [if_neg (by omega), if_neg (by omega)]

/-- When all of some bytes are in the window, nothing ends before it. -/
theorem size_eq (h : Overwritten before offset data data.size after) (hdata : 0 < data.size) :
    after.size = max before.size (offset + data.size) := by
  have hlast := h.window (data.size - 1) (by omega)
  have hthere : data.size - 1 < data.size := by omega
  rw [if_pos hthere, Array.getElem?_eq_getElem hthere] at hlast
  have hin : offset + (data.size - 1) < after.size :=
    (Array.getElem?_eq_some_iff.mp hlast).1
  have hgrown := h.grown
  have hends := h.ends
  omega

end Bytes.Overwritten

/-! ## Stores -/

/-- A stream that has taken the first bytes of a string has them in the window at its position. -/
theorem Stream.Takes.overwritten {s s' : Stream} {data : Bytes} {count : Nat}
    (h : Takes s s' (data.extract 0 count)) (hcount : count ≤ data.size) :
    s.contents.Overwritten s.position data count s'.contents := by
  rcases h.contents with htaken | ⟨hnone, hsame⟩
  · rw [htaken]
    exact .splice _ _ hcount
  · have hsize := congrArg Array.size hnone
    rw [Array.size_extract, Nat.min_eq_left hcount] at hsize
    obtain rfl : count = 0 := hsize
    rw [hsame]
    exact .none ..

namespace InPlace

/-- Repeated writing leaves the first bytes in the window at the position, and all of them if it
succeeds. -/
theorem writeAll_overwrites (s : Stream) (data : Bytes) :
    ∃ count ≤ data.size,
      s.contents.Overwritten s.position data count (s.writeAll data).2.contents ∧
      ((s.writeAll data).1 = .ok () → count = data.size) := by
  obtain ⟨count, hcount, htaken, hall⟩ :=
    Stream.writeLoop_takes (Nat.lt_succ_self (s.script.writes.length + data.size))
  exact ⟨count, hcount, htaken.overwritten hcount, hall⟩

/-- A store leaves the first bytes in its window, and all of them if it succeeds. -/
theorem storeStream_overwrites (s : Stream) (offset : Nat) (data : Bytes) :
    ∃ count ≤ data.size,
      s.contents.Overwritten offset data count (storeStream s offset data).2.contents ∧
      ((storeStream s offset data).1 = .ok () → count = data.size) := by
  have hcontents := s.contents_seek offset
  unfold storeStream
  cases hseek : s.seek offset with
  | mk outcome s' =>
    rw [hseek] at hcontents
    cases outcome with
    | error cause =>
      refine ⟨0, Nat.zero_le _, ?_, nofun⟩
      rw [hcontents]
      exact .none ..
    | ok =>
      have hposition := s.position_seek (congrArg Prod.fst hseek)
      rw [hseek] at hposition
      obtain ⟨count, hcount, hover, hall⟩ := writeAll_overwrites s' data
      rw [hcontents, hposition] at hover
      refine ⟨count, hcount, ?_⟩
      dsimp only
      cases hwritten : s'.writeAll data with
      | mk outcome s'' =>
        rw [hwritten] at hover hall
        cases outcome with
        | error cause => exact ⟨hover, nofun⟩
        | ok =>
          refine ⟨?_, fun _ => hall rfl⟩
          dsimp only
          rw [s''.contents_flush]
          exact hover

variable {W : Type}

section Calls

variable {file : InPlace Stream} {site : Site Unit W} {offset : Nat} {data : Bytes} {s : Stream}
  {cause : StorageError}

/-- A store that succeeds may make the medium longer. -/
theorem store_of_ok (hstore : storeStream file.handle offset data = (.ok (), s)) :
    Medium.store file site offset data =
      ⟨.ok (), { file with handle := s, length := max file.length (offset + data.size) }, site⟩ := by
  simp only [Medium.store, stream, Backing.stream, restore, Backing.restore, hstore]

/-- A store that fails leaves the length of the medium. -/
theorem store_of_error (hstore : storeStream file.handle offset data = (.error cause, s)) :
    Medium.store file site offset data =
      ⟨.error (.storage cause), { file with handle := s }, site⟩ := by
  simp only [Medium.store, stream, Backing.stream, restore, Backing.restore, hstore]

end Calls

/-- A store to a medium overwrites its window in the stream. -/
theorem store_overwrites (file : InPlace Stream) (site : Site Unit W) (offset : Nat)
    (data : Bytes) :
    let stored := Medium.store file site offset data
    ∃ count ≤ data.size,
      file.handle.contents.Overwritten offset data count stored.medium.handle.contents ∧
      (stored.outcome = .ok () → count = data.size ∧
        stored.medium.length = max file.length (offset + data.size)) ∧
      (stored.outcome ≠ .ok () → stored.medium.length = file.length) := by
  obtain ⟨count, hcount, hover, hall⟩ := storeStream_overwrites file.handle offset data
  refine ⟨count, hcount, ?_⟩
  cases hstored : storeStream file.handle offset data with
  | mk outcome s =>
    rw [hstored] at hover hall
    cases outcome with
    | ok =>
      rw [store_of_ok hstored]
      exact ⟨hover, fun _ => ⟨hall rfl, rfl⟩, fun hfailed => absurd rfl hfailed⟩
    | error cause =>
      rw [store_of_error hstored]
      exact ⟨hover, nofun, fun _ => rfl⟩

/-- A fetch leaves the length of a medium and the bytes of its stream. -/
theorem fetch_keeps (file : InPlace Stream) (site : Site Unit W) (offset count : Nat) :
    let fetched := Medium.fetch file site offset count
    fetched.medium.length = file.length ∧
      fetched.medium.handle.contents = file.handle.contents :=
  ⟨rfl, contents_fetchStream file.handle offset count⟩

/-- A release leaves the length of a medium and the bytes of its stream. -/
theorem release_keeps (file : InPlace Stream) (site : Site Unit W) :
    let released := Medium.release file site
    released.1.length = file.length ∧ released.1.handle.contents = file.handle.contents := by
  have hsame := file.handle.contents_flush
  intro released
  have hreleased : released.1 = { file with handle := file.handle.flush.2 } := by
    simp only [released, Medium.release, stream, Backing.stream, restore, Backing.restore]
    cases file.handle.flush.1 <;> rfl
  rw [hreleased]
  exact ⟨rfl, hsame⟩

end InPlace

/-! ## Runs -/

/-- Something that is asked of a medium. -/
inductive Medium.Request where
  | fetch (offset count : Nat)
  | store (offset : Nat) (data : Bytes)
  | release

/-- Whether a request is a store. -/
def Medium.Request.stores : Request → Bool
  | .store _ _ => true
  | _ => false

/-- The medium and its site after a request, and whether the request was met. -/
def Medium.serve {M R W : Type} [Medium M R W] (state : M × Site R W) :
    Request → Except DiskError Unit × M × Site R W
  | .fetch offset count =>
    let fetched := Medium.fetch state.1 state.2 offset count
    (fetched.outcome.map fun _ => (), fetched.medium, fetched.site)
  | .store offset data =>
    let stored := Medium.store state.1 state.2 offset data
    (stored.outcome, stored.medium, stored.site)
  | .release => (.ok (), Medium.release state.1 state.2)

namespace InPlace

open Medium (Request serve)

variable {W : Type}

/-- A request lets a medium and its stream reach equally far, or is a store that fails and lets the
stream alone reach farther. -/
theorem serve_reaches (state : InPlace Stream × Site Unit W) {op : Request}
    (hdata : ∀ offset data, op = .store offset data → 0 < data.size) :
    let file := state.1
    let next := (serve state op).2.1
    (∃ reach, next.length = max file.length reach ∧
        next.handle.contents.size = max file.handle.contents.size reach) ∨
      op.stores = true ∧ (serve state op).1 ≠ .ok () ∧ next.length = file.length ∧
        file.handle.contents.size ≤ next.handle.contents.size := by
  obtain ⟨file, site⟩ := state
  cases op with
  | fetch offset count =>
    obtain ⟨hlength, hbytes⟩ := fetch_keeps file site offset count
    refine Or.inl ⟨0, ?_, ?_⟩
    · rw [Nat.max_zero]
      exact hlength
    · rw [Nat.max_zero]
      exact congrArg Array.size hbytes
  | store offset data =>
    obtain ⟨count, hcount, hover, hok, hfailed⟩ := store_overwrites file site offset data
    by_cases houtcome : (Medium.store file site offset data).outcome = .ok ()
    · obtain ⟨rfl, hlength⟩ := hok houtcome
      exact Or.inl ⟨offset + data.size, hlength, hover.size_eq (hdata offset data rfl)⟩
    · exact Or.inr ⟨rfl, houtcome, hfailed houtcome, hover.grown⟩
  | release =>
    obtain ⟨hlength, hbytes⟩ := release_keeps file site
    refine Or.inl ⟨0, ?_, ?_⟩
    · rw [Nat.max_zero]
      exact hlength
    · rw [Nat.max_zero]
      exact congrArg Array.size hbytes

/-- The length with which a medium is opened is that of its stream. -/
theorem length_of_open {s : Stream} {host host' : W} {file : InPlace Stream} {handle : Stream}
    (hopen : open? s host = (.ok file, handle, host')) :
    file.length = file.handle.contents.size := by
  have hend := s.contents_seek s.contents.size
  unfold open? at hopen
  simp only [Backing.stream, Backing.restore] at hopen
  generalize s.seek s.contents.size = sought at hend hopen
  obtain ⟨cause | ⟨⟩, s'⟩ := sought
  · cases hopen
  · have hback := s'.contents_seek 0
    dsimp only at hopen
    generalize s'.seek 0 = returned at hback hopen
    obtain ⟨cause | ⟨⟩, s''⟩ := returned
    · cases hopen
    · cases hopen
      exact congrArg Array.size (hback.trans hend).symm

/-- Whatever becomes of the calls on its stream, a store to a medium in place changes nothing
outside its window, fills what lies between the old end and the window with zeros, and leaves the
first bytes in the window, all of them if it succeeds. After any requests a medium is not longer
than its stream, and as long as its stream if no store has failed. -/
theorem store_keeps_to_window (W : Type) :
    (∀ (file : InPlace Stream) (site : Site Unit W) (offset : Nat) (data : Bytes),
      let before := file.handle.contents
      let stored := Medium.store file site offset data
      let after := stored.medium.handle.contents
      (∀ i < before.size, ¬(offset ≤ i ∧ i < offset + data.size) → after[i]? = before[i]?) ∧
      (∀ i < after.size, before.size ≤ i → i < offset → after[i]? = some 0) ∧
      before.size ≤ after.size ∧ after.size ≤ max before.size (offset + data.size) ∧
      ∃ count ≤ data.size,
        (∀ i < data.size,
          after[offset + i]? = if i < count then data[i]? else before[offset + i]?) ∧
        (stored.outcome = .ok () → count = data.size)) ∧
    ∀ (s : Stream) (host host' : W) (file : InPlace Stream) (handle : Stream),
      open? s host = (.ok file, handle, host') →
      ∀ (site : Site Unit W) (ops : List Request),
        (∀ offset data, .store offset data ∈ ops → 0 < data.size) →
        let last := (Run.final serve (file, site) ops).1
        last.length ≤ last.handle.contents.size ∧
        (Run.Along serve (fun state op => op.stores = true → (serve state op).1 = .ok ())
            (file, site) ops →
          last.length = last.handle.contents.size) := by
  constructor
  · intro file site offset data before stored after
    obtain ⟨count, hcount, hover, hok, -⟩ := store_overwrites file site offset data
    exact ⟨hover.outside, hover.gap, hover.grown, hover.ends, count, hcount, hover.window,
      fun houtcome => (hok houtcome).1⟩
  · intro s host host' file handle hopen site ops hdata
    have hstart := length_of_open hopen
    have hpart {op : Request} (hop : op ∈ ops) :
        ∀ offset data, op = .store offset data → 0 < data.size :=
      fun offset data heq => hdata offset data (heq ▸ hop)
    constructor
    · refine Run.final_induct
        (P := fun state : InPlace Stream × Site Unit W =>
          state.1.length ≤ state.1.handle.contents.size)
        (Nat.le_of_eq hstart) fun state op hop hlength => ?_
      obtain ⟨reach, hnext, hreach⟩ | ⟨_, _, hnext, hgrown⟩ := serve_reaches state (hpart hop)
      · omega
      · omega
    · intro halong
      refine Run.final_of_along
        (P := fun state : InPlace Stream × Site Unit W =>
          state.1.length = state.1.handle.contents.size)
        hstart halong fun state op hop hok hlength => ?_
      obtain ⟨reach, hnext, hreach⟩ | ⟨hstores, hfailed, _⟩ := serve_reaches state (hpart hop)
      · omega
      · exact absurd (hok hstores) hfailed

/-- A store past the end succeeds in three calls, and then another one is torn. -/
theorem store_keeps_to_window_when_torn :
    let s : Stream :=
      { contents := #[1, 2, 3]
        script :=
          { writes := [.limit 1, .interrupt "again", .limit 2, .limit 1, .fail "full"] } }
    let file : InPlace Stream :=
      { handle := { s with calls := { seeks := 2 } }, length := 3 }
    let site : Site Unit Unit := { shared := (), host := () }
    let whole : List Request := [.store 5 #[7, 8, 9], .fetch 0 4, .release]
    let torn := whole ++ [.store 9 #[4, 4]]
    (Run.final serve (file, site) whole).1.length =
        (Run.final serve (file, site) whole).1.handle.contents.size ∧
      (Run.final serve (file, site) torn).1.length ≤
        (Run.final serve (file, site) torn).1.handle.contents.size ∧
      (Run.final serve (file, site) torn).1.length = 8 ∧
      (Run.final serve (file, site) torn).1.handle.contents = #[1, 2, 3, 0, 0, 7, 8, 9, 0, 4] := by
  intro s file site whole torn
  have hopen : open? s () = (.ok file, file.handle, ()) := rfl
  have hwhole : ∀ offset data, .store offset data ∈ whole → 0 < data.size := by
    simp [whole]
  have htorn : ∀ offset data, .store offset data ∈ torn → 0 < data.size := by
    intro offset data hmem
    rcases List.mem_append.mp hmem with hmem | hmem
    · exact hwhole offset data hmem
    · cases List.mem_singleton.mp hmem
      decide
  have hruns := (store_keeps_to_window Unit).2 s () () file file.handle hopen site
  have hok : (serve (file, site) (.store 5 #[7, 8, 9])).1 = .ok () := by
    have hsuccess : (serve (file, site) (.store 5 #[7, 8, 9])).1.isOk = true := by decide +kernel
    revert hsuccess
    cases (serve (file, site) (.store 5 #[7, 8, 9])).1 with
    | ok => exact fun _ => rfl
    | error cause => exact nofun
  refine ⟨(hruns whole hwhole).2 ⟨fun _ => hok, nofun, nofun, trivial⟩, (hruns torn htorn).1,
    ?_, ?_⟩
  · decide +kernel
  · decide +kernel

end InPlace

end HardSector
