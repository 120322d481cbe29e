import HardSector.Bytes
import HardSector.Storage.Error

/-!
# Seekable byte streams

A stream is a growing string of bytes with a position. A script says what becomes of each of the
next calls: it may go through, be cut short, be interrupted or fail; past the end of the script
every call goes through. `readFully` and `writeAll` repeat calls until their work is done, passing
over interruptions.
-/

namespace HardSector

/-- What becomes of one call on a stream. -/
inductive Cue where
  | proceed
  | limit (count : Nat)
  | interrupt (text : String)
  | fail (text : String)
deriving DecidableEq, Repr

/-- How many bytes a cue lets through, none meaning any number, or the error it raises. -/
def Cue.allowance : Cue → Except StorageError (Option Nat)
  | .proceed => .ok none
  | .limit count => .ok (some count)
  | .interrupt text => .error (.interrupted text)
  | .fail text => .error (.fault text)

/-- A byte count cut to an allowance. -/
def Cue.clip (allowance : Option Nat) (count : Nat) : Nat :=
  match allowance with
  | none => count
  | some most => min most count

/-- An allowance only cuts a byte count. -/
theorem Cue.clip_le (allowance : Option Nat) (count : Nat) : clip allowance count ≤ count := by
  cases allowance with
  | none => exact Nat.le_refl _
  | some most => exact Nat.min_le_right _ _

/-- The cues for the calls to come, by kind of call. -/
structure Script where
  seeks : List Cue := []
  reads : List Cue := []
  writes : List Cue := []
  flushes : List Cue := []
deriving DecidableEq, Repr

/-- One script after another. -/
def Script.append (first second : Script) : Script where
  seeks := first.seeks ++ second.seeks
  reads := first.reads ++ second.reads
  writes := first.writes ++ second.writes
  flushes := first.flushes ++ second.flushes

/-- How many calls of each kind a stream has seen. -/
structure CallCount where
  seeks : Nat := 0
  reads : Nat := 0
  writes : Nat := 0
  flushes : Nat := 0
deriving DecidableEq, Repr

/-- A seekable byte stream. No seek may go past `farthest` and no write may start past `reach`,
where there are such bounds. -/
structure Stream where
  contents : Bytes
  position : Nat := 0
  farthest : Option Nat := none
  reach : Option Nat := none
  script : Script := {}
  calls : CallCount := {}
deriving Repr

namespace Stream

/-- What becomes of the next call, and the cues after it. -/
def nextCue : List Cue → Cue × List Cue
  | [] => (.proceed, [])
  | cue :: cues => (cue, cues)

/-- Whether an offset keeps to a bound. -/
def within (bound : Option Nat) (offset : Nat) : Bool :=
  match bound with
  | none => true
  | some most => decide (offset ≤ most)

/-- Move to an offset from the start. -/
def seek (s : Stream) (offset : Nat) : Except StorageError Unit × Stream :=
  let (cue, cues) := nextCue s.script.seeks
  let s := { s with
    script := { s.script with seeks := cues }
    calls := { s.calls with seeks := s.calls.seeks + 1 } }
  match cue.allowance with
  | .error cause => (.error cause, s)
  | .ok _ =>
    if within s.farthest offset then (.ok (), { s with position := offset })
    else (.error .invalidOffset, s)

/-- Deliver at most `count` bytes from the position on. -/
def read (s : Stream) (count : Nat) : Except StorageError Bytes × Stream :=
  let (cue, cues) := nextCue s.script.reads
  let s := { s with
    script := { s.script with reads := cues }
    calls := { s.calls with reads := s.calls.reads + 1 } }
  match cue.allowance with
  | .error cause => (.error cause, s)
  | .ok allowance =>
    let n := Cue.clip allowance (min count (s.contents.size - s.position))
    (.ok (s.contents.extract s.position (s.position + n)), { s with position := s.position + n })

/-- Take at most all of `data` at the position and tell how many bytes were taken. -/
def write (s : Stream) (data : Bytes) : Except StorageError Nat × Stream :=
  let (cue, cues) := nextCue s.script.writes
  let s := { s with
    script := { s.script with writes := cues }
    calls := { s.calls with writes := s.calls.writes + 1 } }
  match cue.allowance with
  | .error cause => (.error cause, s)
  | .ok allowance =>
    if within s.reach s.position then
      let n := Cue.clip allowance data.size
      (.ok n, { s with
        contents := s.contents.splice s.position (data.extract 0 n)
        position := s.position + n })
    else (.error .beyondReach, s)

/-- Make written bytes durable. -/
def flush (s : Stream) : Except StorageError Unit × Stream :=
  let (cue, cues) := nextCue s.script.flushes
  let s := { s with
    script := { s.script with flushes := cues }
    calls := { s.calls with flushes := s.calls.flushes + 1 } }
  match cue.allowance with
  | .error cause => (.error cause, s)
  | .ok _ => (.ok (), s)

/-- What repeated reading brought: the bytes delivered, and how it ended. -/
structure Reading where
  delivered : Bytes
  outcome : Except StorageError Unit
  stream : Stream

/-- Read until `count` bytes are there, a call delivers none or one fails, with at most `fuel`
calls. -/
def readLoop (count : Nat) : Nat → Bytes → Stream → Reading
  | 0, got, s => ⟨got, .ok (), s⟩
  | fuel + 1, got, s =>
    if count ≤ got.size then ⟨got, .ok (), s⟩
    else
      match s.read (count - got.size) with
      | (.ok chunk, s) =>
        if chunk.isEmpty then ⟨got, .ok (), s⟩ else readLoop count fuel (got ++ chunk) s
      | (.error (.interrupted _), s) => readLoop count fuel got s
      | (.error cause, s) => ⟨got, .error cause, s⟩

/-- Read until `count` bytes are there or the stream has no more. Each call uses up a cue or, past
the end of the script, delivers a byte or is the last, which bounds the number of calls. -/
def readFully (s : Stream) (count : Nat) : Reading :=
  readLoop count (s.script.reads.length + count + 1) #[] s

/-- Write until nothing is left of `data` or a call fails, with at most `fuel` calls. A call that
takes no byte is a failure. -/
def writeLoop : Nat → Bytes → Stream → Except StorageError Unit × Stream
  | 0, _, s => (.ok (), s)
  | fuel + 1, data, s =>
    if data.isEmpty then (.ok (), s)
    else
      match s.write data with
      | (.ok n, s) =>
        if n = 0 then (.error .nothingWritten, s)
        else writeLoop fuel (data.extract n data.size) s
      | (.error (.interrupted _), s) => writeLoop fuel data s
      | (.error cause, s) => (.error cause, s)

/-- Write all of `data`. Each call uses up a cue or, past the end of the script, takes all that is
left, which bounds the number of calls. -/
def writeAll (s : Stream) (data : Bytes) : Except StorageError Unit × Stream :=
  writeLoop (s.script.writes.length + data.size + 1) data s

end Stream

end HardSector
