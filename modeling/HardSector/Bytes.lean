/-!
# Byte arrays

A byte array is written at an offset by splicing: bytes before the offset stay, a gap between the
old end and the offset is filled with zeros, and bytes after the written window stay.
-/

namespace HardSector

/-- A string of bytes of any length. -/
abbrev Bytes := Array UInt8

namespace Bytes

/-- `count` zero bytes. -/
def zeros (count : Nat) : Bytes := Array.replicate count 0

/-- `bytes` with `window` written at offset `start`; a gap before it is filled with zeros. -/
def splice (bytes : Bytes) (start : Nat) (window : Bytes) : Bytes :=
  bytes.extract 0 start ++ zeros (start - bytes.size) ++ window ++
    bytes.extract (start + window.size) bytes.size

/-- A splice is as long as the old bytes, or reaches to the end of the window if that is longer. -/
@[simp] theorem size_splice (bytes : Bytes) (start : Nat) (window : Bytes) :
    (bytes.splice start window).size = max bytes.size (start + window.size) := by
  simp only [splice, zeros, Array.size_append, Array.size_extract, Array.size_replicate]
  omega

/-- What a splice holds at each offset. -/
theorem getElem?_splice (bytes : Bytes) (start : Nat) (window : Bytes) (i : Nat) :
    (bytes.splice start window)[i]? =
      if start ≤ i ∧ i < start + window.size then window[i - start]?
      else if bytes.size ≤ i ∧ i < start then some 0
      else bytes[i]? := by
  simp only [splice, zeros, Array.getElem?_append, Array.size_append, Array.size_extract,
    Array.size_replicate, Array.getElem?_extract, Array.getElem?_replicate]
  grind

/-- What a splice holds at each offset, reading zero past the end. -/
theorem getD_splice (bytes : Bytes) (start : Nat) (window : Bytes) (i : Nat) :
    (bytes.splice start window).getD i 0 =
      if start ≤ i ∧ i < start + window.size then window.getD (i - start) 0
      else bytes.getD i 0 := by
  simp only [Array.getD_eq_getD_getElem?, getElem?_splice]
  split
  · rfl
  · split
    · next hgap =>
      rw [Array.getElem?_eq_none hgap.1]
      rfl
    · rfl

/-- Two windows spliced one behind the other are one. -/
theorem splice_splice (bytes : Bytes) (start : Nat) (first second : Bytes) :
    (bytes.splice start first).splice (start + first.size) second =
      bytes.splice start (first ++ second) := by
  apply Array.ext_getElem?
  intro i
  rw [getElem?_splice, getElem?_splice, getElem?_splice, size_splice, Array.size_append,
    Array.getElem?_append]
  -- The first splice reaches to where the second one starts, so no gap is filled any more.
  have hgap : ¬(max bytes.size (start + first.size) ≤ i ∧ i < start + first.size) := by omega
  rw [if_neg hgap]
  by_cases hlow : start ≤ i ∧ i < start + first.size
  · rw [if_neg (by omega), if_pos hlow, if_pos (by omega), if_pos (by omega)]
  · by_cases hhigh : start + first.size ≤ i ∧ i < start + first.size + second.size
    · rw [if_pos hhigh, if_pos (by omega), if_neg (by omega), Nat.sub_add_eq]
    · have hout : ¬(start ≤ i ∧ i < start + (first.size + second.size)) := by omega
      rw [if_neg hhigh, if_neg hlow, if_neg hout]

/-- What a piece holds at each offset, reading zero past the end. -/
theorem getD_extract (bytes : Bytes) (start stop i : Nat) :
    (bytes.extract start stop).getD i 0 =
      if i < min stop bytes.size - start then bytes.getD (start + i) 0 else 0 := by
  simp only [Array.getD_eq_getD_getElem?, Array.getElem?_extract]
  split <;> rfl

/-- A piece and the piece behind it are one. -/
theorem extract_append (bytes : Bytes) (start count n : Nat) :
    bytes.extract start (start + count) ++ bytes.extract (start + count) (start + count + n) =
      bytes.extract start (start + (count + n)) := by
  have hmin : min start (start + count) = start := by omega
  have hmax : max (start + count) (start + count + n) = start + (count + n) := by omega
  rw [Array.extract_append_extract, hmin, hmax]

/-- The `count` bytes from `start` on, with zeros past the end. -/
def padded (bytes : Bytes) (start count : Nat) : Vector UInt8 count :=
  Vector.ofFn fun i => bytes.getD (start + i) 0

@[simp] theorem getElem_padded (bytes : Bytes) (start count i : Nat) (hi : i < count) :
    (bytes.padded start count)[i] = bytes.getD (start + i) 0 := by
  simp [padded]

end Bytes

end HardSector
