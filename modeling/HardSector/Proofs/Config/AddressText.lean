import HardSector.Proofs.Text.Splitting
import HardSector.Proofs.Text.Trimming
import HardSector.SectorAddress

/-!
# The text of a sector address

A sector address is two numerals with a colon between them, and blanks around either numeral; the
numerals are read by their value, however long they are, and the value must lie on the disk.
Everything else is refused. An address that was read is read back from its own text.
-/

namespace HardSector.SectorAddress

/-! ## The grammar -/

/-- A text writes a track and a sector of the disk: it has a numeral between blanks on either side
of its first colon. -/
def Writes (cs : List Char) (track sector : Nat) : Prop :=
  ∃ left right, cs = left ++ ':' :: right ∧ ':' ∉ left ∧ Text.PaddedNumeral left track ∧
    Text.PaddedNumeral right sector ∧ track ≤ 76 ∧ sector ≤ 31

/-- A side of an address that writes no byte: nothing but blanks, a sign alone, or a number that is
too great. -/
def WritesNoByte (side : List Char) : Prop :=
  Text.trim side = [] ∨ Text.trim side = ['+'] ∨ ∃ n, Text.PaddedNumeral side n ∧ 255 < n

/-- A numeral between blanks holds no colon. -/
theorem colon_not_mem_of_padded {side : List Char} {n : Nat} (hside : Text.PaddedNumeral side n) :
    ':' ∉ side := by
  obtain ⟨left, numeral, right, rfl, hleft, hright, hnumeral⟩ := hside
  have hblanks {blanks : List Char} (hblanks : Text.Blanks blanks) : ':' ∉ blanks := fun hmem =>
    absurd (hblanks _ hmem) (by decide)
  have hdigits : ':' ∉ numeral := fun hmem => absurd (hnumeral.of_mem hmem) (by decide)
  simp [hblanks hleft, hblanks hright, hdigits]

/-- A number that stands where no byte is written is too great. -/
theorem lt_of_writesNoByte {side : List Char} {n : Nat} (hside : WritesNoByte side)
    (hpadded : Text.PaddedNumeral side n) : 255 < n := by
  have hnumeral := Text.numeral_trim_iff.mpr hpadded
  rcases hside with hempty | hsign | ⟨m, hgreat, hm⟩
  · exact absurd hempty hnumeral.ne_nil
  · rw [hsign] at hnumeral
    obtain ⟨digits, rfl | hdigits, hne, hall, _⟩ := hnumeral
    · exact absurd (hall '+' List.mem_cons_self) (by decide)
    · cases hdigits
      exact absurd rfl hne
  · rwa [hnumeral.value_inj (Text.numeral_trim_iff.mpr hgreat)]

/-- A text does not write an address if there is a second colon, or no byte on one of the sides. -/
theorem not_writes {left right : List Char} (hleft : ':' ∉ left)
    (hspoilt : ':' ∈ right ∨ WritesNoByte left ∨ WritesNoByte right) (track sector : Nat) :
    ¬Writes (left ++ ':' :: right) track sector := by
  rintro ⟨left', right', hcs, hleft', htrack, hsector, hlow, hhigh⟩
  have hsplit : Text.splitOnce ':' (left ++ ':' :: right) = some (left, right) :=
    Text.splitOnce_eq_some_iff.mpr ⟨rfl, hleft⟩
  cases hsplit.symm.trans (Text.splitOnce_eq_some_iff.mpr ⟨hcs, hleft'⟩)
  rcases hspoilt with hcolon | hside | hside
  · exact colon_not_mem_of_padded hsector hcolon
  · have hgreat := lt_of_writesNoByte hside htrack
    omega
  · have hgreat := lt_of_writesNoByte hside hsector
    omega

/-! ## Reading -/

/-- A byte is read exactly from a numeral between blanks whose value is not too great. -/
theorem readByte_eq_some_iff {side : List Char} {n : Nat} :
    readByte side = some n ↔ Text.PaddedNumeral side n ∧ n < 256 := by
  rw [readByte, Text.readUnsigned_eq_some_iff, Text.numeral_trim_iff]

/-- The tracks and sectors of the disk. -/
theorem contains_iff {track sector : Nat} :
    Geometry.eightInch.contains track sector = true ↔ track ≤ 76 ∧ sector ≤ 31 := by
  rw [Geometry.contains, Bool.and_eq_true, decide_eq_true_eq, decide_eq_true_eq,
    Geometry.eightInch_tracks, Geometry.eightInch_sectors, Nat.lt_succ_iff, Nat.lt_succ_iff]

/-- An address is read exactly from the texts that write it. -/
theorem ofChars_eq_ok_iff {cs : List Char} {address : SectorAddress} :
    ofChars cs = .ok address ↔ Writes cs address.track.toNat address.sector.toNat := by
  unfold ofChars
  constructor
  · intro hok
    split at hok
    · cases hok
    next left right hsplit =>
    split at hok
    · cases hok
    next track htrack =>
    split at hok
    · cases hok
    next sector hsector =>
    split at hok
    next hdisk =>
      cases hok
      obtain ⟨rfl, hcolon⟩ := Text.splitOnce_eq_some_iff.mp hsplit
      obtain ⟨hleft, hlow⟩ := readByte_eq_some_iff.mp htrack
      obtain ⟨hright, hhigh⟩ := readByte_eq_some_iff.mp hsector
      rw [UInt8.toNat_ofNat_of_lt' hlow, UInt8.toNat_ofNat_of_lt' hhigh]
      exact ⟨left, right, rfl, hcolon, hleft, hright, contains_iff.mp hdisk⟩
    · cases hok
  · rintro ⟨left, right, rfl, hcolon, hleft, hright, hdisk⟩
    have hsplit : Text.splitOnce ':' (left ++ ':' :: right) = some (left, right) :=
      Text.splitOnce_eq_some_iff.mpr ⟨rfl, hcolon⟩
    have htrack := readByte_eq_some_iff.mpr ⟨hleft, address.track.toNat_lt⟩
    have hsector := readByte_eq_some_iff.mpr ⟨hright, address.sector.toNat_lt⟩
    simp only [hsplit, htrack, hsector]
    rw [if_pos (contains_iff.mpr hdisk), UInt8.ofNat_toNat, UInt8.ofNat_toNat]

/-- A text that writes no address is refused. -/
theorem refused_of_not_writes {text : String}
    (hnone : ∀ track sector, ¬Writes text.toList track sector) :
    ∃ failure, ofText text = .error failure := by
  cases hread : ofText text with
  | error failure => exact ⟨failure, rfl⟩
  | ok address => exact absurd (ofChars_eq_ok_iff.mp hread) (hnone _ _)

/-! ## Writing -/

/-- The characters of a written address. -/
theorem toList_text (address : SectorAddress) :
    address.text.toList =
      Nat.toDigits 10 address.track.toNat ++ ':' :: Nat.toDigits 10 address.sector.toNat := by
  simp [text, toString]

/-- A number that is written without blanks. -/
theorem padded_toDigits (n : Nat) : Text.PaddedNumeral (Nat.toDigits 10 n) n :=
  ⟨[], Nat.toDigits 10 n, [], by simp, nofun, nofun, Text.numeral_toDigits n⟩

/-- The text of an address that lies on the disk writes it. -/
theorem writes_text {address : SectorAddress} (htrack : address.track.toNat ≤ 76)
    (hsector : address.sector.toNat ≤ 31) :
    Writes address.text.toList address.track.toNat address.sector.toNat :=
  ⟨_, _, address.toList_text, colon_not_mem_of_padded (padded_toDigits _), padded_toDigits _,
    padded_toDigits _, htrack, hsector⟩

/-- A text is read as an address exactly if it has a colon and, on either side of the first one, a
numeral between blanks, the first with a value of at most 76 and the second of at most 31. All
other texts are refused, among them those with a second colon, with nothing or a sign alone on one
side, or with a number above 255, and an address that was read is read back from its text. -/
theorem ofText_accepts_two_numerals :
    (∀ (text : String) (address : SectorAddress),
      ofText text = .ok address ↔
        Writes text.toList address.track.toNat address.sector.toNat) ∧
    (∀ text : String, (∀ track sector, ¬Writes text.toList track sector) →
      ∃ failure, ofText text = .error failure) ∧
    (∀ left right : List Char, ':' ∉ left →
      ':' ∈ right ∨ WritesNoByte left ∨ WritesNoByte right →
      ∃ failure, ofText (String.ofList (left ++ ':' :: right)) = .error failure) ∧
    ∀ (text : String) (address : SectorAddress), ofText text = .ok address →
      ofText address.text = .ok address := by
  refine ⟨fun text address => ofChars_eq_ok_iff, fun text => refused_of_not_writes,
    fun left right hleft hspoilt => refused_of_not_writes fun track sector => ?_,
    fun text address hread => ?_⟩
  · rw [String.toList_ofList]
    exact not_writes hleft hspoilt track sector
  · obtain ⟨_, _, _, _, _, _, htrack, hsector⟩ := ofChars_eq_ok_iff.mp hread
    exact ofChars_eq_ok_iff.mpr (writes_text htrack hsector)

/-- Leading zeros and blanks of all kinds do not matter, and a number is refused that would lie on
the disk if it were counted round. -/
theorem ofText_accepts_padding_and_refuses_wrapping :
    let text := "\u2003+00000000076\t: 031\u00a0"
    let great := "18446744073709551692"
    Writes text.toList 76 31 ∧ ofText text = .ok ⟨76, 31⟩ ∧
      ofText (SectorAddress.text ⟨76, 31⟩) = .ok ⟨76, 31⟩ ∧
      (∀ track sector, ¬Writes "76:31:0".toList track sector) ∧
      (∃ failure, ofText "76:31:0" = .error failure) ∧
      18446744073709551692 % 256 = 76 ∧ ':' ∉ great.toList ∧ WritesNoByte great.toList ∧
      ∃ failure, ofText (great ++ ":0") = .error failure := by
  intro text great
  have hwrites : Writes text.toList 76 31 := by
    refine ⟨"\u2003+00000000076\t".toList, " 031\u00a0".toList, by decide +kernel,
      by decide +kernel,
      ⟨['\u2003'], "+00000000076".toList, ['\t'], by decide +kernel, by decide, by decide, ?_⟩,
      ⟨[' '], "031".toList, ['\u00a0'], by decide +kernel, by decide, by decide, ?_⟩,
      by decide, by decide⟩
    · have hread : Text.readUnsigned 256 "+00000000076".toList = some 76 := by decide +kernel
      exact (Text.readUnsigned_eq_some_iff.mp hread).1
    · have hread : Text.readUnsigned 256 "031".toList = some 31 := by decide +kernel
      exact (Text.readUnsigned_eq_some_iff.mp hread).1
  have hcolons : ∀ track sector, ¬Writes "76:31:0".toList track sector := by
    have hsplit : "76:31:0".toList = "76".toList ++ ':' :: "31:0".toList := by decide +kernel
    intro track sector
    rw [hsplit]
    exact not_writes (by decide +kernel) (.inl (by decide +kernel)) track sector
  have hcolon : ':' ∉ great.toList := by decide +kernel
  have hgreat : WritesNoByte great.toList := by
    refine .inr (.inr ⟨18446744073709551692, ⟨[], great.toList, [], by simp, nofun, nofun, ?_⟩,
      by decide⟩)
    have hread : Text.readUnsigned (2 ^ 65) great.toList = some 18446744073709551692 := by
      decide +kernel
    exact (Text.readUnsigned_eq_some_iff.mp hread).1
  obtain ⟨hread, hrefused, hspoilt, hback⟩ := ofText_accepts_two_numerals
  have haddress := (hread text ⟨76, 31⟩).mpr hwrites
  have hwrap := hspoilt great.toList ['0'] hcolon (.inr (.inl hgreat))
  have hsame : String.ofList (great.toList ++ ':' :: ['0']) = great ++ ":0" := by decide +kernel
  rw [hsame] at hwrap
  exact ⟨hwrites, haddress, hback text _ haddress, hcolons, hrefused _ hcolons, by decide, hcolon,
    hgreat, hwrap⟩

end HardSector.SectorAddress
