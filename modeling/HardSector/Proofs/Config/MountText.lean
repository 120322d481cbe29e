import HardSector.Mount
import HardSector.Proofs.Text.Numeral
import HardSector.Proofs.Text.Splitting
import Mathlib.Data.List.Induction

/-!
# The text of a mount request

A mount request names the floppy device, writes the drive as a numeral and gives a path that is not
empty; everything else is refused. Its options are the entries behind the question mark, of which
the last one for a key counts. A request that is written from a drive, a path and options is read
back as what it was written from.
-/

namespace HardSector

/-- The last image with a property is the image of the last element that has it. -/
theorem findRev?_map {α β : Type} (f : α → β) (p : β → Bool) (xs : List α) :
    (xs.map f).findRev? p = (xs.findRev? fun x => p (f x)).map f := by
  rw [List.findRev?_eq_find?_reverse, List.findRev?_eq_find?_reverse, ← List.map_reverse,
    List.find?_map]
  rfl

/-- The last element is found before those that precede it. -/
theorem findRev?_concat {α : Type} (p : α → Bool) (xs : List α) (x : α) :
    (xs ++ [x]).findRev? p = if p x then some x else xs.findRev? p := by
  rw [List.findRev?_eq_find?_reverse, List.findRev?_eq_find?_reverse, List.reverse_concat,
    List.find?_cons]
  cases p x <;> rfl

namespace Mount

/-! ## Options -/

/-- The value that an entry of the options gives: what stands behind its first equals sign, or the
word for true if it has none. -/
def optionValue (entry : List Char) : String :=
  if '=' ∈ entry then String.ofList (Text.behind '=' entry) else "true"

/-- An entry gives its value to the key before its first equals sign. -/
theorem keyValue_eq (entry : List Char) :
    keyValue entry = (String.ofList (Text.before '=' entry), optionValue entry) := by
  unfold keyValue optionValue
  rw [Text.splitOnce_eq]
  by_cases hmem : '=' ∈ entry
  · rw [if_pos hmem, if_pos hmem]
  · rw [if_neg hmem, if_neg hmem, (Text.before_of_not_mem hmem).1]

/-- The value of a key is the one that it was given last. -/
theorem getElem?_optionMap (options : List (String × String)) (key : String) :
    (optionMap options)[key]? = (options.findRev? (·.1 == key)).map Prod.snd := by
  unfold optionMap
  induction options using List.reverseRecOn with
  | nil => rfl
  | append_singleton options option ih =>
    rw [List.foldl_append, List.foldl_cons, List.foldl_nil, Std.TreeMap.getElem?_insert, ih,
      findRev?_concat]
    simp only [Std.LawfulEqCmp.compare_eq_iff_eq, beq_iff_eq]
    split <;> rfl

/-- The options in a text are its entries that are not empty. -/
theorem optionList_eq (cs : List Char) :
    optionList cs = ((cs.splitOn '&').filter fun entry => !entry.isEmpty).map keyValue := by
  rw [optionList, Text.splitAll_eq_splitOn]

/-- The value of a key in a text is that of the last entry for the key. -/
theorem getElem?_optionMap_optionList (cs : List Char) (key : String) :
    (optionMap (optionList cs))[key]? =
      (((cs.splitOn '&').filter fun entry => !entry.isEmpty).findRev? fun entry =>
        Text.before '=' entry == key.toList).map optionValue := by
  have hkey (entry : List Char) :
      (String.ofList (Text.before '=' entry) == key) = (Text.before '=' entry == key.toList) := by
    rw [Bool.eq_iff_iff, beq_iff_eq, beq_iff_eq, ← String.toList_inj, String.toList_ofList]
  rw [getElem?_optionMap, optionList_eq, findRev?_map, Option.map_map]
  simp only [keyValue_eq, hkey, Function.comp_def]

/-! ## Requests -/

/-- A text, without options, asks for a path to be mounted in a drive. -/
def Names (main : List Char) (drive : Nat) (path : String) : Prop :=
  ∃ numeral, main = ['f', 'd', ':'] ++ numeral ++ ':' :: path.toList ∧ ':' ∉ numeral ∧
    Text.Numeral numeral drive ∧ drive < UInt64.size ∧ path ≠ ""

/-- A request is read exactly from the texts that name its drive and path and hold its options. -/
theorem ofChars_eq_ok_iff {cs : List Char} {mount : Mount} :
    ofChars cs = .ok mount ↔
      Names (Text.before '?' cs) mount.drive mount.path ∧
        mount.options = optionMap (optionList (Text.behind '?' cs)) := by
  unfold ofChars
  rw [Text.getD_splitOnce]
  generalize Text.before '?' cs = main, Text.behind '?' cs = options
  dsimp only
  constructor
  · intro hok
    split at hok
    · cases hok
    next device rest hmain =>
    split at hok
    · cases hok
    next numeral path hrest =>
    split at hok
    · cases hok
    next hardware hdevice =>
    split at hok
    · cases hok
    next drive hdrive =>
    split at hok
    · cases hok
    next hpath =>
    cases hok
    obtain ⟨rfl, _⟩ := Text.splitOnce_eq_some_iff.mp hmain
    obtain ⟨rfl, hcolon⟩ := Text.splitOnce_eq_some_iff.mp hrest
    obtain ⟨hnumeral, hbound⟩ := Text.readUnsigned_eq_some_iff.mp hdrive
    obtain ⟨rfl, _⟩ := Option.ite_none_right_eq_some.mp hdevice
    refine ⟨⟨numeral, ?_, hcolon, hnumeral, hbound, ?_⟩, rfl⟩
    · simp
    · simpa using hpath
  · rintro ⟨⟨numeral, rfl, hcolon, hnumeral, hbound, hpath⟩, hoptions⟩
    have hmain : Text.splitOnce ':' (['f', 'd', ':'] ++ numeral ++ ':' :: mount.path.toList) =
        some (['f', 'd'], numeral ++ ':' :: mount.path.toList) :=
      Text.splitOnce_eq_some_iff.mpr ⟨by simp, by decide⟩
    have hrest : Text.splitOnce ':' (numeral ++ ':' :: mount.path.toList) =
        some (numeral, mount.path.toList) :=
      Text.splitOnce_eq_some_iff.mpr ⟨rfl, hcolon⟩
    have hdevice : deviceOfChars? ['f', 'd'] = some mount.device := rfl
    have hdrive := Text.readUnsigned_eq_some_iff.mpr ⟨hnumeral, hbound⟩
    have hnonempty : ¬mount.path.toList.isEmpty := by simpa using hpath
    simp only [hmain, hrest, hdevice, hdrive]
    rw [if_neg hnonempty, String.ofList_toList, ← hoptions]

/-! ## Writing -/

/-- A request that is written from a drive, a path and options. -/
def written (drive : Nat) (path : String) (options : List (String × String)) : String :=
  s!"fd:{drive}:{path}?" ++ "&".intercalate (options.map fun (key, value) => s!"{key}={value}")

/-- The entry that is written for an option. -/
def entry (option : String × String) : List Char := option.1.toList ++ '=' :: option.2.toList

/-- The characters of a written request. -/
theorem toList_written (drive : Nat) (path : String) (options : List (String × String)) :
    (written drive path options).toList =
      (['f', 'd', ':'] ++ Nat.toDigits 10 drive ++ ':' :: path.toList) ++
        '?' :: ['&'].intercalate (options.map entry) := by
  have hentries : (options.map fun (key, value) => s!"{key}={value}").map String.toList =
      options.map entry := by
    rw [List.map_map]
    refine List.map_congr_left fun option _ => ?_
    simp [entry, toString]
  unfold written
  rw [String.toList_append, String.toList_intercalate, hentries]
  simp [toString]

/-- An option is read from the entry that is written for it, if its key holds no equals sign. -/
theorem keyValue_entry {option : String × String} (hkey : '=' ∉ option.1.toList) :
    keyValue (entry option) = option := by
  obtain ⟨hbefore, hbehind⟩ := Text.before_append hkey option.2.toList
  rw [keyValue_eq, optionValue, entry, hbefore, hbehind, if_pos (by simp)]
  simp

/-- Options are read from the entries that are written for them, if no entry holds an ampersand and
no key an equals sign. -/
theorem optionList_written {options : List (String × String)}
    (hoptions : ∀ option ∈ options,
      '&' ∉ option.1.toList ∧ '=' ∉ option.1.toList ∧ '&' ∉ option.2.toList) :
    optionList (['&'].intercalate (options.map entry)) = options := by
  have hpieces : ((['&'].intercalate (options.map entry)).splitOn '&').filter
      (fun piece => !piece.isEmpty) = options.map entry := by
    cases options with
    | nil => rfl
    | cons option rest =>
      rw [List.splitOn_intercalate '&' _ (by simp), List.filter_eq_self]
      · rintro piece hpiece
        obtain ⟨option, _, rfl⟩ := List.mem_map.mp hpiece
        simp [entry]
      · rintro piece hpiece
        obtain ⟨option, hmem, rfl⟩ := List.mem_map.mp hpiece
        obtain ⟨hkey, -, hvalue⟩ := hoptions option hmem
        simp [entry, hkey, hvalue]
  rw [optionList_eq, hpieces, List.map_map]
  exact (List.map_congr_left fun option hmem => keyValue_entry (hoptions option hmem).2.1).trans
    (List.map_id options)

/-- A request that is written is read as the one that it was written from. -/
theorem ofText_written {drive : Nat} {path : String} {options : List (String × String)}
    (hdrive : drive < UInt64.size) (hpath : path ≠ "") (hmark : '?' ∉ path.toList)
    (hoptions : ∀ option ∈ options,
      '&' ∉ option.1.toList ∧ '=' ∉ option.1.toList ∧ '&' ∉ option.2.toList) :
    ofText (written drive path options) = .ok ⟨.floppy, drive, path, optionMap options⟩ := by
  have hnumeral := Text.numeral_toDigits drive
  -- The digits hold neither of the characters at which the request is split.
  have hcolon : ':' ∉ Nat.toDigits 10 drive := fun hmem =>
    absurd (hnumeral.of_mem hmem) (by decide)
  have hmain : '?' ∉ ['f', 'd', ':'] ++ Nat.toDigits 10 drive ++ ':' :: path.toList := by
    have hdigits : '?' ∉ Nat.toDigits 10 drive := fun hmem =>
      absurd (hnumeral.of_mem hmem) (by decide)
    simp [hdigits, hmark]
  obtain ⟨hbefore, hbehind⟩ := Text.before_append hmain (['&'].intercalate (options.map entry))
  rw [ofText, ofChars_eq_ok_iff, toList_written, hbefore, hbehind, optionList_written hoptions]
  exact ⟨⟨_, rfl, hcolon, hnumeral, hdrive, hpath⟩, rfl⟩

/-- A text is read as a request for a drive and a path exactly if what stands before its first
question mark is the device, a numeral below `2 ^ 64` and a path that is not empty, between
colons of which the numeral holds none. A key then has the value of the last entry behind the
question mark whose text before the first equals sign is the key. A written request is read
back, and of options with one key the last counts. -/
theorem ofText_accepts :
    (∀ text : String,
      let main := Text.before '?' text.toList
      let entries := ((Text.behind '?' text.toList).splitOn '&').filter fun entry => !entry.isEmpty
      (∀ drive path, (∃ mount, ofText text = .ok mount ∧ mount.drive = drive ∧ mount.path = path) ↔
        Names main drive path) ∧
      ∀ mount, ofText text = .ok mount → mount.device = .floppy ∧
        ∀ key : String, mount.options[key]? =
          (entries.findRev? fun entry => Text.before '=' entry == key.toList).map optionValue) ∧
    ∀ (drive : Nat) (path : String) (options : List (String × String)),
      drive < UInt64.size → path ≠ "" → '?' ∉ path.toList →
      (∀ option ∈ options,
        '&' ∉ option.1.toList ∧ '=' ∉ option.1.toList ∧ '&' ∉ option.2.toList) →
      ∃ mount, ofText (written drive path options) = .ok mount ∧ mount.device = .floppy ∧
        mount.drive = drive ∧ mount.path = path ∧
        ∀ key : String, mount.options[key]? = (options.findRev? (·.1 == key)).map Prod.snd := by
  refine ⟨fun text => ⟨fun drive path => ⟨?_, fun hnames => ?_⟩, fun mount hmount => ⟨rfl, ?_⟩⟩,
    fun drive path options hdrive hpath hmark hoptions =>
      ⟨_, ofText_written hdrive hpath hmark hoptions, rfl, rfl, rfl, getElem?_optionMap options⟩⟩
  · rintro ⟨mount, hmount, rfl, rfl⟩
    exact (ofChars_eq_ok_iff.mp hmount).1
  · exact ⟨⟨.floppy, drive, path, _⟩, ofChars_eq_ok_iff.mpr ⟨hnames, rfl⟩, rfl, rfl⟩
  · intro key
    rw [(ofChars_eq_ok_iff.mp hmount).2, getElem?_optionMap_optionList]

/-- A path keeps its colon, a value its equals sign and its question mark, and the later of two
values counts. -/
theorem ofText_accepts_separators :
    let options := [("create", "no"), ("label", "a=b?"), ("create", "yes")]
    let text := "fd:3:C:a.dsk?create=no&label=a=b?&create=yes"
    3 < UInt64.size ∧ "C:a.dsk" ≠ "" ∧ '?' ∉ "C:a.dsk".toList ∧
      (∀ option ∈ options,
        '&' ∉ option.1.toList ∧ '=' ∉ option.1.toList ∧ '&' ∉ option.2.toList) ∧
      Names (Text.before '?' text.toList) 3 "C:a.dsk" ∧
      ∃ mount, ofText text = .ok mount ∧ mount.device = .floppy ∧
        mount.options["create"]? = some "yes" ∧ mount.options["label"]? = some "a=b?" ∧
        mount.options["size"]? = none := by
  intro options text
  have hdrive : 3 < UInt64.size := by decide
  have hpath : "C:a.dsk" ≠ "" := by decide
  have hmark : '?' ∉ "C:a.dsk".toList := by decide
  have hoptions : ∀ option ∈ options,
      '&' ∉ option.1.toList ∧ '=' ∉ option.1.toList ∧ '&' ∉ option.2.toList := by decide
  have hwritten : written 3 "C:a.dsk" options = text := by decide +kernel
  obtain ⟨hread, hback⟩ := ofText_accepts
  obtain ⟨mount, hmount, -, hthird, hnamed, hvalues⟩ :=
    hback 3 _ options hdrive hpath hmark hoptions
  rw [hwritten] at hmount
  obtain ⟨hnames, hrest⟩ := hread text
  exact ⟨hdrive, hpath, hmark, hoptions, (hnames _ _).mp ⟨mount, hmount, hthird, hnamed⟩,
    mount, hmount, (hrest mount hmount).1, hvalues "create", hvalues "label", hvalues "size"⟩

end Mount

end HardSector
