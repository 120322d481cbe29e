import HardSector.Text.Split
import HardSector.Text.Unsigned
import Std.Data.TreeMap

/-!
# Mount requests

A mount request names a device, a drive and an image, and may carry options: the first three are
separated by colons, of which the path keeps its own, and the options follow a question mark as keys
and values. Of options with one key the last counts.
-/

namespace HardSector

/-- The kinds of device that can be mounted. -/
inductive MountDevice where
  | floppy
deriving DecidableEq, Repr

/-- A request to put an image into a drive. -/
structure Mount where
  device : MountDevice
  drive : Nat
  path : String
  options : Std.TreeMap String String := ∅

namespace Mount

/-- Why a text is no mount request. -/
inductive Failure where
  | noDrive
  | noPath
  | unknownDevice (text : String)
  | badDrive (text : String)
deriving DecidableEq, Repr

/-- The text of a failure. -/
def Failure.message : Failure → String
  | noDrive => "Missing drive number"
  | noPath => "Missing file path"
  | unknownDevice text => s!"Unknown device type: {text}"
  | badDrive text => s!"Invalid drive number: {text}"

/-- The key and the value of an option. An option without an equals sign is true. -/
def keyValue (option : List Char) : String × String :=
  match Text.splitOnce '=' option with
  | none => (String.ofList option, "true")
  | some (key, value) => (String.ofList key, String.ofList value)

/-- The options in a text, in which they are separated by ampersands; empty ones are passed over. -/
def optionList (cs : List Char) : List (String × String) :=
  ((Text.splitAll '&' cs).filter fun option => !option.isEmpty).map keyValue

/-- Options by key. -/
def optionMap (options : List (String × String)) : Std.TreeMap String String :=
  options.foldl (fun map (key, value) => map.insert key value) ∅

/-- The device that a text names. -/
def deviceOfChars? (cs : List Char) : Option MountDevice :=
  if cs = ['f', 'd'] then some .floppy else none

/-- The mount request that a list of characters denotes. Of several faults, missing parts come
first, then the device, the drive and the path. -/
def ofChars (cs : List Char) : Except Failure Mount :=
  let (main, options) := (Text.splitOnce '?' cs).getD (cs, [])
  match Text.splitOnce ':' main with
  | none => .error .noDrive
  | some (device, rest) =>
    match Text.splitOnce ':' rest with
    | none => .error .noPath
    | some (drive, path) =>
      match deviceOfChars? device with
      | none => .error (.unknownDevice (String.ofList device))
      | some device =>
        match Text.readUnsigned UInt64.size drive with
        | none => .error (.badDrive (String.ofList drive))
        | some drive =>
          if path.isEmpty then .error .noPath
          else .ok ⟨device, drive, String.ofList path, optionMap (optionList options)⟩

/-- The mount request that a text denotes. -/
def ofText (text : String) : Except Failure Mount := ofChars text.toList

/-- Whether an option is present and not denied. -/
def flag (mount : Mount) (key : String) : Bool :=
  match mount.options[key]? with
  | none => false
  | some value => decide (value ∉ ["false", "0", "no"])

end Mount

end HardSector
