import HardSector.Config
import HardSector.Toml.Document

/-!
# A parser of configurations

The command parses its configuration as a TOML document. The entries of a document are taken as
settings by name. Names that are not known are passed over, missing settings have defaults, and a
value of the wrong kind or out of range is an error. A group of settings may also be given as an
array, in order and without names.

This parser and the documents under it only make the command run. Nothing is proved about them, and
no theorem depends on which texts they take.
-/

namespace HardSector

open Toml

namespace Config.Reader

/-- The settings of a group: by name, or in order. -/
inductive Group where
  | named (entries : Entries)
  | ordered (items : List Node)

/-- The group that a value gives. A moment gives an empty one. -/
def group : Node → Option Group
  | .table _ entries => some (.named entries)
  | .moment => some (.named [])
  | .array items => some (.ordered items)
  | .tables elements => some (.ordered (elements.map fun entries => .table .header entries))
  | _ => none

/-- A setting of a group, by its name and its place, read by a function; the group may lack it. -/
def Group.setting? {α : Type} (g : Group) (name : String) (place : Nat) (read : Node → Option α) :
    Option (Option α) :=
  let node :=
    match g with
    | .named entries => entries.lookup name
    | .ordered items => items[place]?
  match node with
  | none => some none
  | some node => (read node).map some

/-- A setting with a default. -/
def Group.setting {α : Type} (g : Group) (name : String) (place : Nat) (read : Node → Option α)
    (otherwise : α) : Option α :=
  (g.setting? name place read).map fun value => value.getD otherwise

/-- A setting that must be there. -/
def Group.required {α : Type} (g : Group) (name : String) (place : Nat) (read : Node → Option α) :
    Option α :=
  (g.setting? name place read).bind id

/-- A text. -/
def text : Node → Option String
  | .text value => some value
  | _ => none

/-- A truth value. -/
def boolean : Node → Option Bool
  | .boolean value => some value
  | _ => none

/-- A number below a bound. -/
def below (bound : Nat) : Node → Option Nat
  | .integer (.ofNat value) => if value < bound then some value else none
  | _ => none

/-- The items of an array of either kind. -/
def items : Node → Option (List Node)
  | .array items => some items
  | .tables elements => some (elements.map fun entries => .table .header entries)
  | _ => none

/-- Whether a value is a container without contents. -/
def isEmptyContainer : Node → Bool
  | .array items => items.isEmpty
  | .tables elements => elements.isEmpty
  | .table _ entries => entries.isEmpty
  | _ => false

/-- A backend: its name, or a table whose only key is the name, with an empty container. -/
def backend : Node → Option Backend
  | .text value => Backend.ofName? value
  | .table _ [(name, node)] => if isEmptyContainer node then Backend.ofName? name else none
  | _ => none

/-- The entry of a drive. -/
def driveEntry (node : Node) : Option DriveEntry := do
  let g ← group node
  let drive ← g.required "drive" 0 (below UInt64.size)
  let filename ← g.required "filename" 1 text
  let create ← g.setting "create" 2 boolean false
  some ⟨drive, filename, create⟩

/-- The entries of the drives. -/
def driveEntries (node : Node) : Option (List DriveEntry) :=
  (items node).bind fun items => items.mapM driveEntry

/-- The settings of the machine. -/
def machine (node : Node) : Option MachineSettings := do
  let g ← group node
  let baseDir ← g.setting "basedir" 0 text "."
  let boot ← g.setting "boot" 1 boolean false
  some { baseDir := baseDir, boot := boot }

/-- The settings of the disk system. A group in order must give all of them. -/
def disk (node : Node) : Option DiskSettings := do
  let g ← group node
  let backend ← g.setting "backend" 0 backend .copyOnWrite
  let poolSize ← g.setting "patch_pool_size" 1 (below UInt64.size) PatchPool.defaultCapacity
  let base ← g.setting "io_base" 2 (below UInt16.size) Controller.defaultBase.toNat
  let switches ← g.setting "sense_switches" 3 (below UInt8.size) 0
  let listed ←
    match g with
    | .named _ => g.setting? "drive" 4 driveEntries
    | .ordered _ => (g.required "drive" 4 driveEntries).map some
  some ⟨backend, poolSize, UInt16.ofNat base, UInt8.ofNat switches, listed⟩

/-- The configuration that the entries of a document give. -/
def config (entries : Entries) : Option Config := do
  let g := Group.named entries
  let machine ← g.setting "emulator" 0 machine {}
  let disk ← g.setting "disk" 1 disk {}
  some ⟨machine, disk⟩

/-- Parse the text of a configuration. -/
def parse : Parser := fun text =>
  match Toml.Document.read text with
  | none => .error "TOML parse error: the document is malformed"
  | some entries =>
    match config entries with
    | none => .error "TOML parse error: a setting is missing or has the wrong type"
    | some config => .ok config

end Config.Reader

/-- The configuration that a document gives with arguments laid over it, if it can be carried
out. -/
def Config.read (text : String) (args : Arguments) : Except ConfigFailure Config :=
  Config.readWith Config.Reader.parse text args

end HardSector
