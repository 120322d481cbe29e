import HardSector.Config

/-!
# Command lines

A command line is a row of options, some of which take a value, in any order. It is read in steps:
items by their first characters, letters run together, options with their values, and what the
options ask for. A command line that asks for the version or for help gets it even if the rest is in
error.
-/

namespace HardSector.CommandLine

/-- The options of the command line. -/
inductive Key where
  | configFile
  | baseDir
  | backend
  | poolSize
  | boot
  | createBlank
  | dumpSector
  | mount
  | version
  | help
deriving DecidableEq, Repr

namespace Key

/-- Whether an option takes a value. -/
def takesValue : Key → Bool
  | boot | version | help => false
  | _ => true

/-- The long names of the options. -/
def longNames : List (String × Key) :=
  [("config_file", configFile), ("configfile", configFile),
    ("base_dir", baseDir), ("basedir", baseDir),
    ("backend", backend), ("patch_pool_size", poolSize), ("boot", boot),
    ("create_blank", createBlank), ("dump_sector", dumpSector), ("mount", mount),
    ("version", version), ("help", help)]

/-- The option with a long name. -/
def ofLong? (name : List Char) : Option Key := longNames.lookup (String.ofList name)

/-- The option with a one-letter name. -/
def ofShort? : Char → Option Key
  | 'm' => some mount
  | 'V' => some version
  | 'h' => some help
  | _ => none

end Key

/-- What an argument looks like: an option, perhaps with a value attached, letters run together, a
word, the bare double hyphen, or none of these. -/
inductive Item where
  | option (key : Key) (attached : Option (List Char))
  | joined (letter : Char) (rest : List Char)
  | word (text : List Char)
  | divider
  | stray
deriving DecidableEq, Repr

/-- The item of an option that was looked up by its name, with the value attached to it. -/
def Item.ofKey (key : Option Key) (attached : Option (List Char)) : Item :=
  match key with
  | none => .stray
  | some key => .option key attached

/-- The item of the text behind two hyphens: a long name, perhaps with an equals sign and a value
behind it. -/
def Item.ofLong (text : List Char) : Item :=
  match Text.splitOnce '=' text with
  | none => .ofKey (Key.ofLong? text) none
  | some (name, value) => .ofKey (Key.ofLong? name) (some value)

/-- The item of the text behind a single hyphen: a letter, perhaps with an equals sign and a value.
Where the equals sign stands further on, all that follows the letter is its value. No option has a
letter outside ASCII, and a text that starts with one and has an equals sign is a word. -/
def Item.ofLetters : List Char → Item
  | [] => .stray
  | [letter] => .ofKey (Key.ofShort? letter) none
  | letter :: rest =>
    if !rest.contains '=' then .joined letter rest
    else if 0x80 ≤ letter.toNat then .word ('-' :: letter :: rest)
    else .ofKey (Key.ofShort? letter) (some (if rest.head? = some '=' then rest.tail else rest))

/-- The items of a command line. Behind a bare double hyphen nothing is an option. -/
def items : List (List Char) → List Item
  | [] => []
  | ['-', '-'] :: rest => .divider :: rest.map fun _ => .stray
  | ('-' :: '-' :: name) :: rest => .ofLong name :: items rest
  | ('-' :: letter :: letters) :: rest => .ofLetters (letter :: letters) :: items rest
  | text :: rest => .word text :: items rest

/-- The places that an item takes: a value attached to an option takes one of its own. -/
def Item.places : Item → Nat
  | .option _ (some _) => 2
  | _ => 1

/-- What letters run together stand for: the letter of an option that takes a value, and then the
value. -/
def Item.ofJoined (letter : Char) (rest : List Char) : Item :=
  match Key.ofShort? letter with
  | none => .stray
  | some key => if key.takesValue then .option key (some rest) else .stray

/-- The items with letters run together read as options with their values, where `read` of them have
been read so already. This goes on while at least as many places follow as have been read so. -/
def settle (read : Nat) : List Item → List Item
  | [] => []
  | .joined letter rest :: items =>
    if read ≤ (items.map Item.places).sum then .ofJoined letter rest :: settle (read + 1) items
    else .joined letter rest :: settle read items
  | item :: items => item :: settle read items

/-- What an item contributes: a setting, a switch, or nothing that can be used. -/
inductive Part where
  | setting (key : Key) (value : List Char)
  | switch (key : Key)
  | unusable
deriving DecidableEq, Repr

/-- What an option contributes with a value attached to it or standing behind it. -/
def Key.partsWith (key : Key) (value : List Char) : List Part :=
  if key.takesValue then [.setting key value] else [.switch key, .unusable]

/-- What an option contributes with no value at hand. -/
def Key.part (key : Key) : Part := if key.takesValue then .unusable else .switch key

/-- The parts of a command line. An option that takes a value takes it from the next item, unless
one is attached. -/
def parts : List Item → List Part
  | [] => []
  | .option key (some value) :: rest => key.partsWith value ++ parts rest
  | .option key none :: .word value :: rest => key.partsWith value ++ parts rest
  | .option key none :: rest => key.part :: parts rest
  | .word _ :: rest => .unusable :: parts rest
  | .divider :: rest => parts rest
  | .joined .. :: rest => .unusable :: parts rest
  | .stray :: rest => .unusable :: parts rest

/-- A value for something that has none yet. -/
def once {α : Type} (old new : Option α) : Option (Option α) :=
  match old, new with
  | none, some value => some (some value)
  | _, _ => none

/-- The arguments with a setting added. There are none if the value cannot be read, or if an option
that counts once is given again. -/
def setting (args : Arguments) (key : Key) (value : List Char) : Option Arguments :=
  let text := String.ofList value
  match key with
  | .configFile => (once args.configFile (some text)).map ({ args with configFile := · })
  | .baseDir => (once args.baseDir (some text)).map ({ args with baseDir := · })
  | .backend =>
    (once args.backend (Backend.ofText text).toOption).map ({ args with backend := · })
  | .poolSize =>
    (once args.poolSize (Text.readUnsigned UInt64.size value)).map ({ args with poolSize := · })
  | .createBlank => (once args.createBlank (some text)).map ({ args with createBlank := · })
  | .dumpSector =>
    (once args.dumpSector (SectorAddress.ofText text).toOption).map ({ args with dumpSector := · })
  | .mount =>
    (Mount.ofText text).toOption.map fun mount => { args with mounts := args.mounts ++ [mount] }
  | .boot | .version | .help => none

/-- The arguments with a part added. -/
def add (args : Arguments) : Part → Option Arguments
  | .setting key value => setting args key value
  | .switch .boot => if args.boot then none else some { args with boot := true }
  | .switch _ => none
  | .unusable => none

/-- What a command line asks for. -/
inductive Command where
  | run (args : Arguments)
  | version
  | help
  | refused

/-- The request for the version or for help that comes first. -/
def inquiry? : List Part → Option Command
  | [] => none
  | .switch .version :: _ => some .version
  | .switch .help :: _ => some .help
  | _ :: rest => inquiry? rest

/-- What the parts of a command line ask for. -/
def Command.ofParts (parts : List Part) : Command :=
  match parts.foldlM add {} with
  | some args => .run args
  | none => (inquiry? parts).getD .refused

/-- What a command line asks for. -/
def Command.ofText (args : List String) : Command :=
  .ofParts (parts (settle 0 (items (args.map String.toList))))

end HardSector.CommandLine
