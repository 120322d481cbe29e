import HardSector.CommandLine
import HardSector.Config.Reader
import HardSector.Session

/-!
# The program

The program as a function: from a command line and a file tree to an exit code, what is printed, and
a file tree. The configuration lies in a file, which need not exist unless the command line names
it, and which is parsed by `Config.Reader.parse` unless another parser is given.
-/

namespace HardSector.Program

/-- What a run of the program leaves behind: an answer to a question or the reports of a session, an
error text, and the files. -/
structure Output where
  exit : UInt32
  answer : String := ""
  reports : List Report := []
  err : String := ""
  tree : FileTree

/-- What is printed, with the text of the time that a boot took. -/
def Output.out (output : Output) (elapsed : String) : String :=
  output.answer ++ String.join (output.reports.map (Report.text elapsed))

/-- The exit code of a run that failed. -/
def failureCode : UInt32 := 1

/-- The configuration file unless another is named. -/
def defaultConfigFile : String := "./altairpc.toml"

/-- The version of the program. -/
def versionText : String := "Version: 0.1.0\n"

/-- How the program is used. -/
def usageText : String :=
  "Usage: [--config_file=ARG] [--base_dir=ARG] [--backend=ARG] [--patch_pool_size=ARG] [--boot] " ++
    "[--create_blank=ARG] [--dump_sector=ARG] [-m=mountspec]...\n"

/-- The text of a file. -/
def readText (tree : FileTree) (path : String) : Except StorageError String :=
  match tree.read path with
  | .error cause => .error cause
  | .ok bytes =>
    match String.fromUTF8? ⟨bytes⟩ with
    | none => .error .notText
    | some text => .ok text

/-- The text of the configuration. -/
def configText (tree : FileTree) (named : Option String) : Except StorageError String :=
  match readText tree (named.getD defaultConfigFile), named with
  | .error .notFound, none => .ok ""
  | outcome, _ => outcome

/-- Why the program ended early. -/
inductive Failure where
  | configUnreadable (cause : StorageError)
  | configRefused (cause : ConfigFailure)
  | session (cause : SessionError)
deriving DecidableEq, Repr

/-- The text of a failure. -/
def Failure.message : Failure → String
  | configUnreadable .notFound =>
      "Configuration file not found! Check the path given with --configfile.\n"
  | configUnreadable cause => s!"Unknown IO error reading configuration file:\n{cause.message}\n"
  | configRefused cause =>
      "Failed to parse configuration file. There may be a typo or otherwise invalid toml:\n" ++
        s!"{cause.message}\n"
  | session cause => s!"Error: {cause.message}\n"

/-- The configuration that arguments and files give. -/
def configure (parse : Config.Parser) (tree : FileTree) (args : Arguments) :
    Except Failure Config :=
  match configText tree args.configFile with
  | .error cause => .error (.configUnreadable cause)
  | .ok text => (Config.readWith parse text args).mapError .configRefused

/-- The output of a session. -/
def Output.ofSession (ended : SessionEnd) : Output :=
  match ended.outcome with
  | .ok () => { exit := 0, reports := ended.reports, tree := ended.tree }
  | .error cause =>
    { exit := failureCode
      reports := ended.reports
      err := (Failure.session cause).message
      tree := ended.tree }

/-- Run with arguments. -/
def runWith (parse : Config.Parser) (args : Arguments) (tree : FileTree) : Output :=
  match configure parse tree args with
  | .error failure => { exit := failureCode, err := failure.message, tree := tree }
  | .ok config => .ofSession (Session.run config tree)

/-- Run with a command line. -/
def run (args : List String) (tree : FileTree) (parse : Config.Parser := Config.Reader.parse) :
    Output :=
  match CommandLine.Command.ofText args with
  | .run args => runWith parse args tree
  | .version => { exit := 0, answer := versionText, tree := tree }
  | .help => { exit := 0, answer := usageText, tree := tree }
  | .refused => { exit := failureCode, err := usageText, tree := tree }

/-- The path of the configuration that a run reads. -/
def configPath (args : List String) : Option String :=
  match CommandLine.Command.ofText args with
  | .run args => some (args.configFile.getD defaultConfigFile)
  | _ => none

/-- The paths of the images that a run may read or make. -/
def imagePaths (args : List String) (tree : FileTree)
    (parse : Config.Parser := Config.Reader.parse) : List String :=
  match CommandLine.Command.ofText args with
  | .run args =>
    match configure parse tree args with
    | .error _ => []
    | .ok config =>
      match config.machine.createBlank with
      | some path => [Path.resolve config.machine.baseDir path]
      | none => config.disk.drives.map config.imagePath
  | _ => []

end HardSector.Program
