import HardSector.Boot
import HardSector.Bus
import HardSector.Bus.Traffic
import HardSector.Bytes
import HardSector.CommandLine
import HardSector.Config
import HardSector.Config.Reader
import HardSector.Controller
import HardSector.Decimal
import HardSector.Device
import HardSector.Drive
import HardSector.Duration
import HardSector.Geometry
import HardSector.HexDump
import HardSector.IoSpace
import HardSector.LoaderRom
import HardSector.Main
import HardSector.Medium
import HardSector.Medium.Blank
import HardSector.Medium.CopyOnWrite
import HardSector.Medium.InPlace
import HardSector.Mount
import HardSector.Notice
import HardSector.Patch.Pool
import HardSector.Program
import HardSector.Proofs.Boot.Fetch
import HardSector.Proofs.Boot.Finding
import HardSector.Proofs.Boot.Loader
import HardSector.Proofs.Boot.Logged
import HardSector.Proofs.Boot.Processor
import HardSector.Proofs.Boot.Steps
import HardSector.Proofs.Bus.Access
import HardSector.Proofs.Bus.Operation
import HardSector.Proofs.Bus.Removal
import HardSector.Proofs.Bus.Reporting
import HardSector.Proofs.Bus.Routing
import HardSector.Proofs.Bus.Traffic
import HardSector.Proofs.Config.AddressText
import HardSector.Proofs.Config.MountText
import HardSector.Proofs.Config.Overlay
import HardSector.Proofs.Controller.Accounts
import HardSector.Proofs.Controller.Agreement
import HardSector.Proofs.Controller.DriveState
import HardSector.Proofs.Controller.FailedFetch
import HardSector.Proofs.Controller.Heading
import HardSector.Proofs.Controller.Isolation
import HardSector.Proofs.Controller.Keeping
import HardSector.Proofs.Controller.LastWrite
import HardSector.Proofs.Controller.Lockstep
import HardSector.Proofs.Controller.Occupant
import HardSector.Proofs.Controller.Operation
import HardSector.Proofs.Controller.Origin
import HardSector.Proofs.Controller.Panel
import HardSector.Proofs.Controller.Pending
import HardSector.Proofs.Controller.Positioning
import HardSector.Proofs.Controller.Quiet
import HardSector.Proofs.Controller.Received
import HardSector.Proofs.Controller.Recorded
import HardSector.Proofs.Controller.Slots
import HardSector.Proofs.Controller.Sound
import HardSector.Proofs.Controller.Steady
import HardSector.Proofs.Controller.Streaming
import HardSector.Proofs.Controller.TrackZero
import HardSector.Proofs.Controller.Transfer
import HardSector.Proofs.Controller.WholeSector
import HardSector.Proofs.Controller.WriteLine
import HardSector.Proofs.Drive.Head
import HardSector.Proofs.Drive.Lines
import HardSector.Proofs.Drive.Motion
import HardSector.Proofs.Drive.Moves
import HardSector.Proofs.Drive.Panel
import HardSector.Proofs.Drive.Sound
import HardSector.Proofs.Drive.Writing
import HardSector.Proofs.Medium.Conserving
import HardSector.Proofs.Medium.CopyOnWrite
import HardSector.Proofs.Medium.Delivery
import HardSector.Proofs.Medium.InPlace
import HardSector.Proofs.Medium.Legible
import HardSector.Proofs.Medium.Recorded
import HardSector.Proofs.Medium.Sectored
import HardSector.Proofs.Medium.Window
import HardSector.Proofs.Patch.Arena
import HardSector.Proofs.Patch.Chain
import HardSector.Proofs.Patch.Claiming
import HardSector.Proofs.Patch.Clearing
import HardSector.Proofs.Patch.Effect
import HardSector.Proofs.Patch.Maps
import HardSector.Proofs.Patch.Reports
import HardSector.Proofs.Patch.Walking
import HardSector.Proofs.Run
import HardSector.Proofs.Session.Assembly
import HardSector.Proofs.Session.Booting
import HardSector.Proofs.Session.Idle
import HardSector.Proofs.Session.Images
import HardSector.Proofs.Session.MissingDrives
import HardSector.Proofs.Session.Mounting
import HardSector.Proofs.Storage.Calls
import HardSector.Proofs.Storage.Cooperative
import HardSector.Proofs.Storage.Growth
import HardSector.Proofs.Storage.Reading
import HardSector.Proofs.Storage.Writing
import HardSector.Proofs.Text.HexDump
import HardSector.Proofs.Text.Numeral
import HardSector.Proofs.Text.Splitting
import HardSector.Proofs.Text.Trimming
import HardSector.Register.Control
import HardSector.Register.Position
import HardSector.Register.Status
import HardSector.SectorAddress
import HardSector.SenseSwitches
import HardSector.Session
import HardSector.Size
import HardSector.Storage.Error
import HardSector.Storage.FileTree
import HardSector.Storage.Path
import HardSector.Storage.Stream
import HardSector.Text.Blank
import HardSector.Text.Hex
import HardSector.Text.Split
import HardSector.Text.Unsigned
import HardSector.Toml.Document
import HardSector.Toml.Lexical
import HardSector.Toml.Node
import HardSector.Toml.Scalar
