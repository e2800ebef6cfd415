import VBox.Lib.Codec
import VBox.Lib.Read
import VBox.Lib.Mealy
import VBox.Lib.Slices
import VBox.Lib.Raster
import VBox.Proto.Message
import VBox.Proto.Wire
import VBox.Proto.Framing
import VBox.Session.TcpReader
import VBox.DataPlane.FrameReaders
import VBox.DataPlane.Datagram
import VBox.DataPlane.Assembler
import VBox.DataPlane.Reassembly
import VBox.DataPlane.Interleaving
import VBox.Viewer.Frame
import VBox.Viewer.Picture
import VBox.Viewer.Padding
import VBox.Viewer.Overlay
import VBox.Lib.Scaling
import VBox.Viewer.Letterbox
import VBox.Viewer.Render
import VBox.Viewer.Cursor
import VBox.Viewer.App
import VBox.Session.RootCommit
import VBox.Viewer.Delivery
import VBox.Clipboard.Bridge
import VBox.Clipboard.Convergence
import VBox.Lib.Register
import VBox.Clipboard.Serials
import VBox.Lib.Runs
import VBox.Lib.Traces
import VBox.Lib.Transducer
import VBox.Session.Registration
import VBox.Lib.Table
import VBox.Session.Capture
import VBox.Session.Compositor
import VBox.Session.Callbacks
import VBox.Session.Modes
import VBox.Session.Tables
import VBox.Session.Scene
import VBox.Session.Popups
import VBox.Session.Repaint
import VBox.Viewer.Fullscreen
import VBox.Session.Sizes
import VBox.Session.Pointer
import VBox.Viewer.Composition
import VBox.Viewer.Lockstep
import VBox.Viewer.Captured
import VBox.Viewer.KeyLedger
import VBox.Viewer.Windows
import VBox.Viewer.WindowTables
import VBox.Viewer.Keyboard
import VBox.Viewer.HeldKeys
import VBox.DataPlane.Fallback
import VBox.DataPlane.OneShot
import VBox.Session.TextInput
import VBox.Lib.Json
import VBox.Lib.Maps
import VBox.Lib.Text
import VBox.Controld.State
import VBox.Controld.Restart
import VBox.Controld.Sessions
import VBox.Controld.Apps
import VBox.Controld.Session
import VBox.DataPlane.Gate
import VBox.Session.Slots
import VBox.Cli.InstancePorts
import VBox.Viewer.Hangul
import VBox.Viewer.Kana
import VBox.Viewer.Composer
import VBox.Viewer.Chunking
import VBox.Cli.Instances
import VBox.Lib.Paths
import VBox.Controld.Paths
import VBox.Controld.SocketWait
import VBox.Cli.Library
import VBox.Cli.Remotes
import VBox.Cli.Machines
import VBox.Cli.Stores
import VBox.Session.ShmReads
import VBox.Lib.Hex
import VBox.DataPlane.Pin
import VBox.Cli.IconNames
import VBox.Viewer.Drag
import VBox.Session.InputValues
import VBox.Lib.Shell
import VBox.Cli.Ssh
import VBox.Cli.Sync
import VBox.Lib.Streams
import VBox.Proto.Prelude
import VBox.DataPlane.Channels
import VBox.DataPlane.ChannelTables
import VBox.DataPlane.ViewLink
import VBox.DataPlane.ViewDelivery
import VBox.DataPlane.WindowStreams
import VBox.Lib.Duplex
import VBox.Controld.CtlCall
import VBox.DataPlane.QuicCommand
import VBox.Viewer.LeftButton
import VBox.Session.Seat
import VBox.Session.Focus
import VBox.Lib.Tape
import VBox.Viewer.WindowComposer
import VBox.Viewer.Typing
import VBox.Viewer.TypingRuns
import VBox.Cli.Launcher
