import XplEvent.Config.Comments
import XplEvent.Config.FinalNewline
import XplEvent.Config.RoundTrip
import XplEvent.Control.Access
import XplEvent.Control.ClientCommand
import XplEvent.Control.Download
import XplEvent.Control.Print
import XplEvent.Control.RoundTrip
import XplEvent.Control.Upload
import XplEvent.Control.WholeLines
import XplEvent.Poll.Events
import XplEvent.Receiver.Handoff
import XplEvent.Receiver.Shutdown
import XplEvent.Receiver.WakeUp
import XplEvent.Scheduler.Calendar
import XplEvent.Scheduler.Reload
import XplEvent.Scheduler.SunClock
import XplEvent.Script.Command
import XplEvent.Script.HashStore
import XplEvent.Script.Literals
import XplEvent.Script.NameValues
import XplEvent.Script.SourceTag
import XplEvent.Service.Discovery
import XplEvent.Service.Fields
import XplEvent.Service.GroupMessages
import XplEvent.Service.HubEcho
import XplEvent.Service.Silence
import XplEvent.Service.Starvation
import XplEvent.Store.Scripts
import XplEvent.Wire.SendBuffer
import XplEvent.Poll.Registration
import XplEvent.Lib.Positional
import XplEvent.Service.InstanceId
import XplEvent.Service.Registry
import XplEvent.Control.LineFraming
import XplEvent.Util.Split
import XplEvent.Control.Bind
import XplEvent.Main.Precedence
import XplEvent.Wire.Buffers
import XplEvent.Script.Jumps
import XplEvent.Lib.Munch
import XplEvent.Lib.Pattern
import XplEvent.Script.Lexer
import XplEvent.Script.Spelling
import XplEvent.Script.Grammar
import XplEvent.Script.Source
import XplEvent.Script.Lexemes
import XplEvent.Lib.Triple
import XplEvent.Script.Logic
import XplEvent.Script.Preprocess
import XplEvent.Script.Effects
import XplEvent.Store.Provenance
import XplEvent.Daemon.World
import XplEvent.Daemon.Callbacks
import XplEvent.Daemon.Acts
import XplEvent.Daemon.Connections
import XplEvent.Daemon.Provenance
import XplEvent.Store.Recall
import XplEvent.Daemon.Recall
import XplEvent.Daemon.Sharing
