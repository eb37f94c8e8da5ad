import ElectricEel.Lib.Json
import ElectricEel.Lib.Runs
import ElectricEel.Lib.DropQueue
import ElectricEel.Lib.Chan
import ElectricEel.Lib.Text
import ElectricEel.Lib.Calendar
import ElectricEel.Lib.QJson
import ElectricEel.Lib.Upsert
import ElectricEel.Lib.Utf8
import ElectricEel.Lib.Rounding
import ElectricEel.Lib.WireGrammar
import ElectricEel.Lib.ReplayWindow
import ElectricEel.Lib.Tlv
import ElectricEel.Commands
import ElectricEel.Wire
import ElectricEel.Config
import ElectricEel.World
import ElectricEel.Child.Connect
import ElectricEel.Child.Dispatch
import ElectricEel.Child.Serve
import ElectricEel.Child.Domains
import ElectricEel.Child.Watcher
import ElectricEel.Child.Departure
import ElectricEel.Child.Hysteresis
import ElectricEel.Child.KeyFile
import ElectricEel.Child.Main
import ElectricEel.Bluez.Signals
import ElectricEel.Bluez.Watcher
import ElectricEel.Client.Session
import ElectricEel.Client.Queue
import ElectricEel.Client.Correlation
import ElectricEel.Client.OneRun
import ElectricEel.Client.Slot
import ElectricEel.Client.Notices
import ElectricEel.Client.Pairing
import ElectricEel.App.AutomagicSetup
import ElectricEel.KeyLog.Prune
import ElectricEel.Core.Core
import ElectricEel.Core.Sections
import ElectricEel.Core.Ops
import ElectricEel.Core.System
import ElectricEel.Core.Persistence
import ElectricEel.Core.NewerSchema
import ElectricEel.Core.Settings
import ElectricEel.Core.CommandLine
import ElectricEel.Core.SpawnArgs
import ElectricEel.Core.Traffic
import ElectricEel.Core.PresenceFlags
import ElectricEel.Core.Stops
import ElectricEel.Core.AtMostOnce
import ElectricEel.Core.Retry
import ElectricEel.Core.Advance
import ElectricEel.Core.Enrollment
import ElectricEel.Core.WakeUp
import ElectricEel.Core.StaleStop
import ElectricEel.Session.Inside
import ElectricEel.Session.Responses
import ElectricEel.Session.AuthInbox
import ElectricEel.Session.Feeders
import ElectricEel.Session.Superseded
import ElectricEel.Session.Discovery
import ElectricEel.Session.Announced
import ElectricEel.Session.Guarded
import ElectricEel.Session.Reuse
import ElectricEel.Session.LoopExit
import ElectricEel.Session.IdleTimer
import ElectricEel.Session.Backoff
import ElectricEel.Share.Number
import ElectricEel.Share.Coords
import ElectricEel.Share.Markers
import ElectricEel.Share.Parse
import ElectricEel.Share.Checked
import ElectricEel.Share.Pairs
import ElectricEel.Share.Influence
import ElectricEel.Share.Geo
import ElectricEel.Share.Fragment
import ElectricEel.Share.Navigate
import ElectricEel.Arguments
import ElectricEel.Numbers.GoText
import ElectricEel.Numbers.Validate
import ElectricEel.Numbers.Handlers
import ElectricEel.Numbers.Agreement
import ElectricEel.Numbers.Bounds
import ElectricEel.Session.Decoding
import ElectricEel.Session.Foreign
import ElectricEel.Bluez.Framing
import ElectricEel.Bluez.Reassembly
import ElectricEel.Bluez.Connection
import ElectricEel.Bluez.Connect
import ElectricEel.Bluez.Cleanup
import ElectricEel.Vehicle.Window
import ElectricEel.Vehicle.Message
import ElectricEel.Vehicle.Metadata
import ElectricEel.Vehicle.Signer
import ElectricEel.Vehicle.Verifier
import ElectricEel.Vehicle.Channel
import ElectricEel.Vehicle.Dispatcher
import ElectricEel.Vehicle.Receivers
import ElectricEel.Vehicle.Sessions
import ElectricEel.Vehicle.EarlyResponse
import ElectricEel.App.VehicleState
import ElectricEel.App.Dashboard
import ElectricEel.App.PhoneKey
import ElectricEel.Lib.Attempts
import ElectricEel.Vehicle.Send
import ElectricEel.Lib.Heap
import ElectricEel.App.Ffi
import ElectricEel.Lib.ProtoMessage
import ElectricEel.Share.Payload
import ElectricEel.Share.Asked
