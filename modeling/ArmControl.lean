import ArmControl.Binary64
import ArmControl.Binary64.Rounding
import ArmControl.Command
import ArmControl.ControlLoop
import ArmControl.Deviation
import ArmControl.Engine.Basic
import ArmControl.Engine.Callback
import ArmControl.Engine.Clock
import ArmControl.Engine.Cycle
import ArmControl.Engine.Generator
import ArmControl.Engine.Move
import ArmControl.Engine.Request
import ArmControl.Engine.Supply
import ArmControl.Error
import ArmControl.Frame.Header
import ArmControl.Frame.Reply
import ArmControl.Frame.Request
import ArmControl.Host.Address
import ArmControl.Host.Error
import ArmControl.Host.Files
import ArmControl.Host.Name
import ArmControl.Host.Network
import ArmControl.Link.Basic
import ArmControl.Link.FarEnd
import ArmControl.Link.Happening
import ArmControl.Metrics
import ArmControl.Mode
import ArmControl.Motion.Basic
import ArmControl.Motion.Status
import ArmControl.Operation
import ArmControl.Rehearsal.Engine
import ArmControl.Rehearsal.Link
import ArmControl.Rehearsal.Robot
import ArmControl.Rehearsal.Session
import ArmControl.Rehearsal.Socket
import ArmControl.Rehearsal.Stage
import ArmControl.Robot.Basic
import ArmControl.Robot.Busy
import ArmControl.Session
import ArmControl.Settings.Basic
import ArmControl.Settings.Document
import ArmControl.Settings.Fault
import ArmControl.Slot
import ArmControl.Slot.Word
import ArmControl.Socket.Basic
import ArmControl.Socket.Frames
import ArmControl.State
import ArmControl.Target
import ArmControl.Toml.Document
import ArmControl.Toml.Fault
import ArmControl.Toml.Moment
import ArmControl.Toml.Reader
import ArmControl.Toml.Scalar
import ArmControl.Toml.Table
import ArmControl.Toml.Text
import ArmControl.Wire.Bytes
import ArmControl.Wire.Coded
import ArmControl.Wire.Error
import ArmControl.Wire.Format
import ArmControl.Proofs.Journal
import ArmControl.Proofs.Passage
import ArmControl.Proofs.Wait
import ArmControl.Proofs.Observation
import ArmControl.Proofs.Cycle
import ArmControl.Proofs.Exchange
import ArmControl.Proofs.Enduring
import ArmControl.Proofs.Standing
import ArmControl.Proofs.Lasting
import ArmControl.Proofs.Confirmation
import ArmControl.Proofs.Launch
import ArmControl.Proofs.Recording
import ArmControl.Proofs.Finish
import ArmControl.Proofs.Course
import ArmControl.Proofs.Lifecycle
import ArmControl.Proofs.History
import ArmControl.Proofs.Halting
import ArmControl.Proofs.Deferral
import ArmControl.Proofs.Withdrawal
import ArmControl.Proofs.Idle
import ArmControl.Proofs.Quiescence
import ArmControl.Proofs.Delivery
import ArmControl.Proofs.Agreement
import ArmControl.Proofs.Datagram
import ArmControl.Proofs.Finiteness
import ArmControl.Proofs.Frames
import ArmControl.Proofs.Moments
import ArmControl.Proofs.Path
import ArmControl.Proofs.Growth
import ArmControl.Proofs.Exclusion
import ArmControl.Proofs.Unreadable
import ArmControl.Proofs.Ledger
import ArmControl.Proofs.Keying
import ArmControl.Proofs.Procedure
import ArmControl.Proofs.Thinning
import ArmControl.Proofs.Inert
import ArmControl.Proofs.Parallel
import ArmControl.Proofs.InStep
import ArmControl.Proofs.Errand
import ArmControl.Proofs.Interference
import ArmControl.Proofs.Arbitration
import ArmControl.Proofs.Nesting
import ArmControl.Proofs.Accounts
import ArmControl.Proofs.Allowance
import ArmControl.Proofs.Beginning
import ArmControl.Proofs.Queue
import ArmControl.Proofs.Decision
import ArmControl.Proofs.Numbering
import ArmControl.Proofs.Postponement
import ArmControl.Proofs.Correspondence
import ArmControl.Proofs.Obedience
import ArmControl.Proofs.Resending
import ArmControl.Proofs.Success
import ArmControl.Proofs.Ending
import ArmControl.Proofs.Rounds
import ArmControl.Proofs.Dictation
import ArmControl.Proofs.Transcript
import ArmControl.Proofs.Handshake
import ArmControl.Proofs.Choice
import ArmControl.Proofs.Checks
import ArmControl.Proofs.Cutting
import ArmControl.Proofs.Receiving
import ArmControl.Proofs.Reassembly
import ArmControl.Proofs.Overtaking
import ArmControl.Proofs.Sending
import ArmControl.Proofs.Setters
import ArmControl.Proofs.Silence
import ArmControl.Proofs.Reaching
import ArmControl.Proofs.Fallbacks
