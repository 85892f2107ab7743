import Handshake.Engine.Action
import Handshake.Main
import Handshake.Proofs.Checker.FalseAlarm
import Handshake.Proofs.Checker.PhaseGraph
import Handshake.Proofs.Engine.Failure
import Handshake.Proofs.Engine.Isolation
import Handshake.Proofs.Engine.Refusal
import Handshake.Proofs.Engine.Retirement
import Handshake.Proofs.Engine.Stepping
import Handshake.Proofs.Engine.Termination
import Handshake.Proofs.Replay.Partition
import Handshake.Proofs.Trace.Faithful
import Handshake.Proofs.Trace.RoundTrip
import Handshake.Proofs.Checker.Report
import Handshake.Proofs.Checker.Independence
import Handshake.Proofs.Checker.Matched
import Handshake.Proofs.Checker.Overlap
import Handshake.Proofs.Checker.ResponseOrder
import Handshake.Proofs.Checker.FirstBeat
import Handshake.Proofs.Checker.Coherence
import Handshake.Proofs.Engine.Journal
import Handshake.Proofs.Engine.Binding
import Handshake.Proofs.Engine.Firing
import Handshake.Proofs.Replay.Truthful
import Handshake.Proofs.Trace.Layout
import Handshake.Proofs.Trace.AttributeOrder
import Handshake.Proofs.Checker.Overflow
import Handshake.Proofs.Trace.ReportedOnce
import Handshake.Proofs.Checker.Acknowledgment
import Handshake.Proofs.Queue.Keyed
import Handshake.Proofs.Trace.Literal
