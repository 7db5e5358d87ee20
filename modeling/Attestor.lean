import Attestor.Proofs.Framing
import Attestor.Text.Basic
import Attestor.Hash
import Attestor.Text.Digits
import Attestor.Curve.Ecdsa
import Attestor.Key.Basic
import Attestor.Key.Extended
import Attestor.Address
import Attestor.Chain.Transaction
import Attestor.Json.Value
import Attestor.Json.Record
import Attestor.Entity
import Attestor.Formation
import Attestor.Statement
import Attestor.Window
import Attestor.Error
import Attestor.Node.Basic
import Attestor.Formations
import Attestor.Follower
import Attestor.Oracle.Requests
import Attestor.Service
import Attestor.Http.Router
import Attestor.Config
import Attestor.Node.Client
import Attestor.Approver
import Attestor.Proofs.Entity.Bytes
import Attestor.Proofs.Address.Bytes
import Attestor.Proofs.Statement.Kinds
import Attestor.Proofs.Tracker.Handle
import Attestor.Proofs.Window.Apply
import Attestor.Proofs.Tracker.Visible
import Attestor.Proofs.Follower.Convergence
import Attestor.Proofs.Follower.Scan
import Attestor.Proofs.Statement.Fields
import Attestor.Proofs.Statement.Replay
import Attestor.Proofs.Formations.Observe
import Attestor.Proofs.Oracle.Provenance
import Attestor.Proofs.Tracker.Convergence
import Attestor.Proofs.Follower.Reorganized
import Attestor.Proofs.Oracle.Outcome
import Attestor.Proofs.Oracle.Ownership
import Attestor.Proofs.Formation
import Attestor.Proofs.Oracle.Changes
import Attestor.Proofs.Formations.Concurrent
import Attestor.Proofs.Tracker.Reorganization
import Attestor.Proofs.Tracker.Redelivery
import Attestor.Proofs.Entity.Mismatch
import Attestor.Proofs.Formations.Signer
import Attestor.Proofs.Tracker.Wire
import Attestor.Proofs.Tracker.Restart
import Attestor.Proofs.Text.Digits
import Attestor.Proofs.Address.Text
import Attestor.Proofs.Curve
import Attestor.Proofs.Key.Read
import Attestor.Proofs.Key.Text
