import LedgerProof.Ledger.Conservation
import LedgerProof.Ledger.Migrate
import LedgerProof.Worker.Fees
import LedgerProof.Worker.PartialRefunds
import LedgerProof.Pipeline.DeadLetter
import LedgerProof.Pipeline.WithinGrants
import LedgerProof.Pipeline.Replay
import LedgerProof.Pipeline.Drains
import LedgerProof.Ingest.FailClosed
import LedgerProof.StripeIo.Movement
import LedgerProof.StripeIo.HeaderGrammar
import LedgerProof.StripeIo.Client
import LedgerProof.StripeIo.FormParams
import LedgerProof.Recon.LedgerView
import LedgerProof.Recon.Agreement
import LedgerProof.Recon.Magnitude
import LedgerProof.Triage.Approve
import LedgerProof.Triage.Mirror
import LedgerProof.Triage.Strict
import LedgerProof.Limits.Shed
import LedgerProof.Limits.Hysteresis
import LedgerProof.Limits.Lease
import LedgerProof.Limits.RetryAfter
import LedgerProof.Harness.GroundTruth
import LedgerProof.Harness.Identities
import LedgerProof.Harness.Reorderer
import LedgerProof.Harness.ReordererRuns
import LedgerProof.Harness.Tamper
import LedgerProof.Harness.Artifact
import LedgerProof.Ledger.Grants
import LedgerProof.Harness.LiveProxy
import LedgerProof.Triage.Split
import LedgerProof.Triage.Sweep
import LedgerProof.Triage.Cases
import LedgerProof.Harness.Quiescence
import LedgerProof.Limits.FailurePolicy
import LedgerProof.Ingest.ShedLast
