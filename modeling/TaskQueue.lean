import TaskQueue.Log.Encoding
import TaskQueue.Main
import TaskQueue.Proofs.AcceptedRetry
import TaskQueue.Proofs.Coalescing
import TaskQueue.Proofs.FinishedQueue
import TaskQueue.Proofs.FollowedRun
import TaskQueue.Proofs.LogCounter
import TaskQueue.Proofs.ObservedLog
import TaskQueue.Proofs.PrintedLog
import TaskQueue.Proofs.ReportedRun
import TaskQueue.Proofs.StoreLifecycle
import TaskQueue.Proofs.StreamedLog
import TaskQueue.Simulation.Run
import TaskQueue.Proofs.PatchRoundTrip
import TaskQueue.Proofs.ClaimChoice
import TaskQueue.Proofs.CreationTimes
import TaskQueue.Proofs.SubmissionOrder
import TaskQueue.Proofs.CountedLines
import TaskQueue.Proofs.Reconciliation
import TaskQueue.Proofs.ExpressionParts
import TaskQueue.Proofs.Substitution
import TaskQueue.Proofs.VariableForms
import TaskQueue.Proofs.FinalTrim
import TaskQueue.Proofs.WriteAttempts
import TaskQueue.Proofs.PatchedResult
import TaskQueue.Proofs.ResentWrite
import TaskQueue.Proofs.TimelessRun
import TaskQueue.Proofs.HiddenVerdict
import TaskQueue.Proofs.PatchParts
import TaskQueue.Proofs.OpenHours
import TaskQueue.Proofs.StoredOrder
import TaskQueue.Proofs.FirstReason
import TaskQueue.Proofs.RetryDelays
import TaskQueue.Proofs.PoisonedLock
import TaskQueue.Proofs.EmbeddedSchedule
import TaskQueue.Proofs.TypedWindow
import TaskQueue.Proofs.BoundedScan
import TaskQueue.Proofs.LineBatches
