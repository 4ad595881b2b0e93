import TrafficRelay.Main
import TrafficRelay.Relay.Gate
import TrafficRelay.Relay.Supervisor
import TrafficRelay.Proofs.VerdictSlot
import TrafficRelay.Proofs.VerdictTable
import TrafficRelay.Proofs.SlotRefinement
import TrafficRelay.Proofs.FilterRun
import TrafficRelay.Proofs.AnswerVerdict
import TrafficRelay.Proofs.Lines
import TrafficRelay.Proofs.StoredRecords
import TrafficRelay.Proofs.FileRoundTrip
import TrafficRelay.Proofs.RelayHistory
import TrafficRelay.Proofs.Delivery
import TrafficRelay.Proofs.DroppedAnswers
import TrafficRelay.Proofs.DecimalSpelling
import TrafficRelay.Proofs.Fields
import TrafficRelay.Proofs.HeaderRoundTrip
import TrafficRelay.Proofs.HeaderGrammar
import TrafficRelay.Proofs.ReadRecords
import TrafficRelay.Proofs.FileOpening
import TrafficRelay.Proofs.OpenedFiles
import TrafficRelay.Proofs.SessionRest
import TrafficRelay.Proofs.FileReading
import TrafficRelay.Proofs.FileWriting
import TrafficRelay.Proofs.RoutedFrames
import TrafficRelay.Proofs.RelayedFiles
import TrafficRelay.Proofs.RelayJournal
import TrafficRelay.Proofs.OutputChoice
import TrafficRelay.Proofs.RelayBalance
import TrafficRelay.Proofs.JournalCounts
import TrafficRelay.Proofs.TallyConservation
import TrafficRelay.Proofs.OfferedFrames
import TrafficRelay.Proofs.ForgottenOutcomes
import TrafficRelay.Proofs.SessionPlacement
import TrafficRelay.Proofs.TurnPlacement
import TrafficRelay.Proofs.OutputIsolation
import TrafficRelay.Proofs.RejectedAnswers
import TrafficRelay.Proofs.AppendedRecords
import TrafficRelay.Proofs.SupervisedLifecycle
import TrafficRelay.Proofs.ExaminedFrames
import TrafficRelay.Proofs.VerdictCounts
import TrafficRelay.Proofs.ArrivalOrder
import TrafficRelay.Proofs.AlikeRuns
import TrafficRelay.Proofs.Cancellation
import TrafficRelay.Proofs.FrameFate
import TrafficRelay.Proofs.InputIsolation
import TrafficRelay.Proofs.ErrorReports
import TrafficRelay.Proofs.Reencoding
import TrafficRelay.Proofs.Retention
import TrafficRelay.Proofs.FileLayout
import TrafficRelay.Proofs.PartialSettings
import TrafficRelay.Proofs.SettingsRoundTrip
import TrafficRelay.Proofs.RequestMethods
import TrafficRelay.Proofs.TurnSeries
import TrafficRelay.Proofs.SessionHash
import TrafficRelay.Proofs.AssemblyOutcomes
import TrafficRelay.Proofs.EntryAccounts
