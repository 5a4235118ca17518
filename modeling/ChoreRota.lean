import ChoreRota.Cadence
import ChoreRota.Calendar.Date
import ChoreRota.Calendar.Moment
import ChoreRota.Calendar.Month
import ChoreRota.Calendar.Rfc3339
import ChoreRota.Calendar.Zone
import ChoreRota.Calendar.Zone.Table
import ChoreRota.Chance.ChaCha
import ChoreRota.Chance.Source
import ChoreRota.Chore.Basic
import ChoreRota.Chore.Kind
import ChoreRota.CommandLine.Arguments
import ChoreRota.CommandLine.Report
import ChoreRota.CommandLine.Run
import ChoreRota.CommandLine.Table
import ChoreRota.Event
import ChoreRota.Fault
import ChoreRota.Json.Fields
import ChoreRota.Json.Number
import ChoreRota.Json.Printer
import ChoreRota.Json.Reader
import ChoreRota.Json.Reading
import ChoreRota.Json.Scalar
import ChoreRota.Json.Skipping
import ChoreRota.Json.Value
import ChoreRota.Main
import ChoreRota.Numeric.Binary64
import ChoreRota.Numeric.Shortest
import ChoreRota.Recurrence.ConfiguredTime
import ChoreRota.Recurrence.Months
import ChoreRota.Recurrence.NextDue
import ChoreRota.Recurrence.Weekdays
import ChoreRota.Rotation
import ChoreRota.Settings.Config
import ChoreRota.Settings.Overrides
import ChoreRota.Storage.Decoder
import ChoreRota.Storage.Encoder
import ChoreRota.Storage.SnapshotText
import ChoreRota.Text.Classes
import ChoreRota.Text.Digits
import ChoreRota.Text.Ligature
import ChoreRota.Text.PictureSequence
import ChoreRota.Text.PictureTable
import ChoreRota.Text.Quoted
import ChoreRota.Text.Split
import ChoreRota.Text.Width
import ChoreRota.Text.WidthTable
import ChoreRota.Proofs.Runs
import ChoreRota.Proofs.Dormancy
import ChoreRota.Proofs.OneShots
import ChoreRota.Proofs.ListedMonths
import ChoreRota.Proofs.ListedWeekdays
import ChoreRota.Proofs.Strides
import ChoreRota.Proofs.Lateness
import ChoreRota.Proofs.WeeklySlots
import ChoreRota.Proofs.DateSearch
import ChoreRota.Proofs.Occurrences
import ChoreRota.Proofs.MonthlyOccurrences
import ChoreRota.Proofs.QuarterlyOccurrences
import ChoreRota.Proofs.WallClock
import ChoreRota.Proofs.Assignment
import ChoreRota.Proofs.Failures
import ChoreRota.Proofs.Fairness
import ChoreRota.Proofs.Turns
import ChoreRota.Proofs.Membership
import ChoreRota.Proofs.Progress
import ChoreRota.Proofs.Skips
import ChoreRota.Proofs.DecimalText
import ChoreRota.Proofs.ScalarText
import ChoreRota.Proofs.TimestampText
import ChoreRota.Proofs.ReadBack
import ChoreRota.Proofs.RecordReadBack
import ChoreRota.Proofs.StoredForm
import ChoreRota.Proofs.LoadedTimes
import ChoreRota.Proofs.SavedSnapshots
import ChoreRota.Proofs.SkippedRows
import ChoreRota.Proofs.SameInstants
import ChoreRota.Proofs.CalendarEnds
import ChoreRota.Proofs.MonthArithmetic
import ChoreRota.Proofs.RollingMonths
import ChoreRota.Proofs.MonthlyTimes
import ChoreRota.Proofs.ScheduleStarts
import ChoreRota.Proofs.ClockChanges
import ChoreRota.Proofs.ZoneEnds
import ChoreRota.Proofs.CompletionOrder
import ChoreRota.Proofs.Intervals
import ChoreRota.Proofs.Rounding
import ChoreRota.Proofs.Gaps
import ChoreRota.Proofs.RoundedAverage
import ChoreRota.Proofs.AverageGap
import ChoreRota.Proofs.HistoryLog
import ChoreRota.Proofs.OverrideForms
import ChoreRota.Proofs.SettingsInForce
import ChoreRota.Proofs.Rendering
import ChoreRota.Proofs.CommandRuns
import ChoreRota.Proofs.FailedCommands
import ChoreRota.Proofs.SwitchArguments
import ChoreRota.Proofs.OutputModes
import ChoreRota.Proofs.DryRuns
import ChoreRota.Proofs.Estimates
import ChoreRota.Proofs.ExactAverage
import ChoreRota.Proofs.FewestRows
import ChoreRota.Proofs.RandomPicks
import ChoreRota.Proofs.Removals
import ChoreRota.Proofs.TimestampForms
import ChoreRota.Proofs.TimeOfDayForms
