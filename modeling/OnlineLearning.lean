import OnlineLearning.Main
import OnlineLearning.Learning.Learner
import OnlineLearning.Proofs.Binary.Nearest
import OnlineLearning.Proofs.Binary.Widening
import OnlineLearning.Proofs.Binary.UnitInterval
import OnlineLearning.Learning.Session
import OnlineLearning.Proofs.Learning.Writes
import OnlineLearning.Proofs.Learning.Parameter
import OnlineLearning.Proofs.Learning.Covariance
import OnlineLearning.Proofs.Learning.Rival
import OnlineLearning.Proofs.Learning.Separation
import OnlineLearning.Proofs.Json.Values
import OnlineLearning.Proofs.Learning.Training
import OnlineLearning.Proofs.Text.Lines
import OnlineLearning.Proofs.Trace.Verdict
import OnlineLearning.Proofs.Trace.Tokens
import OnlineLearning.Proofs.Replay.Standing
import OnlineLearning.Proofs.FileTree.Access
import OnlineLearning.Proofs.FileTree.Shape
import OnlineLearning.Proofs.Replay.Course
import OnlineLearning.Proofs.Replay.Skipping
import OnlineLearning.Proofs.Binary.Difference
import OnlineLearning.Proofs.Learning.Leader
import OnlineLearning.Proofs.Binary.Magnitude
import OnlineLearning.Proofs.Learning.Mistakes
import OnlineLearning.Proofs.Replay.Mistakes
import OnlineLearning.Learning.Request
import OnlineLearning.Proofs.Learning.Stages
import OnlineLearning.Proofs.Model.Alike
import OnlineLearning.Proofs.Learning.Requests
import OnlineLearning.Proofs.Learning.FiniteMeans
import OnlineLearning.Proofs.Learning.InfiniteStep
import OnlineLearning.Proofs.Binary.Opposite
import OnlineLearning.Proofs.Learning.Mirror
import OnlineLearning.Proofs.Csv.Reading
import OnlineLearning.Proofs.Learning.Growth
import OnlineLearning.Proofs.Replay.Accepted
import OnlineLearning.Proofs.Replay.Counts
import OnlineLearning.Proofs.Text.Trimming
import OnlineLearning.Proofs.Text.Figures
import OnlineLearning.Proofs.Decimal.Numerals
import OnlineLearning.Proofs.Decimal.Places
import OnlineLearning.Proofs.Decimal.Scale
import OnlineLearning.Proofs.Decimal.RoundTrip
import OnlineLearning.Proofs.Decimal.Positional
import OnlineLearning.Proofs.Compare.Runs
import OnlineLearning.Proofs.Compare.ReadBack
import OnlineLearning.Proofs.Compare.Agreement
import OnlineLearning.Proofs.Compare.Parameter
import OnlineLearning.Proofs.Model.Keys
import OnlineLearning.Proofs.Model.Places
import OnlineLearning.Proofs.Learning.Extension
import OnlineLearning.Proofs.Datum.Display
import OnlineLearning.Proofs.Replay.Origin
import OnlineLearning.Proofs.Replay.Records
import OnlineLearning.Proofs.Json.RoundTrip
import OnlineLearning.Proofs.Random.Sound
import OnlineLearning.Proofs.Synthetic.Draws
import OnlineLearning.Proofs.Synthetic.Traces
import OnlineLearning.Proofs.Binary.Halfway
import OnlineLearning.Proofs.Binary.Monotone
import OnlineLearning.Proofs.Binary.Products
import OnlineLearning.Proofs.Binary.Root
import OnlineLearning.Proofs.Binary.Error
import OnlineLearning.Proofs.Learning.BrokenUpdate
import OnlineLearning.Proofs.Learning.ConfidentStep
import OnlineLearning.Proofs.Learning.DegenerateStep
import OnlineLearning.Proofs.Learning.UndecidedStep
import OnlineLearning.Proofs.Binary.Reciprocal
import OnlineLearning.Proofs.Learning.Shrinking
import OnlineLearning.Proofs.Learning.Scan
import OnlineLearning.Proofs.Learning.Prediction
import OnlineLearning.Proofs.Learning.IgnoredValues
import OnlineLearning.Proofs.Learning.Direction
import OnlineLearning.Learning.Action
import OnlineLearning.Proofs.Learning.Margins
import OnlineLearning.Proofs.Learning.Shifts
import OnlineLearning.Proofs.Model.Snapshot
import OnlineLearning.Proofs.Learning.Flushes
import OnlineLearning.Proofs.Binary.Conversion
import OnlineLearning.Proofs.Learning.Level
import OnlineLearning.Proofs.Feature.RoundTrip
import OnlineLearning.Proofs.Feature.Malformed
import OnlineLearning.Proofs.Compare.Rows
