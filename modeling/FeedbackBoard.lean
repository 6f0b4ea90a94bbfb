import FeedbackBoard.Access.Digest
import FeedbackBoard.Access.Registry
import FeedbackBoard.Access.Role
import FeedbackBoard.Api.Board
import FeedbackBoard.Api.Parameters
import FeedbackBoard.Api.Request
import FeedbackBoard.Api.Response
import FeedbackBoard.Api.Route
import FeedbackBoard.Binary64.Basic
import FeedbackBoard.Binary64.Decimal
import FeedbackBoard.Binary64.Wide
import FeedbackBoard.Command.Address
import FeedbackBoard.Command.Arguments
import FeedbackBoard.Command.Failure
import FeedbackBoard.Command.Line
import FeedbackBoard.Command.Open
import FeedbackBoard.Command.Run
import FeedbackBoard.Command.Workspace
import FeedbackBoard.Config.File
import FeedbackBoard.Config.Settings
import FeedbackBoard.Database.Call
import FeedbackBoard.Database.Cell
import FeedbackBoard.Database.JsonTree
import FeedbackBoard.Database.LenientJson
import FeedbackBoard.Database.Row
import FeedbackBoard.Database.Schema
import FeedbackBoard.Database.Statement
import FeedbackBoard.Database.StoredReal
import FeedbackBoard.Feedback.Basic
import FeedbackBoard.Feedback.Wire
import FeedbackBoard.Files.Path
import FeedbackBoard.Files.Tree
import FeedbackBoard.Json.Fault
import FeedbackBoard.Json.Node
import FeedbackBoard.Json.Number
import FeedbackBoard.Json.Printer
import FeedbackBoard.Json.Reader
import FeedbackBoard.Json.Record
import FeedbackBoard.Json.Value
import FeedbackBoard.Json.Wire
import FeedbackBoard.Report.Calendar
import FeedbackBoard.Report.Statistics
import FeedbackBoard.Report.Table
import FeedbackBoard.Reviews.Leaderboard
import FeedbackBoard.Reviews.Rating
import FeedbackBoard.Reviews.Score
import FeedbackBoard.Store.Basic
import FeedbackBoard.Store.Operation
import FeedbackBoard.Store.Query
import FeedbackBoard.Store.RowList
import FeedbackBoard.Store.SortKey
import FeedbackBoard.Text.Characters
import FeedbackBoard.Text.CodePoints
import FeedbackBoard.Text.MediaType
import FeedbackBoard.Text.Percent
import FeedbackBoard.Text.Symbol
import FeedbackBoard.Toml.Basic
import FeedbackBoard.Toml.Document
import FeedbackBoard.Toml.Line
import FeedbackBoard.Toml.Number
import FeedbackBoard.Toml.Text
import FeedbackBoard.Main
import FeedbackBoard.Proofs.Access.Admission
import FeedbackBoard.Proofs.Access.BearerSecrets
import FeedbackBoard.Proofs.Access.Gate
import FeedbackBoard.Proofs.Access.Isolation
import FeedbackBoard.Proofs.Access.Registration
import FeedbackBoard.Proofs.Api.Answers
import FeedbackBoard.Proofs.Api.Changes
import FeedbackBoard.Proofs.Api.Effects
import FeedbackBoard.Proofs.Api.Failures
import FeedbackBoard.Proofs.Api.Histories
import FeedbackBoard.Proofs.Api.Kinds
import FeedbackBoard.Proofs.Api.Leaderboards
import FeedbackBoard.Proofs.Api.Listings
import FeedbackBoard.Proofs.Api.PageQueries
import FeedbackBoard.Proofs.Api.Paging
import FeedbackBoard.Proofs.Api.ReadingBack
import FeedbackBoard.Proofs.Binary64.Accuracy
import FeedbackBoard.Proofs.Binary64.Nearest
import FeedbackBoard.Proofs.Binary64.Order
import FeedbackBoard.Proofs.Binary64.Rounding
import FeedbackBoard.Proofs.Command.Restoring
import FeedbackBoard.Proofs.Command.Transfer
import FeedbackBoard.Proofs.Database.DamagedColumns
import FeedbackBoard.Proofs.Database.DeepTexts
import FeedbackBoard.Proofs.Database.LenientScalars
import FeedbackBoard.Proofs.Database.LenientSteps
import FeedbackBoard.Proofs.Database.LenientStrings
import FeedbackBoard.Proofs.Database.LenientTrees
import FeedbackBoard.Proofs.Database.Migrations
import FeedbackBoard.Proofs.Database.StoredRows
import FeedbackBoard.Proofs.Database.StoredTrees
import FeedbackBoard.Proofs.Feedback.Contents
import FeedbackBoard.Proofs.Feedback.Exchange
import FeedbackBoard.Proofs.Feedback.WireForms
import FeedbackBoard.Proofs.Json.Digits
import FeedbackBoard.Proofs.Json.Documents
import FeedbackBoard.Proofs.Json.NumberReading
import FeedbackBoard.Proofs.Json.NumberText
import FeedbackBoard.Proofs.Json.Records
import FeedbackBoard.Proofs.Json.Rereading
import FeedbackBoard.Proofs.Json.RoundTrips
import FeedbackBoard.Proofs.Json.Scalars
import FeedbackBoard.Proofs.Json.Values
import FeedbackBoard.Proofs.Order.Keyed
import FeedbackBoard.Proofs.Order.Sorted
import FeedbackBoard.Proofs.Report.LastUpdate
import FeedbackBoard.Proofs.Reviews.Counting
import FeedbackBoard.Proofs.Reviews.ExactScore
import FeedbackBoard.Proofs.Reviews.Fairness
import FeedbackBoard.Proofs.Reviews.HalfwayScores
import FeedbackBoard.Proofs.Reviews.Ranking
import FeedbackBoard.Proofs.Reviews.ScoreAccuracy
import FeedbackBoard.Proofs.Reviews.ScoreRounding
import FeedbackBoard.Proofs.Reviews.Summaries
import FeedbackBoard.Proofs.Store.Batches
import FeedbackBoard.Proofs.Store.Confinement
import FeedbackBoard.Proofs.Store.FiniteMap
import FeedbackBoard.Proofs.Store.Interleavings
import FeedbackBoard.Proofs.Store.Invariants
import FeedbackBoard.Proofs.Store.KeyedRows
import FeedbackBoard.Proofs.Store.Listings
import FeedbackBoard.Proofs.Store.Mirror
import FeedbackBoard.Proofs.Store.NewestPages
import FeedbackBoard.Proofs.Store.Operations
import FeedbackBoard.Proofs.Store.PageComparison
import FeedbackBoard.Proofs.Store.PageOrder
import FeedbackBoard.Proofs.Store.Pages
import FeedbackBoard.Proofs.Store.SeparateCalls
import FeedbackBoard.Proofs.Store.Shown
import FeedbackBoard.Proofs.Store.SortKeys
import FeedbackBoard.Proofs.Store.Turns
import FeedbackBoard.Proofs.Text.ByteOrder
