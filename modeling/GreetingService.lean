import GreetingService.CommandLine.Arguments
import GreetingService.CommandLine.Help
import GreetingService.CommandLine.Option
import GreetingService.CommandLine.UsageError
import GreetingService.Config.Basic
import GreetingService.Config.Error
import GreetingService.Config.Loading
import GreetingService.Config.Policy
import GreetingService.Decimal.Shortest
import GreetingService.Files.Failure
import GreetingService.Files.Volume
import GreetingService.Greeting.Handler
import GreetingService.Greeting.Replay
import GreetingService.Greeting.Service
import GreetingService.Greeting.Session
import GreetingService.Greeting.Shared
import GreetingService.Json.Error
import GreetingService.Json.Numeral
import GreetingService.Json.Quote
import GreetingService.Json.Record
import GreetingService.Json.Scan
import GreetingService.Json.Skim
import GreetingService.Json.Value
import GreetingService.Log.Diagnostic
import GreetingService.Log.Filter
import GreetingService.Log.Layout
import GreetingService.Log.Level
import GreetingService.Main
import GreetingService.Program
import GreetingService.Proofs.AllOrNothing
import GreetingService.Proofs.CommandParts
import GreetingService.Proofs.CompleteLayer
import GreetingService.Proofs.ConfigText
import GreetingService.Proofs.EmptyFields
import GreetingService.Proofs.EventReplay
import GreetingService.Proofs.FaithfulDiagnostics
import GreetingService.Proofs.FilterDescription
import GreetingService.Proofs.History
import GreetingService.Proofs.HistoryLaw
import GreetingService.Proofs.InvokeContract
import GreetingService.Proofs.JsonText
import GreetingService.Proofs.LastText
import GreetingService.Proofs.Layering
import GreetingService.Proofs.LoadingPaths
import GreetingService.Proofs.LoggedFields
import GreetingService.Proofs.LoggingOptions
import GreetingService.Proofs.MinimalHandler
import GreetingService.Proofs.Outline
import GreetingService.Proofs.QuotedText
import GreetingService.Proofs.RecordFields
import GreetingService.Proofs.RecordPaths
import GreetingService.Proofs.RecordText
import GreetingService.Proofs.RecordValues
import GreetingService.Proofs.RepeatedSections
import GreetingService.Proofs.ReplayParts
import GreetingService.Proofs.Results
import GreetingService.Proofs.SerialOrder
import GreetingService.Proofs.ServiceFilter
import GreetingService.Proofs.SettingsText
import GreetingService.Proofs.SharedUse
import GreetingService.Proofs.SkimToken
import GreetingService.Proofs.SkimValue
import GreetingService.Proofs.TextParts
import GreetingService.Proofs.WrittenCommand
import GreetingService.Proofs.WrittenOptions
import GreetingService.Request
import GreetingService.Response
import GreetingService.Settings.Document
import GreetingService.Settings.Reader
import GreetingService.Settings.Writer
import GreetingService.Text.Blank
import GreetingService.Text.Case
import GreetingService.Text.Extending
import GreetingService.Text.Hex
import GreetingService.Text.Quoted
import GreetingService.Text.Similarity
import GreetingService.Text.Unprintable
import GreetingService.Text.Utf8
