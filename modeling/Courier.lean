import Courier.Client.Connection
import Courier.Decimal.Binary
import Courier.Decimal.Natural
import Courier.Decimal.Shortest
import Courier.Files.Basic
import Courier.Files.Kernel
import Courier.Files.Path
import Courier.Json.Error
import Courier.Json.Kind
import Courier.Json.Lexeme
import Courier.Json.Reader
import Courier.Json.Step
import Courier.Json.Value
import Courier.Json.Writer
import Courier.Keyed
import Courier.Launch.Basic
import Courier.Launch.Notice
import Courier.Main
import Courier.Message.Direct
import Courier.Message.Envelope
import Courier.Message.Failure
import Courier.Message.Fields
import Courier.Message.Request
import Courier.Message.Token
import Courier.Message.Version
import Courier.Metrics.Basic
import Courier.Metrics.Family
import Courier.Metrics.Histogram
import Courier.Metrics.Report
import Courier.Proofs.BuiltinVerbs
import Courier.Proofs.Chunking
import Courier.Proofs.Conservation
import Courier.Proofs.Conversation
import Courier.Proofs.Correlation
import Courier.Proofs.EnvelopeGrammar
import Courier.Proofs.EnvelopeReaders
import Courier.Proofs.FilesLaws
import Courier.Proofs.FrameBoundary
import Courier.Proofs.FrameGrammar
import Courier.Proofs.FramePlaces
import Courier.Proofs.Framing
import Courier.Proofs.Handlers
import Courier.Proofs.HeadLines
import Courier.Proofs.HistogramCounts
import Courier.Proofs.JsonInverse
import Courier.Proofs.JsonLexemes
import Courier.Proofs.JsonLineEndings
import Courier.Proofs.JsonObjects
import Courier.Proofs.JsonReading
import Courier.Proofs.JsonText
import Courier.Proofs.JsonValues
import Courier.Proofs.KernelLaws
import Courier.Proofs.KeyedOrder
import Courier.Proofs.LabelText
import Courier.Proofs.LineEndings
import Courier.Proofs.MessageInverse
import Courier.Proofs.MessageReading
import Courier.Proofs.MetricsAccount
import Courier.Proofs.PollReport
import Courier.Proofs.QueueCatalog
import Courier.Proofs.QueueGrowth
import Courier.Proofs.QueueLedger
import Courier.Proofs.ReachedStates
import Courier.Proofs.Relay
import Courier.Proofs.ReplyTimes
import Courier.Proofs.ReportText
import Courier.Proofs.RequestGrammar
import Courier.Proofs.ResponseGrammar
import Courier.Proofs.ResponseStream
import Courier.Proofs.SeriesBound
import Courier.Proofs.SeriesTotals
import Courier.Proofs.SessionAttempts
import Courier.Proofs.SessionEnds
import Courier.Proofs.SessionModes
import Courier.Proofs.SessionReference
import Courier.Proofs.SessionSteps
import Courier.Proofs.SocketBinding
import Courier.Proofs.Streams
import Courier.Proofs.TableHistory
import Courier.Proofs.Utf8Inverse
import Courier.Proofs.VersionGrammar
import Courier.Proofs.Waiting
import Courier.Proofs.WriteFaults
import Courier.Queue
import Courier.Server.Basic
import Courier.Server.Service
import Courier.Server.Session
import Courier.Settings.Basic
import Courier.Settings.Error
import Courier.Settings.Read
import Courier.Socket.Bind
import Courier.Socket.Path
import Courier.Supply
import Courier.Text.Blank
import Courier.Text.Property
import Courier.Text.Quoted
import Courier.Text.Utf8
import Courier.Verb.Builtin
import Courier.Verb.Scripted
import Courier.Verb.Table
import Courier.Wire.Codec
import Courier.Wire.Decoder
import Courier.Wire.Frame
import Courier.Wire.Head
import Courier.Wire.Line
import Courier.Yaml.Block
import Courier.Yaml.Cursor
import Courier.Yaml.Document
import Courier.Yaml.Error
import Courier.Yaml.Event
import Courier.Yaml.Folding
import Courier.Yaml.Page
import Courier.Yaml.Plain
import Courier.Yaml.Property
import Courier.Yaml.Quoted
import Courier.Yaml.Scalar
import Courier.Yaml.Token
import Courier.Yaml.Tokens
