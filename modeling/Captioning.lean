import Captioning.Bytes.Base64
import Captioning.Bytes.Utf8
import Captioning.Catalog.Basic
import Captioning.Catalog.Entry
import Captioning.Catalog.Fault
import Captioning.Catalog.Manifest
import Captioning.Catalog.Sources
import Captioning.Catalog.Table
import Captioning.Command.Arguments
import Captioning.Command.Fault
import Captioning.Command.Run
import Captioning.Decimal.Double
import Captioning.Decimal.Layout
import Captioning.Decimal.Scan
import Captioning.Decimal.Shortest
import Captioning.Description
import Captioning.Files.Change
import Captioning.Files.Fault
import Captioning.Files.Path
import Captioning.Files.Tree
import Captioning.Image.Anymap
import Captioning.Image.Bitmap
import Captioning.Image.Bitmap.RunLength
import Captioning.Image.Bits
import Captioning.Image.Checksum
import Captioning.Image.Chunk
import Captioning.Image.Fault
import Captioning.Image.Format
import Captioning.Image.Gif
import Captioning.Image.Inflate
import Captioning.Image.Library
import Captioning.Image.Lzw
import Captioning.Image.Png.Animation
import Captioning.Image.Png.Head
import Captioning.Image.Png.Pixels
import Captioning.Image.Png.Writer
import Captioning.Image.PrefixCode
import Captioning.Image.Raster
import Captioning.Image.Resize
import Captioning.Image.Webp.Container
import Captioning.Image.Webp.Entropy
import Captioning.Image.Webp.Lossless
import Captioning.Item
import Captioning.Job.Context
import Captioning.Job.Fault
import Captioning.Job.Pipeline
import Captioning.Job.Report
import Captioning.Job.Step
import Captioning.Job.Steps
import Captioning.Job.Timed
import Captioning.Json.Draft
import Captioning.Json.Fault
import Captioning.Json.Numeral
import Captioning.Json.Reader
import Captioning.Json.Value
import Captioning.Locate.Address
import Captioning.Locate.Locators
import Captioning.Locate.Media
import Captioning.Main
import Captioning.Model.Client
import Captioning.Model.Fault
import Captioning.Model.Fence
import Captioning.Model.Prompt
import Captioning.Model.Service
import Captioning.Network.Exchange
import Captioning.Network.Host
import Captioning.Network.Punycode
import Captioning.Network.StandIns
import Captioning.Network.Url
import Captioning.Proofs.AnswerContent
import Captioning.Proofs.AppendHistory
import Captioning.Proofs.AtomicSaves
import Captioning.Proofs.Attempts
import Captioning.Proofs.Base64
import Captioning.Proofs.CatalogMarks
import Captioning.Proofs.CommandSessions
import Captioning.Proofs.CutLogs
import Captioning.Proofs.DecimalDigits
import Captioning.Proofs.DirectoryPlaces
import Captioning.Proofs.ExtendedLogs
import Captioning.Proofs.FencedAnswers
import Captioning.Proofs.FetchedMedia
import Captioning.Proofs.FittedPictures
import Captioning.Proofs.FlagsAfterCrash
import Captioning.Proofs.FoundSources
import Captioning.Proofs.InstantText
import Captioning.Proofs.JobOutcomes
import Captioning.Proofs.JsonFields
import Captioning.Proofs.JsonGrammar
import Captioning.Proofs.JsonLiteral
import Captioning.Proofs.JsonReading
import Captioning.Proofs.JsonSpelling
import Captioning.Proofs.JsonSteps
import Captioning.Proofs.JsonTrees
import Captioning.Proofs.JsonValues
import Captioning.Proofs.JsonWhole
import Captioning.Proofs.JsonWriting
import Captioning.Proofs.KeptFlags
import Captioning.Proofs.LimitedRuns
import Captioning.Proofs.ListedSources
import Captioning.Proofs.LogFiles
import Captioning.Proofs.ManifestText
import Captioning.Proofs.MarkedEntries
import Captioning.Proofs.MarkedIdentities
import Captioning.Proofs.RecordLine
import Captioning.Proofs.RecordRows
import Captioning.Proofs.RecordText
import Captioning.Proofs.RecordedTimes
import Captioning.Proofs.RelocatedAddresses
import Captioning.Proofs.RelocatedHosts
import Captioning.Proofs.RemovedItems
import Captioning.Proofs.ReplacedTexts
import Captioning.Proofs.ReportedProgress
import Captioning.Proofs.RequestBodies
import Captioning.Proofs.ResumedLogs
import Captioning.Proofs.RunAccounts
import Captioning.Proofs.RunHistory
import Captioning.Proofs.RunOrder
import Captioning.Proofs.RunTimeline
import Captioning.Proofs.SampledClips
import Captioning.Proofs.SampledFrames
import Captioning.Proofs.SampledMoments
import Captioning.Proofs.SampledPositions
import Captioning.Proofs.ScheduledEntries
import Captioning.Proofs.ScheduledQueue
import Captioning.Proofs.ServiceAnswers
import Captioning.Proofs.Sessions
import Captioning.Proofs.SetupFaults
import Captioning.Proofs.SourceFiles
import Captioning.Proofs.SourcesInTurn
import Captioning.Proofs.StoredLines
import Captioning.Proofs.StoredMarks
import Captioning.Proofs.TableText
import Captioning.Proofs.TornLines
import Captioning.Proofs.Utf8
import Captioning.Proofs.WrittenAddresses
import Captioning.Record
import Captioning.RecordLog.Basic
import Captioning.RecordLog.Scan
import Captioning.RecordLog.SkipSet
import Captioning.Run.Account
import Captioning.Run.Basic
import Captioning.Run.Counters
import Captioning.Run.Progress
import Captioning.Run.Queue
import Captioning.Run.Reporter
import Captioning.Run.State
import Captioning.Run.Summary
import Captioning.Run.Timeline
import Captioning.Sampling.Animated
import Captioning.Sampling.Bench
import Captioning.Sampling.Encode
import Captioning.Sampling.Fit
import Captioning.Sampling.Frame
import Captioning.Sampling.Plan
import Captioning.Sampling.Probe
import Captioning.Sampling.Sampler
import Captioning.Sampling.Table
import Captioning.Sampling.Tools
import Captioning.Sampling.Video
import Captioning.Settings.Basic
import Captioning.Settings.Load
import Captioning.Settings.Read
import Captioning.Text.Blank
import Captioning.Text.Hex
import Captioning.Text.Lines
import Captioning.Text.Printable
import Captioning.Text.Quoted
import Captioning.Text.Replace
import Captioning.Time.Instant
import Captioning.Time.Span
import Captioning.Toml.Document
import Captioning.Toml.Reader
import Captioning.Toml.Scan
