import IsolatedSite.AccessLog
import IsolatedSite.Calendar.Date
import IsolatedSite.Calendar.HttpDate
import IsolatedSite.Calendar.Instant
import IsolatedSite.Calendar.LogTime
import IsolatedSite.Calendar.MailDate
import IsolatedSite.Connection.Admission
import IsolatedSite.Connection.Exchange
import IsolatedSite.Connection.HeadReader
import IsolatedSite.Connection.Reads
import IsolatedSite.Connection.Rewind
import IsolatedSite.Document.Basic
import IsolatedSite.Document.Json
import IsolatedSite.Document.Toml
import IsolatedSite.Document.Toml.Scalar
import IsolatedSite.Document.Yaml
import IsolatedSite.Document.Yaml.Datum
import IsolatedSite.Document.Yaml.Flow
import IsolatedSite.Document.Yaml.Node
import IsolatedSite.Document.Yaml.Scalar
import IsolatedSite.Files.Change
import IsolatedSite.Files.OsError
import IsolatedSite.Files.Tree
import IsolatedSite.Http.Answer
import IsolatedSite.Http.ContentType
import IsolatedSite.Http.Fields
import IsolatedSite.Http.Head
import IsolatedSite.Http.Isolation
import IsolatedSite.Http.Rejection
import IsolatedSite.Http.Response
import IsolatedSite.Http.Scan
import IsolatedSite.Http.Status
import IsolatedSite.Http.Target
import IsolatedSite.Http.Token
import IsolatedSite.Layers.Environment
import IsolatedSite.Layers.KeyPath
import IsolatedSite.Layers.SettingsFile
import IsolatedSite.Layers.Value
import IsolatedSite.LogTargets
import IsolatedSite.Net.Address
import IsolatedSite.Net.AddressReader
import IsolatedSite.Net.Ports
import IsolatedSite.Notice
import IsolatedSite.Number.Binary64
import IsolatedSite.Number.Reading
import IsolatedSite.Number.Shortest
import IsolatedSite.Number.Thousandths
import IsolatedSite.Path
import IsolatedSite.Proofs.AccessRecords
import IsolatedSite.Proofs.AddressForms
import IsolatedSite.Proofs.AddressTexts
import IsolatedSite.Proofs.Answering
import IsolatedSite.Proofs.Arrivals
import IsolatedSite.Proofs.AsciiOctets
import IsolatedSite.Proofs.BodylessReplies
import IsolatedSite.Proofs.BoundedReading
import IsolatedSite.Proofs.CombinedLines
import IsolatedSite.Proofs.CommonLines
import IsolatedSite.Proofs.Containment
import IsolatedSite.Proofs.ContentLengths
import IsolatedSite.Proofs.Cutting
import IsolatedSite.Proofs.DateReading
import IsolatedSite.Proofs.DayNumbers
import IsolatedSite.Proofs.Decoding
import IsolatedSite.Proofs.DistinctKeys
import IsolatedSite.Proofs.Durations
import IsolatedSite.Proofs.ErrorLog
import IsolatedSite.Proofs.Escaping
import IsolatedSite.Proofs.FieldLists
import IsolatedSite.Proofs.FileAnswers
import IsolatedSite.Proofs.FileTypes
import IsolatedSite.Proofs.Framing
import IsolatedSite.Proofs.HeadAnswers
import IsolatedSite.Proofs.HeadBoundary
import IsolatedSite.Proofs.HeadLimit
import IsolatedSite.Proofs.HeadReading
import IsolatedSite.Proofs.HeadStability
import IsolatedSite.Proofs.IndexFiles
import IsolatedSite.Proofs.IsolatedFields
import IsolatedSite.Proofs.IsolationOnWire
import IsolatedSite.Proofs.JsonLines
import IsolatedSite.Proofs.JsonTexts
import IsolatedSite.Proofs.LaterVersions
import IsolatedSite.Proofs.Layering
import IsolatedSite.Proofs.LineBreaks
import IsolatedSite.Proofs.ListenAddresses
import IsolatedSite.Proofs.ListingLinks
import IsolatedSite.Proofs.ListingMarkup
import IsolatedSite.Proofs.ListingOrder
import IsolatedSite.Proofs.Locations
import IsolatedSite.Proofs.Members
import IsolatedSite.Proofs.Numerals
import IsolatedSite.Proofs.OneKey
import IsolatedSite.Proofs.OnePass
import IsolatedSite.Proofs.OutsideFiles
import IsolatedSite.Proofs.PathTranslation
import IsolatedSite.Proofs.PatternLines
import IsolatedSite.Proofs.PlainText
import IsolatedSite.Proofs.RawValues
import IsolatedSite.Proofs.Reachability
import IsolatedSite.Proofs.ReadingSteps
import IsolatedSite.Proofs.RealPaths
import IsolatedSite.Proofs.Redirects
import IsolatedSite.Proofs.Replay
import IsolatedSite.Proofs.RequestLines
import IsolatedSite.Proofs.Revalidation
import IsolatedSite.Proofs.Runs
import IsolatedSite.Proofs.SettingsKeys
import IsolatedSite.Proofs.SettledRedirects
import IsolatedSite.Proofs.SoundAnswers
import IsolatedSite.Proofs.Targets
import IsolatedSite.Proofs.TimeTexts
import IsolatedSite.Proofs.UrlPaths
import IsolatedSite.Proofs.VerbatimTexts
import IsolatedSite.Proofs.VersionAnswers
import IsolatedSite.Proofs.WellFormedOctets
import IsolatedSite.Proofs.WireForm
import IsolatedSite.Service
import IsolatedSite.Settings
import IsolatedSite.Settings.Fault
import IsolatedSite.Settings.Loading
import IsolatedSite.Settings.Reading
import IsolatedSite.Site.Freshness
import IsolatedSite.Site.Handling
import IsolatedSite.Site.Listing
import IsolatedSite.Site.Request
import IsolatedSite.Site.Serve
import IsolatedSite.Site.Translation
import IsolatedSite.Startup
import IsolatedSite.Text.Basic
import IsolatedSite.Text.Blank
import IsolatedSite.Text.CaseTable
import IsolatedSite.Text.Decimal
import IsolatedSite.Text.Hex
import IsolatedSite.Text.HiddenTable
import IsolatedSite.Text.Html
import IsolatedSite.Text.Lowercase
import IsolatedSite.Text.Percent
import IsolatedSite.Text.Quoted
import IsolatedSite.Text.Utf8
