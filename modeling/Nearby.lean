import Nearby.Branch.Basic
import Nearby.Branch.Document
import Nearby.Branch.Kind
import Nearby.Branch.Status
import Nearby.CommandLine.Arguments
import Nearby.CommandLine.Basic
import Nearby.Dataset.Document
import Nearby.Dataset.Format
import Nearby.Dataset.Reader
import Nearby.Dataset.Record
import Nearby.Decimal.Binary
import Nearby.Decimal.Fixed
import Nearby.Decimal.Numeral
import Nearby.Decimal.Shortest
import Nearby.Fault
import Nearby.Filter
import Nearby.Geo.Box
import Nearby.Geo.Coordinates
import Nearby.Geo.Envelope
import Nearby.Geo.Point
import Nearby.Geo.Scalar
import Nearby.Geo.Sphere
import Nearby.Json.Basic
import Nearby.Json.Number
import Nearby.Json.Printer
import Nearby.Json.Reader
import Nearby.Json.Record
import Nearby.Json.Token
import Nearby.Main
import Nearby.Program
import Nearby.Proofs.Bounds
import Nearby.Proofs.Branch.Document
import Nearby.Proofs.Dataset.Completion
import Nearby.Proofs.Dataset.Entries
import Nearby.Proofs.Dataset.Formats
import Nearby.Proofs.Dataset.Intake
import Nearby.Proofs.Dataset.Loading
import Nearby.Proofs.Dataset.Media
import Nearby.Proofs.Decimal.Arithmetic
import Nearby.Proofs.Decimal.Digits
import Nearby.Proofs.Decimal.Order
import Nearby.Proofs.Decimal.Rounding
import Nearby.Proofs.Decimal.Shortest
import Nearby.Proofs.Decimal.Sign
import Nearby.Proofs.Geo.Bearing
import Nearby.Proofs.Geo.Clamping
import Nearby.Proofs.Geo.Covering
import Nearby.Proofs.Geo.Envelope
import Nearby.Proofs.Geo.Metric
import Nearby.Proofs.Geo.Reals
import Nearby.Proofs.Json.Document
import Nearby.Proofs.Json.Number
import Nearby.Proofs.Json.Numeral
import Nearby.Proofs.Json.Reading
import Nearby.Proofs.Json.Scanning
import Nearby.Proofs.Json.Spelling
import Nearby.Proofs.Ranking
import Nearby.Proofs.Ranking.Selection
import Nearby.Proofs.Search.Agreement
import Nearby.Proofs.Search.Box
import Nearby.Proofs.Search.Compound
import Nearby.Proofs.Search.Failure
import Nearby.Proofs.Search.Nearest
import Nearby.Proofs.Search.Radius
import Nearby.Proofs.Search.Whole
import Nearby.Proofs.Search.Widening
import Nearby.Proofs.Settings.DataPath
import Nearby.Proofs.Store.Accounting
import Nearby.Proofs.Store.Circle
import Nearby.Proofs.Store.Contract
import Nearby.Proofs.Store.Registration
import Nearby.Proofs.Store.Registry
import Nearby.Proofs.Store.Session
import Nearby.Proofs.Store.Snapshot
import Nearby.Proofs.Table.Rows
import Nearby.Proofs.Text.Template
import Nearby.Proofs.Time.Written
import Nearby.Proofs.Toml.Reader
import Nearby.Proofs.Toml.Table
import Nearby.Proofs.Toml.Text
import Nearby.Ranking
import Nearby.Search.Basic
import Nearby.Search.Queries
import Nearby.Search.Settings
import Nearby.Settings.Basic
import Nearby.Settings.Check
import Nearby.Settings.Document
import Nearby.Store.Cache
import Nearby.Store.Memory
import Nearby.Store.Remote
import Nearby.Store.Source
import Nearby.Table.Rows
import Nearby.Text.Blank
import Nearby.Text.Template
import Nearby.Time.Clock
import Nearby.Time.Date
import Nearby.Time.Reader
import Nearby.Time.Timestamp
import Nearby.Time.Written
import Nearby.Toml.Reader
import Nearby.Toml.Scalar
import Nearby.Toml.Table
import Nearby.Toml.Text
import Nearby.Toml.Value
