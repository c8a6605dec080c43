import Candlestick.Main
import Candlestick.Token.Pool
import Candlestick.Proofs.Breakout.Scan
import Candlestick.Proofs.KeyLevels.InPlace
import Candlestick.Proofs.KeyLevels.Locality
import Candlestick.Proofs.Runner.Batch
import Candlestick.Proofs.Runner.Shape
import Candlestick.Proofs.Source.Nesting
import Candlestick.Proofs.Breakout.Rerun
import Candlestick.Proofs.Settings.Gates
import Candlestick.Proofs.Decimal.Digits
import Candlestick.Proofs.Decimal.Double
import Candlestick.Proofs.Decimal.Nearest
import Candlestick.Proofs.Decimal.Numeral
import Candlestick.Proofs.Decimal.Shortest
import Candlestick.Proofs.Files
import Candlestick.Proofs.Json.Number
import Candlestick.Proofs.Json.Quoted
import Candlestick.Proofs.Json.Sheet
import Candlestick.Proofs.Settings.History
import Candlestick.Proofs.Token.Families
import Candlestick.Proofs.KeyLevels.Prices
import Candlestick.Proofs.KeyLevels.Scaling
import Candlestick.Proofs.KeyLevels.Clusters
import Candlestick.Proofs.KeyLevels.Nearest
import Candlestick.Proofs.KeyLevels.Repetition
import Candlestick.Proofs.Instant.Calendar
import Candlestick.Proofs.Instant.Stamp
import Candlestick.Proofs.Json.Compact
import Candlestick.Proofs.Json.Records
import Candlestick.Proofs.Source.Archive
import Candlestick.Proofs.CommandLine
import Candlestick.Proofs.Positions
import Candlestick.Proofs.KeyLevels.Spacing
import Candlestick.Proofs.KeyLevels.Walk
import Candlestick.Proofs.Ema.Recurrence
import Candlestick.Proofs.Ema.Trends
import Candlestick.Proofs.Breakout.Motion
import Candlestick.Proofs.Source.History
import Candlestick.Proofs.Json.Row
import Candlestick.Proofs.Settings.Formats
