import TickStream.Library.KeyedFold
import TickStream.Library.KeyedSum
import TickStream.Library.WatermarkMachine
import TickStream.Library.WeightedMean
import TickStream.Library.Relational
import TickStream.Library.Text
import TickStream.Library.TryEach
import TickStream.Library.ProducerClient
import TickStream.Library.DrainLoop
import TickStream.Library.Lines
import TickStream.Library.ActionRun
import TickStream.Python.Value
import TickStream.Python.Float
import TickStream.Python.Rounding
import TickStream.Python.RoundingError
import TickStream.Python.DoubleSum
import TickStream.Python.Arithmetic
import TickStream.Python.DateTime
import TickStream.Python.Calendar
import TickStream.Python.IsoText
import TickStream.Config
import TickStream.Schema
import TickStream.Wire
import TickStream.Producer.Dumps
import TickStream.Producer.Normalize
import TickStream.Producer.Recursion
import TickStream.Producer.Records
import TickStream.Producer.Totality
import TickStream.Producer.Offers
import TickStream.Producer.Isolation
import TickStream.Producer.Publisher
import TickStream.Producer.Recording
import TickStream.Producer.Replay
import TickStream.Producer.Delivery
import TickStream.Producer.ReplayGate
import TickStream.Producer.Backoff
import TickStream.Producer.Service
import TickStream.Producer.Payloads
import TickStream.Producer.Reconnect
import TickStream.Producer.Outage
import TickStream.Producer.RecordReplay
import TickStream.Processing.Metrics
import TickStream.Processing.Seconds
import TickStream.Processing.Doubles
import TickStream.Processing.Accumulator
import TickStream.Processing.WindowSpec
import TickStream.Processing.MarketRange
import TickStream.Processing.Arrival
import TickStream.Processing.Finality
import TickStream.Processing.Rollup
import TickStream.Processing.App
import TickStream.Processing.Refinement
import TickStream.Processing.Clock
import TickStream.Processing.Streamed
import TickStream.Dbt.Silver
import TickStream.Dbt.Gold
import TickStream.Dbt.GoldReference
import TickStream.Dbt.Dedup
import TickStream.Dbt.Tests
import TickStream.Quality.Contract
import TickStream.Quality.Split
import TickStream.Quality.Ingest
import TickStream.Quality.Sla
import TickStream.Quality.Ordering
import TickStream.Quality.GoldInvariants
import TickStream.Quality.GoldGate
import TickStream.Quality.Completeness
import TickStream.StreamingBatch
import TickStream.Lake.Sinks
import TickStream.Pipeline
import TickStream.Lake.Clearing
import TickStream.Bucketing
import TickStream.Timestamps
import TickStream.Dbt.Epoch
import TickStream.Dbt.GoldDoubles
import TickStream.Quality.Baseline
import TickStream.Quality.CompletenessGate
import TickStream.Library.TopicLog
import TickStream.Library.KeyOrder
import TickStream.Library.SnapshotTable
import TickStream.Processing.Partitioned
import TickStream.Broker
import TickStream.EndToEnd
import TickStream.Lake.Iceberg
import TickStream.Library.Registry
import TickStream.TopicAdmin
import TickStream.Library.OrderedQuery
import TickStream.Query.Duck
import TickStream.Query.Summary
import TickStream.Producer.Frames
import TickStream.Library.Fallback
import TickStream.Producer.Record
import TickStream.Demo
import TickStream.Library.Percentile
import TickStream.Quality.Latency
import TickStream.Dbt.Restamp
import TickStream.Reproducible
import TickStream.Quality.Landed
import TickStream.Quality.Verdict
import TickStream.Agreement
import TickStream.Lake.Live
