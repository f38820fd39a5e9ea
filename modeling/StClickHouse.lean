import StClickHouse.Sync.Discard
import StClickHouse.Buffer.Framing
import StClickHouse.Async.RawInStep
import StClickHouse.Pool.Addresses
import StClickHouse.Pool.Acquire
import StClickHouse.Async.Announced
import StClickHouse.LowCardinality.Lookup
import StClickHouse.Transport.ChunkedReader
import StClickHouse.Column.RoundTrip
import StClickHouse.Sync.StreamEnd
import StClickHouse.Query.Negotiated
import StClickHouse.Sync.IdentifierPath
import StClickHouse.Pool.Waiting
import StClickHouse.Query.Budget
import StClickHouse.Python.ExactlyOnce
import StClickHouse.Sync.SharedSocket
import StClickHouse.Python.Recycling
import StClickHouse.Wire.Varints
import StClickHouse.Python.Reclaim
import StClickHouse.Python.Settings
import StClickHouse.Python.Wakeups
import StClickHouse.Query.Parameters
import StClickHouse.Async.SchemaCache
import StClickHouse.Query.QueryId
import StClickHouse.Query.Retry
import StClickHouse.Sync.Vectored
import StClickHouse.Sync.Watchdog
