import Semisweet.Foundations.Runs
import Semisweet.Foundations.Strip
import Semisweet.Foundations.Ranking
import Semisweet.Foundations.Maps
import Semisweet.Foundations.Delimited
import Semisweet.Foundations.Words
import Semisweet.Foundations.Loops
import Semisweet.Foundations.Files
import Semisweet.Foundations.Population
import Semisweet.Foundations.Locks
import Semisweet.Foundations.Varint
import Semisweet.Foundations.Codes
import Semisweet.Foundations.Records
import Semisweet.Foundations.Progress
import Semisweet.Core.Newtype
import Semisweet.Core.EntryHex
import Semisweet.Core.EntryBuffer
import Semisweet.Core.DiskPath
import Semisweet.Core.Scoring
import Semisweet.Core.VectorMemory
import Semisweet.Core.Bm25
import Semisweet.Core.Bm25Bounds
import Semisweet.Core.Bm25Rebuild
import Semisweet.Core.StoreHistory
import Semisweet.Core.Cache
import Semisweet.Core.ObjectDisk
import Semisweet.Core.CacheHistory
import Semisweet.Core.Faults
import Semisweet.Core.StoreIndex
import Semisweet.Core.OwnGates
import Semisweet.Core.Selection
import Semisweet.Core.ExactIdentity
import Semisweet.Core.Interleaving
import Semisweet.Core.Compression
import Semisweet.Core.ObjectS3
import Semisweet.Core.Config
import Semisweet.Core.TurbopufferUrl
import Semisweet.Core.TurbopufferQuery
import Semisweet.Core.TurbopufferFuse
import Semisweet.Core.TurbopufferRow
import Semisweet.Core.TurbopufferDims
import Semisweet.Core.TurbopufferService
import Semisweet.Core.TurbopufferRequest
import Semisweet.Core.VectorBackends
import Semisweet.Core.EntityBackends
import Semisweet.Core.OwnLookup
import Semisweet.Protocol.Messages
import Semisweet.Protocol.Framing
import Semisweet.Protocol.Encoding
import Semisweet.Protocol.Decoding
import Semisweet.Python.CacheQuery
import Semisweet.Python.QueryHash
import Semisweet.Python.Decorator
import Semisweet.Python.ValueSerde
import Semisweet.Python.Registration
import Semisweet.Client.Stub
import Semisweet.Client.Correlation
import Semisweet.Client.Reconnect
import Semisweet.Daemon.WriteBehind
import Semisweet.Daemon.Tokens
import Semisweet.Daemon.Stages
import Semisweet.Daemon.ShadowBuffer
import Semisweet.Daemon.Drain
import Semisweet.Daemon.Delete
import Semisweet.Daemon.Sequential
import Semisweet.Daemon.FailedDelete
import Semisweet.Daemon.Atomic
import Semisweet.Daemon.Origins
import Semisweet.Daemon.WriteQueue
import Semisweet.Daemon.Panics
import Semisweet.Daemon.Convergence
import Semisweet.Daemon.Inference
import Semisweet.Daemon.Connection
import Semisweet.Daemon.Supervisor
import Semisweet.Daemon.Refcount
import Semisweet.Daemon.Shutdown
import Semisweet.Daemon.Served
import Semisweet.Daemon.Registry
import Semisweet.Daemon.Isolation
import Semisweet.Daemon.Instance
import Semisweet.Client.Spawn
import Semisweet.Python.Shutdown
