import BlueBird.Runtime.Registration
import BlueBird.Runtime.Ownership
import BlueBird.Runtime.TimerHeap
import BlueBird.Runtime.TimerDelay
import BlueBird.Runtime.PollerWait
import BlueBird.Http.Overflow
import BlueBird.Http.Fragmentation
import BlueBird.Http.Chunked
import BlueBird.Http.ResponseFraming
import BlueBird.Http.RoundTrip
import BlueBird.Http.Confinement
import BlueBird.Http.HeaderTable
import BlueBird.Http.FormBody
import BlueBird.Http.QueryString
import BlueBird.Http.Router
import BlueBird.Persist.ColumnOrder
import BlueBird.Persist.EntityStruct
import BlueBird.Persist.FileLoad
import BlueBird.Json.ObjectHistory
import BlueBird.Template.Denotation
import BlueBird.Template.Literal
import BlueBird.Encoding.Base64Decoding
import BlueBird.Encoding.Sha1
import BlueBird.WebSocket.Answer
import BlueBird.WebSocket.Bounds
import BlueBird.WebSocket.Codec
import BlueBird.WebSocket.Handshake
import BlueBird.WebSocket.Request
import BlueBird.WebSocket.HeaderCase
import BlueBird.WebSocket.Message
import BlueBird.WebSocket.Heartbeat
import BlueBird.WebSocket.ReadStepOrder
import BlueBird.WebSocket.ConnectCompletion
import BlueBird.Program.Runs
import BlueBird.Connection.ReadBuffer
import BlueBird.Connection.RequestDelivery
import BlueBird.Server.Pipeline
import BlueBird.Server.Accounting
import BlueBird.WebSocket.SendProgress
import BlueBird.Json.ArrayStorage
import BlueBird.Connection.ClientRead
import BlueBird.Connection.BufferOwnership
import BlueBird.Connection.ByteStream
import BlueBird.Connection.Serving
import BlueBird.Persist.JsonInsert
import BlueBird.Persist.JsonStore
import BlueBird.Persist.BackendAgreement
import BlueBird.Persist.Like
import BlueBird.Json.RoundTrip
import BlueBird.Json.Writes
import BlueBird.Json.Equality
import BlueBird.Json.Clone
import BlueBird.Codegen.Rendering
import BlueBird.Persist.KeyValueStore
import BlueBird.Persist.QueryApply
import BlueBird.Persist.PostgresPool
import BlueBird.Persist.StatementRows
import BlueBird.Persist.TextCopy
import BlueBird.Ledger.Concurrent
import BlueBird.Security.SessionHistory
import BlueBird.Ledger.PlanStates
import BlueBird.Ledger.Growth
import BlueBird.Security.Pbkdf2
import BlueBird.Security.Config
import BlueBird.Security.PasswordRoundTrip
import BlueBird.Config.EnvFile
import BlueBird.Server.Completion
import BlueBird.Runtime.BackendWaits
import BlueBird.Server.Metrics
import BlueBird.Connection.Accepting
import BlueBird.WebSocket.Conversation
import BlueBird.Persist.Postgres
import BlueBird.Persist.PostgresQuery
import BlueBird.Persist.PostgresStore
