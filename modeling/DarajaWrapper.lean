import DarajaWrapper.Daraja.Breaker
import DarajaWrapper.Daraja.FailureCount
import DarajaWrapper.Daraja.Password
import DarajaWrapper.Daraja.Query
import DarajaWrapper.Daraja.StaleToken
import DarajaWrapper.Main.Exposure
import DarajaWrapper.Main.Stack
import DarajaWrapper.Main.Validation
import DarajaWrapper.Middleware.ApiKey
import DarajaWrapper.Middleware.ClockSkew
import DarajaWrapper.Middleware.IpAllowlist
import DarajaWrapper.Middleware.StkLimit
import DarajaWrapper.Observability
import DarajaWrapper.Repository.Checksum
import DarajaWrapper.Routes.StkCallback
import DarajaWrapper.Services.TransactionDate
import DarajaWrapper.System.Answers
import DarajaWrapper.System.Attempts
import DarajaWrapper.System.AuditTrail
import DarajaWrapper.System.Conflict
import DarajaWrapper.System.Dispatch
import DarajaWrapper.System.Freshness
import DarajaWrapper.System.Lock
import DarajaWrapper.System.Outcome
import DarajaWrapper.System.Polling
import DarajaWrapper.System.Progress
import DarajaWrapper.System.Race
import DarajaWrapper.System.Recorded
import DarajaWrapper.System.RedisText
import DarajaWrapper.System.Release
import DarajaWrapper.System.Replay
import DarajaWrapper.System.Settlement
import DarajaWrapper.System.Sweep
import DarajaWrapper.System.TokenCache
import DarajaWrapper.System.TokenProgress
import DarajaWrapper.System.TokenRefresh
import DarajaWrapper.Tasks.DeadLetter
import DarajaWrapper.Tasks.StkTasks
