import PlaidRuntime.ApiCalls
import PlaidRuntime.ApiFunctions
import PlaidRuntime.BigQueryText
import PlaidRuntime.CacheBackends
import PlaidRuntime.CascadeBudget
import PlaidRuntime.CodeSearch
import PlaidRuntime.DynamodbApi
import PlaidRuntime.DynamodbRoundtrip
import PlaidRuntime.EffectProgram
import PlaidRuntime.EntryPoint
import PlaidRuntime.ExecutionRounds
import PlaidRuntime.GeneratorLoss
import PlaidRuntime.GithubContents
import PlaidRuntime.InternalNamespaces
import PlaidRuntime.IntervalJobs
import PlaidRuntime.JwtPermits
import PlaidRuntime.LinkHeader
import PlaidRuntime.Loader
import PlaidRuntime.LockMonitor
import PlaidRuntime.LogbackCascade
import PlaidRuntime.LogbackMigration
import PlaidRuntime.LogbackPoll
import PlaidRuntime.LogbackShutdown
import PlaidRuntime.LookBack
import PlaidRuntime.ModuleLinking
import PlaidRuntime.ModuleSigning
import PlaidRuntime.NamedRequest
import PlaidRuntime.NodeSelection
import PlaidRuntime.NpmPaging
import PlaidRuntime.ParcelCustody
import PlaidRuntime.PerformanceReport
import PlaidRuntime.ProviderEquivalence
import PlaidRuntime.RelyGuarantee
import PlaidRuntime.ResponseAnswer
import PlaidRuntime.ResponseModes
import PlaidRuntime.RuntimeData
import PlaidRuntime.SecretInterpolation
import PlaidRuntime.SledMigration
import PlaidRuntime.SqsQueue
import PlaidRuntime.StlCache
import PlaidRuntime.StlErrors
import PlaidRuntime.StlMap
import PlaidRuntime.StorageInstances
import PlaidRuntime.StorageIsolation
import PlaidRuntime.StorageMigration
import PlaidRuntime.StorageQuota
import PlaidRuntime.ThreadPools
import PlaidRuntime.WebhookAnswers
import PlaidRuntime.WebhookBody
import PlaidRuntime.WebhookHandlers
import PlaidRuntime.WebhookMessages
import PlaidRuntime.WebhookServer
import PlaidRuntime.WebhookWaiting
import PlaidRuntime.WebsocketEndpoints
import PlaidRuntime.YubikeyOtp
import PlaidRuntime.AuditLogPages
import PlaidRuntime.JiraApi
import PlaidRuntime.LoggingThread
import PlaidRuntime.SecretsManager
import PlaidRuntime.StlListings
