import DbProxy.MemoryReplay
import DbProxy.MemoryTrades
import DbProxy.BacklogRepresentation
import DbProxy.BacklogAcceptance
import DbProxy.CacheRepairSafety
import DbProxy.OutboxDelivery
import DbProxy.ConnectionOrdering
import DbProxy.RedisEnqueueSink
import DbProxy.ReceiptLookup
import DbProxy.ReferenceStores
import DbProxy.MemoryConcurrency
import DbProxy.FlushQueue
import DbProxy.CanonicalForms
import DbProxy.ReferenceSnapshots
import DbProxy.TradeReceipts
import DbProxy.BatchSaves
import DbProxy.FlushPathSafety
import DbProxy.ClaimStatements
import DbProxy.ClientStream
import DbProxy.FlushCancellation
import DbProxy.FallbackAbandonment
import DbProxy.RepairDeadLetters
import DbProxy.CacheBatchScript
import DbProxy.BacklogBatchScripts
import DbProxy.OutboxClaims
import DbProxy.ReadFences
import DbProxy.CachedReadPositions
import DbProxy.SdkTradeAgreement
import DbProxy.BacklogEntries
import DbProxy.ConnectionParameters
import DbProxy.CompositeKeys
import DbProxy.WireRoundTrips
import DbProxy.Framing
import DbProxy.SendableEvents
import DbProxy.SdkTradeReceipts
import DbProxy.PublicationOutcomes
import DbProxy.ClientTimeouts
import DbProxy.RetryDelays
import DbProxy.SdkTextLimits
import DbProxy.ReadPool
import DbProxy.TransactionDeadlocks
import DbProxy.PostgresAgreement
import DbProxy.WireAgreement
import DbProxy.ReadGates
import DbProxy.ReceiptRetention
import DbProxy.SchemaMigrations
import DbProxy.TenantDeployment
import DbProxy.FallbackLeases
import DbProxy.ReadDiscipline
import DbProxy.ResponseDelivery
