import ServerFoundation.Database.ContainedOperations
import ServerFoundation.Database.HookOrder
import ServerFoundation.Database.MutationRecords
import ServerFoundation.Database.OwnRow
import ServerFoundation.Di.VisibilityRuns
import ServerFoundation.Http.FormOrder
import ServerFoundation.Http.PayloadRedaction
import ServerFoundation.Http.QueryRedaction
import ServerFoundation.Http.RequestObject
import ServerFoundation.Http.RequestRouting
import ServerFoundation.Leader.Election
import ServerFoundation.Mesh.CleanupObligations
import ServerFoundation.Mesh.LeaseRuns
import ServerFoundation.MeshClient.AuthNonce
import ServerFoundation.MeshClient.MetadataConvergence
import ServerFoundation.MeshClient.Registry.OrphanDelivery
import ServerFoundation.MeshClient.Registry.RefusedCommits
import ServerFoundation.MeshClient.TakeoverSafety
import ServerFoundation.MeshLink.DuplicateLinks
import ServerFoundation.MeshLink.NonceMemory
import ServerFoundation.MeshLink.ProofBinding
import ServerFoundation.MeshLink.RequestExecutions
import ServerFoundation.Migrations.FileReplay
import ServerFoundation.Migrations.Runner
import ServerFoundation.Mutex.DeadlockFreedom
import ServerFoundation.Mutex.RedisRelease
import ServerFoundation.Reflection.MetadataResolution
import ServerFoundation.Reflection.UnionDeserialization
import ServerFoundation.Schema.Builder
import ServerFoundation.Schema.DefaultCatalogue
import ServerFoundation.Schema.EntityIndexes
import ServerFoundation.Sql.FilterMeaning
import ServerFoundation.Sql.QueryBuilder
import ServerFoundation.Sql.ScannerAgreement
import ServerFoundation.Sql.TextIndependence
import ServerFoundation.Srpc.ActivationOrder
import ServerFoundation.Srpc.ByteStreamDelivery
import ServerFoundation.Srpc.ClientConnectionSafety
import ServerFoundation.Srpc.ClientCredentials
import ServerFoundation.Srpc.LegacySignature
import ServerFoundation.Srpc.Receipts
import ServerFoundation.Srpc.StreamRegistrySafety
import ServerFoundation.Srpc.TextTruncation
import ServerFoundation.TypeCompiler.Resolution
import ServerFoundation.Worker.CronMeaning
import ServerFoundation.Worker.PayloadCodec
import ServerFoundation.Worker.RecorderRuns
