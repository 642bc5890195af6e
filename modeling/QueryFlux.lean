import QueryFlux.Access.ColumnLists
import QueryFlux.Access.OpaResponse
import QueryFlux.Adbc.ScopedPools
import QueryFlux.Auth.AdminCredentials
import QueryFlux.Auth.Rights
import QueryFlux.Breaker.Runs
import QueryFlux.Cache.Key
import QueryFlux.Cache.Lifetime
import QueryFlux.Capacity.Leftovers
import QueryFlux.Clusters.Running
import QueryFlux.Clusters.Weighted
import QueryFlux.ConfigSync.Freshness
import QueryFlux.ConfigSync.RuntimeClusters
import QueryFlux.Dispatch.FairnessGate
import QueryFlux.Dispatch.GuardedSql
import QueryFlux.Executing.Ending
import QueryFlux.Guardrails.Globs
import QueryFlux.Guardrails.Stored
import QueryFlux.History.Digests
import QueryFlux.History.Uplink
import QueryFlux.Queued.Claims
import QueryFlux.Queued.Fate
import QueryFlux.Quota.Fixpoint
import QueryFlux.Quota.Reserve
import QueryFlux.Quota.Silence
import QueryFlux.Releases.Flushed
import QueryFlux.Routing.Chain
import QueryFlux.Routing.Compound
import QueryFlux.Routing.References
import QueryFlux.Routing.RoundTrip
import QueryFlux.Sink.Recorded
import QueryFlux.Sink.WellFormed
import QueryFlux.Slots.GivenBack
import QueryFlux.Snowflake.InFlight
import QueryFlux.Snowflake.NumericBindings
import QueryFlux.Snowflake.Selected
import QueryFlux.Snowflake.UseStatements
import QueryFlux.Sql.LeadingTrivia
import QueryFlux.Sql.Params
import QueryFlux.Trino.Base64
import QueryFlux.Trino.PollUrl
import QueryFlux.Trino.SessionTags
import QueryFlux.Wire.Identity
import QueryFlux.Wire.InOrder
import QueryFlux.Wire.PostgresDecoded
import QueryFlux.Wire.Slicing
import QueryFlux.Workers.OwnSite
import QueryFlux.Workers.Snapshot
