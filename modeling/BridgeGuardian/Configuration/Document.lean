import BridgeGuardian.Configuration.Basic
import BridgeGuardian.Coordinate
import BridgeGuardian.Json.Shape

/-! # Configuration in JSON

    All five sections have to be there; of their fields only the addresses
    of the database and the node and the guardian keys. -/

namespace BridgeGuardian.Configuration

open Json (Shape)
open Json.Shape

/-- A socket address. -/
def socketAddress : Shape SocketAddress := refine text SocketAddress.read?

/-- The shape of the section on the database. -/
def Database.shape : Shape Database :=
  record [slot "url" text] fun found => do
    return ⟨← found.required "url" text⟩

/-- The shape of the section on the node. -/
def Node.shape : Shape Node :=
  record [slot "node_url" text, slot "api_key" (optional text), slot "contracts" (list text),
      slot "min_confirmations" uint64, slot "poll_interval_ms" uint64,
      slot "event_batch_size" uint64, slot "request_timeout_ms" uint64] fun found => do
    return ⟨← found.required "node_url" text,
      ← found.withDefault "api_key" (optional text) none,
      ← found.withDefault "contracts" (list text) [],
      ← found.withDefault "min_confirmations" uint64 0,
      ← found.withDefault "poll_interval_ms" uint64 Default.pollInterval,
      ← found.withDefault "event_batch_size" uint64 Default.eventBatchSize,
      ← found.withDefault "request_timeout_ms" uint64 Default.requestTimeout⟩

/-- The shape of the section on recovery. -/
def Recovery.shape : Shape Recovery :=
  record [slot "local_chain_id" uint16, slot "backfill_nodes" (list text),
      slot "backfill_timeout_ms" uint64, slot "vaa_poll_attempts" uint32,
      slot "vaa_poll_interval_ms" uint64] fun found => do
    return ⟨← found.withDefault "local_chain_id" uint16 ChainId.alephium.id,
      ← found.withDefault "backfill_nodes" (list text) [],
      ← found.withDefault "backfill_timeout_ms" uint64 Default.backfillTimeout,
      ← found.withDefault "vaa_poll_attempts" uint32 Default.vaaPollAttempts,
      ← found.withDefault "vaa_poll_interval_ms" uint64 Default.vaaPollInterval⟩

/-- The shape of the section on guardians. -/
def Guardian.shape : Shape Guardian :=
  record [slot "guardian_set_index" uint32, slot "guardian_keys" (list text),
      slot "ingest_queue_size" uint64, slot "dedupe_cache_size" uint64,
      slot "dedupe_cache_ttl_secs" uint64] fun found => do
    return ⟨← found.withDefault "guardian_set_index" uint32 0,
      ← found.required "guardian_keys" (list text),
      ← found.withDefault "ingest_queue_size" uint64 Default.queueSize,
      ← found.withDefault "dedupe_cache_size" uint64 Default.cacheSize,
      ← found.withDefault "dedupe_cache_ttl_secs" uint64 Default.cacheTimeToLive⟩

/-- The shape of the section on serving. -/
def Serving.shape : Shape Serving :=
  record [slot "listen_addr" socketAddress, slot "admin_listen_addr" socketAddress]
    fun found => do
      return ⟨← found.withDefault "listen_addr" socketAddress Default.address,
        ← found.withDefault "admin_listen_addr" socketAddress Default.adminAddress⟩

/-- The shape of a configuration. -/
def shape : Shape Configuration :=
  record [slot "database" Database.shape, slot "alephium" Node.shape,
      slot "recovery" Recovery.shape, slot "guardian" Guardian.shape, slot "api" Serving.shape]
    fun found => do
      return ⟨← found.required "database" Database.shape, ← found.required "alephium" Node.shape,
        ← found.required "recovery" Recovery.shape, ← found.required "guardian" Guardian.shape,
        ← found.required "api" Serving.shape⟩

end BridgeGuardian.Configuration
