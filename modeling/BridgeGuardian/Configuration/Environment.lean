import BridgeGuardian.Configuration.Basic
import BridgeGuardian.Configuration.EnvironmentFile
import BridgeGuardian.Coordinate

/-! # Configuration from the environment

    Each field has a variable.  Variables are looked at in a fixed order
    and the first one at fault is reported; only when all of them can be
    read is the configuration as a whole looked at. -/

namespace BridgeGuardian.Configuration

/-- Reading variables. -/
abbrev FromEnvironment := ReaderT Environment (Except ConfigurationFault)

/-- The value of a variable, if it is set. -/
def lookUp (name : String) : FromEnvironment (Option String) := fun env =>
  .ok (env.get? name)

/-- The value of a variable that has to be set. -/
def required (name : String) : FromEnvironment String := fun env =>
  match env.get? name with
  | some value => .ok value
  | none => .error (.unset name)

/-- A variable that holds a number. -/
def number {α : Type} (read : String → Except Text.NumeralFault α) (name : String) (default : α) :
    FromEnvironment α := fun env =>
  match env.get? name with
  | none => .ok default
  | some value => (read (Text.trim value)).mapError (.notNumber name)

/-- A variable that holds a socket address. -/
def address (name : String) (default : SocketAddress) : FromEnvironment SocketAddress := fun env =>
  match env.get? name with
  | none => .ok default
  | some value =>
      match SocketAddress.read? (Text.trim value) with
      | some address => .ok address
      | none => .error (.notAddress name)

/-- A variable that holds a list. -/
def items (name : String) : FromEnvironment (List String) := do
  return ((← lookUp name).map Text.listItems).getD []

/-- The section on the node. -/
def Node.fromEnvironment : FromEnvironment Node := do
  return {
    url := ← required "ALEPHIUM_NODE_URL"
    apiKey := (← lookUp "ALEPHIUM_API_KEY").filter fun key => !key.isEmpty
    contracts := ← items "ALEPHIUM_CONTRACTS"
    minConfirmations := ← number Text.readUInt64 "ALEPHIUM_MIN_CONFIRMATIONS" 0
    pollInterval := ← number Text.readUInt64 "ALEPHIUM_POLL_INTERVAL_MS" Default.pollInterval
    eventBatchSize := ← number Text.readUInt64 "ALEPHIUM_EVENT_BATCH_SIZE" Default.eventBatchSize
    requestTimeout := ← number Text.readUInt64 "ALEPHIUM_REQUEST_TIMEOUT_MS" Default.requestTimeout
  }

/-- The section on recovery. -/
def Recovery.fromEnvironment : FromEnvironment Recovery := do
  return {
    localChain := ← number Text.readUInt16 "LOCAL_CHAIN_ID" ChainId.alephium.id
    peers := ← items "BACKFILL_NODES"
    backfillTimeout := ← number Text.readUInt64 "BACKFILL_TIMEOUT_MS" Default.backfillTimeout
    pollAttempts := ← number Text.readUInt32 "VAA_POLL_ATTEMPTS" Default.vaaPollAttempts
    pollInterval := ← number Text.readUInt64 "VAA_POLL_INTERVAL_MS" Default.vaaPollInterval
  }

/-- The section on guardians. -/
def Guardian.fromEnvironment : FromEnvironment Guardian := do
  return {
    setIndex := ← number Text.readUInt32 "GUARDIAN_SET_INDEX" 0
    keys := Text.listItems (← required "GUARDIAN_KEYS")
    queueSize := ← number Text.readUInt64 "INGEST_QUEUE_SIZE" Default.queueSize
    cacheSize := ← number Text.readUInt64 "DEDUPE_CACHE_SIZE" Default.cacheSize
    cacheTimeToLive := ← number Text.readUInt64 "DEDUPE_CACHE_TTL_SECS" Default.cacheTimeToLive
  }

/-- The section on serving. -/
def Serving.fromEnvironment : FromEnvironment Serving := do
  return {
    address := ← Configuration.address "API_LISTEN_ADDR" Default.address
    adminAddress := ← Configuration.address "ADMIN_LISTEN_ADDR" Default.adminAddress
  }

/-- The variables as a configuration. -/
def fromVariables : FromEnvironment Configuration := do
  return {
    database := ⟨← required "DATABASE_URL"⟩
    node := ← Node.fromEnvironment
    recovery := ← Recovery.fromEnvironment
    guardian := ← Guardian.fromEnvironment
    serving := ← Serving.fromEnvironment
  }

/-- The configuration in an environment. -/
def ofEnvironment (env : Environment) : Except ConfigurationFault Configuration := do
  let c ← fromVariables env
  c.validate
  return c

/-- The path of the environment file. -/
def environmentPath : String := ".env"

/-- The configuration in an environment and the text of an environment
    file, if there is one. -/
def load (env : Environment) (file : Option String) : Except ConfigurationFault Configuration :=
  match file with
  | none => ofEnvironment env
  | some text =>
      match EnvironmentFile.apply env text with
      | some env => ofEnvironment env
      | none => .error (.environmentFile environmentPath)

end BridgeGuardian.Configuration
