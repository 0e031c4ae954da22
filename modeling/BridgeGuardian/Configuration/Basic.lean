import BridgeGuardian.Guardians
import BridgeGuardian.Text.SocketAddress

/-! # Configuration — how a guardian's services are set up

    Five sections, most of whose fields have a default.  Guardian keys are
    kept as they are written; `guardianSet` reads them. -/

namespace BridgeGuardian.Configuration

/-- Where the archive is kept. -/
structure Database where
  url : String
deriving DecidableEq, Repr

/-- The node, and what is watched through it. -/
structure Node where
  url : String
  apiKey : Option String
  contracts : List String
  minConfirmations : UInt64
  pollInterval : UInt64
  eventBatchSize : UInt64
  requestTimeout : UInt64
deriving DecidableEq, Repr

/-- How missing messages are recovered. -/
structure Recovery where
  localChain : UInt16
  peers : List String
  backfillTimeout : UInt64
  pollAttempts : UInt32
  pollInterval : UInt64
deriving DecidableEq, Repr

/-- Who the guardians are, and how their messages are taken in. -/
structure Guardian where
  setIndex : UInt32
  keys : List String
  queueSize : UInt64
  cacheSize : UInt64
  cacheTimeToLive : UInt64
deriving DecidableEq, Repr

/-- Where the services listen. -/
structure Serving where
  address : SocketAddress
  adminAddress : SocketAddress
deriving DecidableEq, Repr

namespace Default

/-- The time between watch cycles, in milliseconds. -/
def pollInterval : UInt64 := 10000

/-- The number of events asked for at a time. -/
def eventBatchSize : UInt64 := 100

/-- The time a request to the node may take, in milliseconds. -/
def requestTimeout : UInt64 := 10000

/-- The time peers may take together, in milliseconds. -/
def backfillTimeout : UInt64 := 1000

/-- How often to look for a submitted message. -/
def vaaPollAttempts : UInt32 := 15

/-- The time before each look, in milliseconds. -/
def vaaPollInterval : UInt64 := 5000

/-- The number of messages that may wait to be taken in. -/
def queueSize : UInt64 := 50

/-- The number of messages to be remembered. -/
def cacheSize : UInt64 := 100000

/-- How long messages are remembered, in seconds. -/
def cacheTimeToLive : UInt64 := 86400

/-- Where the public service listens. -/
def address : SocketAddress := ⟨.v4 0 0 0 0, 9090⟩

/-- Where the administrative service listens. -/
def adminAddress : SocketAddress := ⟨.v4 127 0 0 1, 9091⟩

end Default

end Configuration

/-- How a guardian's services are set up. -/
structure Configuration where
  database : Configuration.Database
  node : Configuration.Node
  recovery : Configuration.Recovery
  guardian : Configuration.Guardian
  serving : Configuration.Serving
deriving DecidableEq, Repr

/-- What is wrong with a configuration. -/
inductive ConfigurationFault
  | databaseUrl
  | nodeUrl
  | eventBatchSize
  | pollInterval
  | localChain
  | pollAttempts
  | noGuardians
  | guardianKey (index : Nat) (fault : Address.Fault)
  | sameAddress
  | queueSize
  /-- A variable is not set. -/
  | unset (name : String)
  /-- A variable holds no number in range. -/
  | notNumber (name : String) (fault : Text.NumeralFault)
  /-- A variable holds no socket address. -/
  | notAddress (name : String)
  /-- The environment file makes no sense. -/
  | environmentFile (path : String)
deriving DecidableEq, Repr

/-- The wording of a fault. -/
def ConfigurationFault.message : ConfigurationFault → String
  | .databaseUrl => "database.url cannot be empty"
  | .nodeUrl => "alephium.node_url must be an http(s) URL"
  | .eventBatchSize => "alephium.event_batch_size must be at least 1"
  | .pollInterval => "alephium.poll_interval_ms must be at least 1"
  | .localChain => "recovery.local_chain_id cannot be 0"
  | .pollAttempts => "recovery.vaa_poll_attempts must be at least 1"
  | .noGuardians => "guardian.guardian_keys cannot be empty"
  | .guardianKey index fault =>
      s!"GUARDIAN_KEYS entry {index} is not a valid address: {fault.message}"
  | .sameAddress => "api.admin_listen_addr must differ from api.listen_addr"
  | .queueSize => "guardian.ingest_queue_size must be at least 1"
  | .unset name => s!"{name} environment variable is required"
  | .notNumber name fault => s!"{name} must be a valid number: {fault.message}"
  | .notAddress name =>
      s!"{name} must be a socket address (host:port): invalid socket address syntax"
  | .environmentFile path => s!"Failed to load .env file from {path}"

namespace Configuration

/-- Read keys in order; `index` is the place of the first. -/
def readKeys : (index : Nat) → List String → Except ConfigurationFault (List Address)
  | _, [] => .ok []
  | index, key :: rest =>
      match Address.read key with
      | .error fault => .error (.guardianKey index fault)
      | .ok address => do
          let others ← readKeys (index + 1) rest
          return address :: others

/-- The configured guardian set. -/
def Guardian.guardianSet (g : Guardian) : Except ConfigurationFault GuardianSet := do
  let keys ← readKeys 0 g.keys
  return ⟨g.setIndex, keys⟩

/-- Whether a text starts like the address of a web service. -/
def isWebAddress (text : String) : Bool :=
  "http://".toList.isPrefixOf text.toList || "https://".toList.isPrefixOf text.toList

/-- Find the first fault, if any. -/
def validate (c : Configuration) : Except ConfigurationFault Unit :=
  if c.database.url.isEmpty then .error .databaseUrl
  else if !isWebAddress c.node.url then .error .nodeUrl
  else if c.node.eventBatchSize = 0 then .error .eventBatchSize
  else if c.node.pollInterval = 0 then .error .pollInterval
  else if c.recovery.localChain = 0 then .error .localChain
  else if c.recovery.pollAttempts = 0 then .error .pollAttempts
  else if c.guardian.keys.isEmpty then .error .noGuardians
  else match c.guardian.guardianSet with
    | .error fault => .error fault
    | .ok _ =>
        if c.serving.address = c.serving.adminAddress then .error .sameAddress
        else if c.guardian.queueSize = 0 then .error .queueSize
        else .ok ()

end Configuration

end BridgeGuardian
