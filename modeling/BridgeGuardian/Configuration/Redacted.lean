import BridgeGuardian.Configuration.Basic

/-! # Configuration without secrets

    In reports, what may hold a secret is replaced by a fixed text. -/

namespace BridgeGuardian.Configuration

/-- What stands for a secret. -/
def redacted : String := Text.quote "<redacted>"

/-- A record with its fields. -/
def showRecord (name : String) (fields : List (String × String)) : String :=
  let shown := fields.map fun f => f.1 ++ ": " ++ f.2
  name ++ " \x7b " ++ ", ".intercalate shown ++ " \x7d"

/-- Quoted texts in a list. -/
def showTexts (texts : List String) : String :=
  "[" ++ ", ".intercalate (texts.map Text.quote) ++ "]"

/-- The section on the database without its address. -/
def Database.report (_ : Database) : String := showRecord "DatabaseConfig" [("url", redacted)]

/-- The section on the node without its key. -/
def Node.report (n : Node) : String :=
  showRecord "AlephiumConfig" [
    ("node_url", Text.quote n.url),
    ("api_key", match n.apiKey with | none => "None" | some _ => "Some(" ++ redacted ++ ")"),
    ("contracts", showTexts n.contracts),
    ("min_confirmations", toString n.minConfirmations.toNat),
    ("poll_interval_ms", toString n.pollInterval.toNat),
    ("event_batch_size", toString n.eventBatchSize.toNat),
    ("request_timeout_ms", toString n.requestTimeout.toNat)]

end BridgeGuardian.Configuration
