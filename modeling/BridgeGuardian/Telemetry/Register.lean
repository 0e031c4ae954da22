import BridgeGuardian.Table
import BridgeGuardian.Telemetry.Magnitude
import BridgeGuardian.Telemetry.Measurement
import BridgeGuardian.Text.Quoted

/-! # The register — measurements added up, and how they are published

    Samples belong to families; within a family they are told apart by the
    values of its labels.  A counter only grows, a gauge shows the last
    value.  The published text lists the families that have samples, by
    name, and the samples of each by the values of their labels. -/

namespace BridgeGuardian

/-- Samples of one meaning. -/
inductive Family
  | backfillAttempts
  | eventIndex
  | eventsConfirmed
  | eventsDropped
  | governance
  | reconstructions
  | up
  | intake
  | watchCycles
deriving DecidableEq, Repr

namespace Family

/-- All families, by name. -/
def all : List Family :=
  [.backfillAttempts, .eventIndex, .eventsConfirmed, .eventsDropped, .governance,
   .reconstructions, .up, .intake, .watchCycles]

/-- The name of a family. -/
def name : Family → String
  | backfillAttempts => "guardian_recovery_backfill_attempts_total"
  | eventIndex => "guardian_recovery_event_index"
  | eventsConfirmed => "guardian_recovery_events_confirmed_total"
  | eventsDropped => "guardian_recovery_events_dropped_total"
  | governance => "guardian_recovery_governance_vaas_total"
  | reconstructions => "guardian_recovery_reconstructions_total"
  | up => "guardian_recovery_up"
  | intake => "guardian_recovery_vaas_ingested_total"
  | watchCycles => "guardian_recovery_watch_cycles_total"

/-- What the samples of a family mean. -/
def help : Family → String
  | backfillAttempts => "Peer backfill requests by outcome"
  | eventIndex => "Next event index to process"
  | eventsConfirmed => "Total number of confirmed contract events"
  | eventsDropped => "Total number of events dropped because their block left the main chain"
  | governance => "Governance VAAs constructed and submitted"
  | reconstructions => "Undone-transfer reconstructions by outcome"
  | up => "Whether the service is up and running"
  | intake => "Signed VAAs processed by the ingest worker by outcome"
  | watchCycles => "Total number of watch cycles by outcome"

/-- The labels of a family, by name. -/
def labels : Family → List String
  | backfillAttempts => ["chain", "outcome"]
  | eventIndex => ["contract"]
  | eventsConfirmed => ["contract"]
  | eventsDropped => ["contract"]
  | governance => ["kind"]
  | reconstructions => ["chain", "outcome"]
  | up => []
  | intake => ["outcome"]
  | watchCycles => ["contract", "status"]

/-- Whether a family shows last values and does not add up. -/
def isGauge : Family → Bool
  | eventIndex => true
  | up => true
  | _ => false

end Family

/-- A family with values for its labels. -/
structure SampleKey where
  family : Family
  values : List String
deriving DecidableEq, Repr

/-- The value of every sample. -/
abbrev Register := Table SampleKey Nat

/-- The sample a measurement belongs to, and its amount. -/
def Measurement.sample : Measurement → SampleKey × Nat
  | .watchCycle contract isOk => (⟨.watchCycles, [contract, if isOk then "ok" else "error"]⟩, 1)
  | .eventsConfirmed contract count => (⟨.eventsConfirmed, [contract]⟩, count)
  | .eventsDropped contract count => (⟨.eventsDropped, [contract]⟩, count)
  | .eventIndex contract index => (⟨.eventIndex, [contract]⟩, index.toNat)
  | .backfillAttempt chain outcome => (⟨.backfillAttempts, [toString chain, outcome.name]⟩, 1)
  | .reconstruction chain outcome => (⟨.reconstructions, [toString chain, outcome.name]⟩, 1)
  | .intake outcome => (⟨.intake, [outcome.name]⟩, 1)
  | .governance kind => (⟨.governance, [kind]⟩, 1)
  | .up isUp => (⟨.up, []⟩, if isUp then 1 else 0)

namespace Register

/-- The register of a service that has not begun to serve. -/
def initial : Register := [(⟨.up, []⟩, 0)]

/-- Take in a measurement. -/
def record (r : Register) (m : Measurement) : Register :=
  let (key, amount) := m.sample
  let before := if key.family.isGauge then 0 else (r.get? key).getD 0
  r.put key (Magnitude.round (before + Magnitude.round amount))

/-! ## Publishing -/

/-- Whether label values come before others or are the same. -/
def precedes : List String → List String → Bool
  | [], _ => true
  | _ :: _, [] => false
  | a :: as, b :: bs => if a = b then precedes as bs else a < b

/-- The samples of a family by the values of their labels. -/
def samplesOf (r : Register) (f : Family) : List (List String × Nat) :=
  ((r.filter fun sample => sample.1.family == f).map fun sample =>
    (sample.1.values, sample.2)).mergeSort fun a b => precedes a.1 b.1

/-- A character of a label value in the published text. -/
def publishedChar : Char → List Char
  | '\\' => ['\\', '\\']
  | '\n' => ['\\', 'n']
  | '"' => ['\\', '"']
  | c => [c]

/-- Label values between braces, unless there are none. -/
def publishedLabels (names values : List String) : String :=
  match names.zip values with
  | [] => ""
  | pairs =>
      let shown := pairs.map fun pair =>
        pair.1 ++ "=\"" ++ String.ofList (pair.2.toList.flatMap publishedChar) ++ "\""
      "\x7b" ++ ",".intercalate shown ++ "\x7d"

/-- The published text of a family. -/
def publishedFamily (f : Family) (samples : List (List String × Nat)) : String :=
  match samples with
  | [] => ""
  | samples =>
      let kind := if f.isGauge then "gauge" else "counter"
      let lines := samples.map fun sample =>
        f.name ++ publishedLabels f.labels sample.1 ++ " " ++ Magnitude.numeral sample.2 ++ "\n"
      s!"# HELP {f.name} {f.help}\n# TYPE {f.name} {kind}\n" ++ String.join lines

/-- The published text. -/
def publish (r : Register) : String :=
  String.join (Family.all.map fun f => publishedFamily f (r.samplesOf f))

/-- A sample's name with its quoted labels, by which operators look it
    up. -/
def sampleName (key : SampleKey) : String :=
  let shown := (key.family.labels.zip key.values).map fun pair =>
    pair.1 ++ "=" ++ Text.quote pair.2
  key.family.name ++ "\x7b" ++ ",".intercalate shown ++ "\x7d"

end Register

end BridgeGuardian
