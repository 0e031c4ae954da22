import BridgeGuardian.Http.Public
import BridgeGuardian.Intake

/-! # A deployment — one guardian's services on one storage

    The services share a storage, a register of measurements and two
    queues.  What comes from outside is given by functions: what the
    network replies, and whether the caller has withdrawn the request.
    Time stands still, so nothing expires unless the network says so. -/

namespace BridgeGuardian

/-- Where submitted messages go. -/
inductive IntakeQueue
  /-- They wait to be read; without a capacity there is always room. -/
  | waiting (capacity : Option Nat) (messages : List Bytes)
  /-- A worker deals with each as it comes. -/
  | worked (desk : IntakeDesk)
  /-- Nobody takes them. -/
  | closed

/-- Where governance messages go. -/
inductive GovernanceQueue
  | waiting (messages : List Vaa)
  | closed
deriving DecidableEq, Repr

/-- What the network replies to a request for an address. -/
abbrev Network := String → NetworkReply

/-- A network on which nothing can be reached. -/
def Network.down : Network := fun _ => .error .failed

/-- The services of one guardian and what they have come to. -/
structure Deployment where
  storage : Storage
  register : Register
  /-- A worker that is handed messages directly. -/
  desk : IntakeDesk
  intake : IntakeQueue
  governance : GovernanceQueue
  admin : Http.AdminService
  contracts : List String
  network : Network
  /-- Whether the request at hand has been withdrawn. -/
  isCancelled : Bool

namespace Deployment

/-- The time. -/
def now : Nat := 0

/-- Take in a measurement. -/
def record (d : Deployment) (m : Measurement) : Deployment :=
  { d with register := d.register.record m }

/-- How a worker counts what it dealt with. -/
def intakeOutcome : Except Failure Receipt → IntakeOutcome
  | .ok .stored => .stored
  | .ok .duplicate => .duplicate
  | .error _ => .rejected

/-- Hand a message to the intake queue.  Where there is no room, only a
    withdrawn request ends the waiting. -/
def submit (d : Deployment) (message : Bytes) : Submission × Deployment :=
  match d.intake with
  | .closed => (.closed, d)
  | .waiting capacity messages =>
      if capacity.any fun c => c ≤ messages.length then (.cancelled, d)
      else (.accepted, { d with intake := .waiting capacity (messages ++ [message]) })
  | .worked desk =>
      let ((outcome, desk), storage) := desk.processInto now d.storage message
      let d := { d with storage, intake := .worked desk }
      (.accepted, d.record (.intake (intakeOutcome outcome)))

/-- Hand a message to the governance queue. -/
def announce (d : Deployment) (vaa : Vaa) : Bool × Deployment :=
  match d.governance with
  | .closed => (false, d)
  | .waiting messages => (true, { d with governance := .waiting (messages ++ [vaa]) })

/-- Answer what a service asks. -/
def answer (d : Deployment) : (q : Surroundings.Query) → q.Answer × Deployment
  | .store q =>
      let (answer, storage) := d.storage.answer q
      (answer, { d with storage })
  | .now => (now, d)
  | .peerOrder peers => (⟨peers, .refl peers⟩, d)
  | .fetch url _ => (if d.isCancelled then .error .cancelled else d.network url, d)
  | .submit message => d.submit message
  | .announce vaa => d.announce vaa
  | .pause _ => (if d.isCancelled then .cancelled else .elapsed, d)
  | .isCancelled => (d.isCancelled, d)
  | .nonce => (0, d)
  | .record m => ((), d.record m)

/-- Let a service do its work. -/
def run {α : Type} (d : Deployment) (program : Program Surroundings α) : α × Deployment :=
  program.run answer d

/-- Let a service answer a request, which may have been withdrawn before. -/
def request {α : Type} (d : Deployment) (isCancelled : Bool) (task : Work α) :
    Except Failure α × Deployment :=
  let (outcome, d) := { d with isCancelled }.run task.outcome
  (outcome, { d with isCancelled := false })

/-- Ask storage directly. -/
def ask (d : Deployment) (q : StoreQuery) : Except StoreFault q.Result × Deployment :=
  let (answer, storage) := d.storage.answer q
  (answer, { d with storage })

/-- Hand a message to the worker that is asked directly. -/
def process (d : Deployment) (message : Bytes) : Except Failure Receipt × Deployment :=
  let ((outcome, desk), storage) := d.desk.processInto now d.storage message
  (outcome, { d with storage, desk })

/-- Take the messages out of the intake queue; a worker leaves none. -/
def drainIntake (d : Deployment) : List Bytes × Deployment :=
  match d.intake with
  | .waiting capacity messages => (messages, { d with intake := .waiting capacity [] })
  | _ => ([], d)

/-- Take the messages out of the governance queue. -/
def drainGovernance (d : Deployment) : List Vaa × Deployment :=
  match d.governance with
  | .waiting messages => (messages, { d with governance := .waiting [] })
  | .closed => ([], d)

/-- Stop the worker; nobody takes messages any more. -/
def stopWorker (d : Deployment) : Deployment :=
  match d.intake with
  | .worked _ => { d with intake := .closed }
  | _ => d

/-- Start the public service and stop it again. -/
def servePublic (d : Deployment) : Deployment := (d.record (.up true)).record (.up false)

/-- Answer a request to the administrative service, which may be shutting
    down. -/
def administer (d : Deployment) (isCancelled : Bool) (request : Http.Request) :
    Http.Response × Deployment :=
  let (response, d) := { d with isCancelled }.run (d.admin.answer request)
  (response, { d with isCancelled := false })

/-- Answer a request to the public service. -/
def inform (d : Deployment) (request : Http.Request) : Http.Response × Deployment :=
  d.run (Http.Public.answer d.contracts d.register request)

end Deployment

end BridgeGuardian
