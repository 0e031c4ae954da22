import BridgeGuardian.Http.Admin
import BridgeGuardian.Proofs.Governance.Written
import BridgeGuardian.Proofs.Recovery.Undo
import BridgeGuardian.Proofs.Site.Claimed

/-! # Handing a message over — what is returned can be injected

    Undoing a transfer returns a governance message as JSON, which an
    operator then posts to have it injected.  On the way nothing is lost:
    the message is written as it is read, so the guardians are asked to sign
    the payload that was returned, with its numbers, and the digest in the
    answer is the one they sign. -/

namespace BridgeGuardian

open Program
open Json (IsExact)

/-! ## Returning a message -/

namespace Recovery

/-- What undoing a transfer comes to is the order to undo it. -/
theorem exists_request_of_undoTransfer {s : Settings} {request : UndoRequest}
    {t : Transcript Surroundings} {m : GovernanceMessage}
    (h : Yields (undoTransfer s request).run t (.ok m)) :
    ∃ level payload, m.request = .undoneTransfer level payload := by
  rcases undoTransfer_cases h with ⟨-, failure, hfailure⟩ | ⟨e, i, t₁, t₂, r, -, -, -, hissued⟩
  · cases hfailure
  · cases hissued with
    | won nonce => exact ⟨_, _, rfl⟩

end Recovery

namespace Http

theorem Response.status_ofFailure_ne (failure : Failure) : (ofFailure failure).status ≠ 200 := by
  show failure.kind.status ≠ 200
  cases failure.kind <;> decide

/-- A value is returned only for an outcome. -/
theorem Response.exists_of_ofOutcome {α : Type} {toJson : α → Json} {outcome : Except Failure α}
    {v : Json} (h : ofOutcome toJson outcome = ⟨200, .json v⟩) :
    ∃ a, outcome = .ok a ∧ v = toJson a := by
  cases outcome with
  | error failure =>
      have hstatus : (ofFailure failure).status = 200 := congrArg Response.status h
      exact absurd hstatus (Response.status_ofFailure_ne failure)
  | ok a =>
      cases h
      exact ⟨a, rfl, rfl⟩

namespace AdminService

/-- The address of requests to undo a transfer. -/
def undoPath : String := "/v1/admin/undone_transfer"

/-- The address of requests to inject governance messages. -/
def injectionPath : String := "/v1/admin/inject_governance_vaa"

theorem answer_of_undoPath {request : Request} (h : Path.ofTarget request.target = undoPath)
    (s : AdminService) :
    s.answer request = onPost request (withBody UndoRequest.shape request s.undoTransfer) := by
  rw [answer, h]
  rfl

theorem answer_of_injectionPath {request : Request}
    (h : Path.ofTarget request.target = injectionPath) (s : AdminService) :
    s.answer request = onPost request (withBody InjectionRequest.shape request s.inject) := by
  rw [answer, h]
  rfl

/-- A value comes from a request that could be read. -/
theorem exists_of_yields_onPost {α : Type} {shape : Json.Shape α} {request : Request}
    {handle : α → Program Surroundings Response} {t : Transcript Surroundings} {v : Json}
    (h : Yields (onPost request (withBody shape request handle)) t ⟨200, .json v⟩) :
    ∃ a, Yields (handle a) t ⟨200, .json v⟩ := by
  -- whatever is refused is refused without a word
  have hbare : ∀ {status}, ¬ Yields (pure (.bare status) : Program Surroundings Response) t
      ⟨200, .json v⟩ := by
    intro status hbare
    cases (yields_done_iff.mp hbare).2
  rw [onPost] at h
  by_cases hmethod : request.method = "POST"
  · rw [if_pos hmethod, withBody] at h
    by_cases hdeclared : request.contentType.any MediaType.isJson = true
    · rw [if_pos hdeclared] at h
      cases hdecode : Json.decode shape request.body with
      | ok a =>
          rw [hdecode] at h
          exact ⟨a, h⟩
      | error fault =>
          rw [hdecode] at h
          cases fault with
          | illFormed => exact absurd h hbare
          | mismatch => exact absurd h hbare
    · rw [if_neg hdeclared] at h
      exact absurd h hbare
  · rw [if_neg hmethod] at h
    exact absurd h hbare

/-- The message that is returned undoes a transfer. -/
theorem exists_message_of_answer {s : AdminService} {request : Request}
    {t : Transcript Surroundings} {v : Json} (hpath : Path.ofTarget request.target = undoPath)
    (h : Yields (s.answer request) t ⟨200, .json v⟩) :
    ∃ (m : GovernanceMessage) (level : UInt8) (payload : Bytes),
      v = m.toJson ∧ m.request = .undoneTransfer level payload := by
  rw [answer_of_undoPath hpath] at h
  obtain ⟨undo, h⟩ := exists_of_yields_onPost h
  obtain ⟨outcome, t₁, t₂, rfl, houtcome, hresponse⟩ := yields_bind_iff.mp h
  obtain ⟨rfl, hvalue⟩ := yields_done_iff.mp hresponse
  obtain ⟨m, rfl, rfl⟩ := Response.exists_of_ofOutcome hvalue.symm
  obtain ⟨level, payload, hm⟩ := Recovery.exists_request_of_undoTransfer houtcome
  exact ⟨m, level, payload, rfl, hm⟩

/-! ## Posting it -/

/-- The value of a request to inject one message, under a set or under the
    one that is configured. -/
def injectionBody (v : Json) (index : Option UInt32) : Json :=
  .record (("messages", .array [v]) ::
    (index.map fun i => ("current_set_index", Json.nat i.toNat)).toList)

/-- A request posts a value to be injected. -/
structure PostsInjection (v : Json) (index : Option UInt32) (request : Request) : Prop where
  method : request.method = "POST"
  path : Path.ofTarget request.target = injectionPath
  declared : request.contentType.any MediaType.isJson = true
  body : request.body = Json.print (injectionBody v index)

theorem isExact_injectionBody {v : Json} (h : IsExact v) (index : Option UInt32) :
    IsExact (injectionBody v index) := by
  have harray : IsExact (.array [v]) := .array (List.forall_mem_singleton.mpr h)
  cases index with
  | none => exact .record (List.forall_mem_singleton.mpr harray)
  | some i =>
      refine .record (List.forall_mem_cons.mpr ⟨harray, ?_⟩)
      exact List.forall_mem_singleton.mpr (Json.isExact_uint32 i)

open Json.Shape

theorem shape_injectionBody {m : GovernanceMessage} {v : Json} (h : m.IsWrittenAs v)
    (index : Option UInt32) (depth : Nat) :
    InjectionRequest.shape (depth + 6) (injectionBody v index) = .ok ⟨[m], index⟩ := by
  have hmessages : list GovernanceMessage.shape (depth + 5) (.array [v]) = .ok [m] := by
    show [v].mapM (GovernanceMessage.shape (depth + 4)) = .ok [m]
    rw [List.mapM_cons, GovernanceMessage.shape_of_isWrittenAs h]
    rfl
  have hfirst : Fills [slot "messages" (list GovernanceMessage.shape),
      slot "current_set_index" (optional uint32)] (depth + 5) ("messages", .array [v]) :=
    fills_slot rfl hmessages
  cases index with
  | none =>
      have hnames : HasDistinctNames [("messages", .array [v])] := List.nodup_singleton _
      show InjectionRequest.shape (depth + 5 + 1) (.record [("messages", .array [v])]) = _
      rw [InjectionRequest.shape,
        record_of_perm hnames (List.forall_mem_singleton.mpr hfirst) (.refl _),
        Found.required_of_mem hnames List.mem_cons_self, hmessages]
      rfl
  | some i =>
      have hindex : optional uint32 (depth + 5) (.nat i.toNat) = .ok (some i) :=
        congrArg (Except.map some) (uint32_toNat i (depth + 5))
      have hnames : HasDistinctNames
          [("messages", .array [v]), ("current_set_index", .nat i.toNat)] := by
        simp [HasDistinctNames]
      have hsecond : Fills [slot "messages" (list GovernanceMessage.shape),
          slot "current_set_index" (optional uint32)] (depth + 5)
          ("current_set_index", .nat i.toNat) := fills_slot rfl hindex
      show InjectionRequest.shape (depth + 5 + 1)
        (.record [("messages", .array [v]), ("current_set_index", .nat i.toNat)]) = _
      rw [InjectionRequest.shape,
        record_of_perm hnames (List.forall_mem_cons.mpr
          ⟨hfirst, List.forall_mem_singleton.mpr hsecond⟩) (.refl _),
        Found.required_of_mem hnames List.mem_cons_self, hmessages,
        Found.withDefault_of_mem hnames (List.mem_cons_of_mem _ List.mem_cons_self), hindex]
      rfl

/-- The message that is posted is the one that is injected. -/
theorem answer_of_postsInjection {m : GovernanceMessage} {v : Json} {index : Option UInt32}
    {request : Request} (hv : m.IsWrittenAs v) (h : PostsInjection v index request)
    (s : AdminService) : s.answer request = s.inject ⟨[m], index⟩ := by
  have hexact := isExact_injectionBody (GovernanceMessage.isExact_of_isWrittenAs hv) index
  have hshape : InjectionRequest.shape Json.maximalDepth (injectionBody v index)
      = .ok ⟨[m], index⟩ := shape_injectionBody hv index 121
  rw [answer_of_injectionPath h.path, onPost, if_pos h.method, withBody, if_pos h.declared, h.body,
    Json.decode_print hexact, hshape]

/-- The messages that are submitted to be signed. -/
def announced : Exchange Surroundings → List Vaa
  | ⟨.announce vaa, true⟩ => [vaa]
  | _ => []

/-- The governance queue takes what it is given. -/
def QueueIsOpen (t : Transcript Surroundings) : Prop :=
  ∀ vaa accepted, (⟨.announce vaa, accepted⟩ : Exchange Surroundings) ∈ t → accepted = true

/-- The message that gives the order to undo a transfer. -/
def undoing (m : GovernanceMessage) (level : UInt8) (payload : Bytes) (index : UInt32) : Vaa :=
  { GovernanceMessage.envelope m.nonce m.sequence index payload with consistencyLevel := level }

theorem toVaaOrFail_eq {m : GovernanceMessage} {level : UInt8} {payload : Bytes}
    (hm : m.request = .undoneTransfer level payload) (index : UInt32) :
    m.toVaaOrFail index = .ok (undoing m level payload index) := by
  rw [GovernanceMessage.toVaaOrFail, GovernanceMessage.toVaa, hm]
  rfl

/-- The one message is submitted, and its digest is the answer. -/
theorem inject_eq {m : GovernanceMessage} {level : UInt8} {payload : Bytes}
    (hm : m.request = .undoneTransfer level payload) (s : AdminService) (index : Option UInt32) :
    let vaa := undoing m level payload (index.getD s.guardianSetIndex)
    s.inject ⟨[m], index⟩ = .ask (.announce vaa) fun accepted : Bool =>
      if accepted then
        .ask (.record (.governance "undone_transfer")) fun _ =>
          .done (.ok (digestsToJson [vaa.signingDigest]))
      else .done (.ofFailure (.internal "governance queue is closed")) := by
  intro vaa
  rw [inject, Governance.inject, toVaaOrFail_eq hm, hm]
  refine congrArg (Program.ask _) (funext fun accepted : Bool => ?_)
  cases accepted <;> rfl

/-- While the queue is open, posting a message that undoes a transfer submits
    one message and answers with its digest. -/
theorem yields_of_postsInjection {m : GovernanceMessage} {level : UInt8} {payload : Bytes}
    {v : Json} {index : Option UInt32} {post : Request}
    (hm : m.request = .undoneTransfer level payload) (hv : m.IsWrittenAs v)
    (h : PostsInjection v index post) (s : AdminService) :
    let vaa := undoing m level payload (index.getD s.guardianSetIndex)
    (∃ t, QueueIsOpen t ∧ Yields (s.answer post) t (.ok (digestsToJson [vaa.signingDigest]))) ∧
    ∀ t response, QueueIsOpen t → Yields (s.answer post) t response →
      t.flatMap announced = [vaa] ∧ response = .ok (digestsToJson [vaa.signingDigest]) := by
  intro vaa
  rw [answer_of_postsInjection hv h, inject_eq hm]
  constructor
  · refine ⟨[⟨.announce vaa, true⟩, ⟨.record (.governance "undone_transfer"), ()⟩], ?_, ?_⟩
    · intro other accepted hmem
      rcases List.mem_cons.mp hmem with heq | hmem
      · cases heq
        rfl
      · cases List.mem_singleton.mp hmem
    · exact .ask (.ask (.done _))
  · intro t response hopen hyields
    obtain ⟨accepted, rest, rfl, hrest⟩ := yields_ask_iff.mp hyields
    obtain rfl : accepted = true := hopen _ _ List.mem_cons_self
    obtain ⟨⟨⟩, rest, rfl, hdone⟩ := yields_ask_iff.mp hrest
    obtain ⟨rfl, rfl⟩ := yields_done_iff.mp hdone
    exact ⟨rfl, rfl⟩

/-- **A governance message survives JSON**, in every order of its fields and
    with marks in front of its payload.  So the message that is returned for
    a transfer and posted to be injected is the one that is submitted. -/
theorem governance_message_survives_json :
    (∀ m : GovernanceMessage,
      Json.decode GovernanceMessage.shape (Json.print m.toJson) = .ok m ∧
      ∀ v, m.IsWrittenAs v → Json.decode GovernanceMessage.shape (Json.print v) = .ok m) ∧
    ∀ (s : AdminService) (request : Request) (t : Transcript Surroundings) (v : Json),
      Path.ofTarget request.target = undoPath → Yields (s.answer request) t ⟨200, .json v⟩ →
      ∃ (m : GovernanceMessage) (level : UInt8) (payload : Bytes), v = m.toJson ∧
        m.IsWrittenAs v ∧ m.request = .undoneTransfer level payload ∧
        ∀ (injector : AdminService) (index : Option UInt32) (w : Json) (post : Request),
          m.IsWrittenAs w → PostsInjection w index post →
          ∃ vaa : Vaa, vaa.payload = payload ∧ vaa.coordinate.sequence = m.sequence ∧
            vaa.nonce = m.nonce ∧ vaa.consistencyLevel = level ∧
            vaa.guardianSetIndex = index.getD injector.guardianSetIndex ∧
            (∃ t, QueueIsOpen t ∧
              Yields (injector.answer post) t (.ok (digestsToJson [vaa.signingDigest]))) ∧
            ∀ t response, QueueIsOpen t → Yields (injector.answer post) t response →
              t.flatMap announced = [vaa] ∧
                response = .ok (digestsToJson [vaa.signingDigest]) := by
  constructor
  · exact fun m => ⟨GovernanceMessage.decode_print_of_isWrittenAs m.isWrittenAs_toJson,
      fun v hv => GovernanceMessage.decode_print_of_isWrittenAs hv⟩
  · intro s request t v hpath h
    obtain ⟨m, level, payload, rfl, hm⟩ := exists_message_of_answer hpath h
    refine ⟨m, level, payload, rfl, m.isWrittenAs_toJson, hm, ?_⟩
    intro injector index w post hw hpost
    exact ⟨_, rfl, rfl, rfl, rfl, rfl, yields_of_postsInjection hm hw hpost injector⟩

end AdminService

end Http

/-! ## One message that is handed over -/

namespace Site

open Http AdminService

/-- The service in front of the site with a lost transfer. -/
def lostService : AdminService := ⟨lostCall.settings, 3, []⟩

/-- The request to undo this transfer. -/
def lostRequest : Request :=
  ⟨"POST", undoPath, some "application/json",
    "\x7b\"emitter_chain\":2,\"emitter_address\":" ++
      "\"e1e1e1e1e1e1e1e1e1e1e1e1e1e1e1e1e1e1e1e1e1e1e1e1e1e1e1e1e1e1e1e1\"," ++
      "\"sequence\":5,\"gov_sequence\":1\x7d"⟩

/-- The request to inject what is returned, under the set with number
    four. -/
def lostPost (v : Json) : Request :=
  ⟨"POST", injectionPath, some "application/json", Json.print (injectionBody v (some 4))⟩

theorem postsInjection_lostPost (v : Json) : PostsInjection v (some 4) (lostPost v) where
  method := rfl
  path := by
    show Path.ofTarget injectionPath = injectionPath
    decide +kernel
  declared := by
    show MediaType.isJson "application/json" = true
    decide +kernel
  body := rfl

/-- Whether a response returns a value. -/
def returnsValue : Response → Bool
  | ⟨200, .json _⟩ => true
  | _ => false

theorem exists_of_returnsValue {response : Response} (h : returnsValue response = true) :
    ∃ v, response = ⟨200, .json v⟩ := by
  unfold returnsValue at h
  split at h
  next v => exact ⟨v, rfl⟩
  next => cases h

theorem returnsValue_lostRequest :
    returnsValue ((lostService.answer lostRequest).run (serve calm) lostSite.archive).1 = true := by
  decide +kernel

/-- The message that is returned for the lost transfer is submitted under the
    set with number four. -/
theorem lost_transfer_is_handed_over :
    ∃ (t t' : Transcript Surroundings) (m : GovernanceMessage) (vaa : Vaa),
      Yields (lostService.answer lostRequest) t ⟨200, .json m.toJson⟩ ∧
      m.IsWrittenAs m.toJson ∧ PostsInjection m.toJson (some 4) (lostPost m.toJson) ∧
      vaa.coordinate.sequence = m.sequence ∧ vaa.guardianSetIndex = 4 ∧ QueueIsOpen t' ∧
      Yields (lostService.answer (lostPost m.toJson)) t'
        (.ok (digestsToJson [vaa.signingDigest])) ∧
      t'.flatMap announced = [vaa] := by
  have hpath : Path.ofTarget lostRequest.target = undoPath := by decide +kernel
  obtain ⟨v, hv⟩ := exists_of_returnsValue returnsValue_lostRequest
  have hundone := yields_transcript (serve calm) (lostService.answer lostRequest) lostSite.archive
  rw [hv] at hundone
  obtain ⟨m, level, payload, rfl, hwritten, hm, hhandover⟩ :=
    governance_message_survives_json.2 lostService lostRequest _ v hpath hundone
  have hpost := postsInjection_lostPost m.toJson
  obtain ⟨vaa, -, hsequence, -, -, hindex, ⟨t', hopen, hyields⟩, hall⟩ :=
    hhandover lostService (some 4) m.toJson (lostPost m.toJson) hwritten hpost
  exact ⟨_, t', m, vaa, hundone, hwritten, hpost, hsequence, hindex, hopen, hyields,
    (hall t' _ hopen hyields).1⟩

end Site

end BridgeGuardian
