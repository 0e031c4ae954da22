import BridgeGuardian.Proofs.Coordinate
import BridgeGuardian.Proofs.Recovery.Reported

/-! # Spelled emitters — what a request asks depends on the octets alone

    An emitter address may be spelled with or without a mark and with letters
    of either case.  It is read once, at the beginning of a request, and from
    there on only its octets are handed around: every query that names the
    emitter names it by its number and these octets, so every path under
    which peers are asked, every key of storage and every entry of a report
    shows the lowercase digits.  `Concerns` says this of one query, and
    `onlyAsks_findMissing_concerns` and `onlyAsks_undoTransfer_concerns` of
    all queries of a request. -/

namespace BridgeGuardian

open Program

/-- The emitter has a chain number and an address. -/
def Emitter.IsAt (chain : UInt32) (address : Bytes32) (e : Emitter) : Prop :=
  e.chain.id.toNat = chain.toNat ∧ e.address = address

/-- A query of storage is about an emitter: it reads under a key with its
    number and address, looks up a wrapper, or claims a transfer of its
    chain. -/
def StoreQuery.Concerns (chain : UInt32) (address : Bytes32) : StoreQuery → Prop
  | .vaa c => c.emitter.IsAt chain address
  | .gaps e => e.IsAt chain address
  | .localWrapper _ remote => remote.id.toNat = chain.toNat
  | .remoteWrapper _ => True
  | .markExecuting remote _ => remote.id.toNat = chain.toNat
  | .storeVaa _ _ | .addLocalWrapper _ _ _ | .addRemoteWrapper _ _ | .addUndone _ _ | .undone _
  | .nextIndex _ | .setNextIndex _ _ => False

/-- A query is about an emitter: what is asked of storage is, and peers are
    asked under a path with its number and the digits of its address. -/
def Surroundings.Query.Concerns (chain : UInt32) (address : Bytes32) :
    Surroundings.Query → Prop
  | .store q => q.Concerns chain address
  | .fetch url _ => ∃ (peer : String) (n : UInt64), url = Text.dropTrailing '/' peer ++
      "/v1/signed_vaa/" ++ s!"{chain.toNat}/{address.toHex}/{n.toNat}"
  | _ => True

section

variable {chain : UInt32} {address : Bytes32} {e : Emitter} {c : Coordinate}

/-- An accepted emitter is where the request says. -/
theorem Emitter.isAt_of_ofRequest {text : String} (hread : Bytes32.read text = .ok address)
    (he : ofRequest chain text = .ok e) : e.IsAt chain address := by
  obtain ⟨hchain, haddress⟩ := ofRequest_eq_ok_iff.mp he
  exact ⟨hchain, Except.ok.inj (haddress.symm.trans hread)⟩

/-- The path of a message shows the number and the digits of its emitter. -/
theorem Coordinate.path_of_isAt (h : c.emitter.IsAt chain address) :
    c.path = s!"{chain.toNat}/{address.toHex}/{c.sequence.toNat}" := by
  obtain ⟨hchain, rfl⟩ := h
  rw [← hchain]
  rfl

/-- Peers are asked under that path. -/
theorem Backfill.onlyAsks_fetch_concerns (h : c.emitter.IsAt chain address) (timeout : UInt64)
    (peers : List String) :
    (fetch timeout peers c).run.OnlyAsks (Surroundings.Query.Concerns chain address) := by
  refine onlyAsks_fetch (fun _ => trivial) trivial (fun peer _ => ⟨peer, c.sequence, ?_⟩)
    (fun _ => trivial) (fun _ => trivial) timeout peers
  rw [Backfill.address, Coordinate.path_of_isAt h]

namespace Recovery

/-! ## Missing messages -/

/-- Filling gaps asks what fetching their messages asks. -/
theorem onlyAsks_fillGaps {asks : Surroundings.Query → Prop} {timeout : UInt64}
    {peers : List String} (hfetch : ∀ n, (Backfill.fetch timeout peers ⟨e, n⟩).run.OnlyAsks asks)
    (gaps : List UInt64) : (fillGaps timeout peers e gaps).run.OnlyAsks asks := by
  induction gaps with
  | nil => trivial
  | cons n gaps ih =>
      -- a failure in other words asks nothing more
      have hask : (ExceptT.adapt fillGaps.failToFill
          (Backfill.fetch timeout peers ⟨e, n⟩)).run.OnlyAsks asks :=
        onlyAsks_bind (hfetch n) fun _ => trivial
      refine onlyAsks_bindExcept hask fun found => ?_
      exact onlyAsks_bindExcept ih fun others => trivial

/-- Everything that a request for missing messages asks is about its emitter. -/
theorem onlyAsks_findMissing_concerns (timeout : UInt64) (request : MissingRequest)
    (hread : Bytes32.read request.emitterAddress = .ok address) :
    (findMissing timeout request).run.OnlyAsks
      (Surroundings.Query.Concerns request.emitterChain address) := by
  refine Work.onlyAsks_ofExcept_bind fun e he => ?_
  have hat := Emitter.isAt_of_ofRequest hread he
  refine onlyAsks_bindExcept (Work.onlyAsks_store hat) fun gaps => ?_
  split
  · refine onlyAsks_bindExcept ?_ fun missing => trivial
    exact onlyAsks_fillGaps (fun n => Backfill.onlyAsks_fetch_concerns hat timeout _) _
  · trivial

/-- What a report lists is shown under the number and the digits. -/
theorem path_of_findMissing {timeout : UInt64} {request : MissingRequest}
    {t : Transcript Surroundings} {report : MissingReport}
    (h : Yields (findMissing timeout request).run t (.ok report))
    (hread : Bytes32.read request.emitterAddress = .ok address) (hc : c ∈ report.missing) :
    c.path = s!"{request.emitterChain.toNat}/{address.toHex}/{c.sequence.toNat}" := by
  obtain ⟨e, gaps, he, -, -, -, hlisted, -⟩ := findMissing_cases h
  obtain ⟨rfl, -⟩ := hlisted c hc
  exact Coordinate.path_of_isAt (Emitter.isAt_of_ofRequest hread he)

/-- Of the text of an address nothing matters but what it is read as. -/
theorem findMissing_congr (timeout : UInt64) {request : MissingRequest} {text : String}
    (h : Bytes32.read request.emitterAddress = Bytes32.read text) :
    findMissing timeout request = findMissing timeout { request with emitterAddress := text } := by
  rw [findMissing, Emitter.ofRequest_congr h]
  rfl

/-! ## Undoing a transfer -/

/-- Everything that a request to undo a transfer asks is about its emitter. -/
theorem onlyAsks_undoTransfer_concerns (s : Settings) (request : UndoRequest)
    (hread : Bytes32.read request.emitterAddress = .ok address) :
    (undoTransfer s request).run.OnlyAsks
      (Surroundings.Query.Concerns request.emitterChain address) := by
  refine onlyAsks_undoTransfer_of (fun e he => ?_) fun _ => trivial
  have hat := Emitter.isAt_of_ofRequest hread he
  rw [reconstruct_eq, prepare_eq]
  refine onlyAsks_bindExcept (onlyAsks_bindExcept ?_ ?_) (onlyAsks_issue hat.1 trivial)
  · exact onlyAsks_loadVaa_of hat (fun _ => trivial) (Backfill.onlyAsks_fetch_concerns hat _ _)
  · exact onlyAsks_gather (fun _ => hat.1) (fun _ => trivial) trivial

/-- Nor does it when a transfer is undone. -/
theorem undoTransfer_congr (s : Settings) {request : UndoRequest} {text : String}
    (h : Bytes32.read request.emitterAddress = Bytes32.read text) :
    undoTransfer s request = undoTransfer s { request with emitterAddress := text } := by
  rw [undoTransfer, Emitter.ofRequest_congr h]
  rfl

end Recovery

end

/-! ## One textual form -/

/-- **Coordinates have one textual form.**  Paths, addresses of peers and
    reports tell the coordinates in them apart.  A text is an address exactly
    if it shows sixty-four digits of either case behind at most one mark;
    what is written for an address is read back, and is the lowercase of
    every text that is read as it.  So a request may spell its emitter in any
    of these ways: it is the same request as with the written form, and under
    the written form peers and storage are asked, and what is missing is
    reported. -/
theorem Recovery.coordinates_have_one_textual_form :
    (∀ c d : Coordinate, c.path = d.path ↔ c = d) ∧
    (∀ (peer neighbour : String) (c d : Coordinate),
      Backfill.address peer c = Backfill.address neighbour d ↔
        Text.dropTrailing '/' peer = Text.dropTrailing '/' neighbour ∧ c = d) ∧
    (∀ r r' : MissingReport, r.toJson = r'.toJson ↔ r = r') ∧
    (∀ text : String, (∃ b, Bytes32.read text = .ok b) ↔
      ∃ digits, Hex.Shows text digits ∧ digits.length = 64 ∧
        ∀ c ∈ digits.toList, Hex.IsDigit c) ∧
    (∀ b : Bytes32, Bytes32.read b.toHex = .ok b) ∧
    (∀ (text : String) (b : Bytes32), Bytes32.read text = .ok b ↔
      ∃ digits, Hex.Shows text digits ∧ digits.toLower = b.toHex) ∧
    (∀ (timeout : UInt64) (request : MissingRequest) (b : Bytes32),
      Bytes32.read request.emitterAddress = .ok b →
      findMissing timeout request
        = findMissing timeout { request with emitterAddress := b.toHex } ∧
      (∀ t result, Yields (findMissing timeout request).run t result →
        ∀ x ∈ t, x.query.Concerns request.emitterChain b) ∧
      ∀ t report, Yields (findMissing timeout request).run t (.ok report) →
        ∀ c ∈ report.missing,
          c.path = s!"{request.emitterChain.toNat}/{b.toHex}/{c.sequence.toNat}") ∧
    ∀ (s : Settings) (request : UndoRequest) (b : Bytes32),
      Bytes32.read request.emitterAddress = .ok b →
      undoTransfer s request = undoTransfer s { request with emitterAddress := b.toHex } ∧
      ∀ t result, Yields (undoTransfer s request).run t result →
        ∀ x ∈ t, x.query.Concerns request.emitterChain b := by
  refine ⟨fun _ _ => Coordinate.path_inj, fun _ _ _ _ => Backfill.address_inj,
    fun _ _ => MissingReport.toJson_inj, fun _ => Bytes32.exists_read_iff_shows,
    Bytes32.read_toHex, fun _ _ => Bytes32.read_eq_ok_iff_shows, ?_, ?_⟩
  · intro timeout request b hread
    refine ⟨findMissing_congr timeout (hread.trans b.read_toHex.symm), ?_, ?_⟩
    · intro t result h
      exact h.onlyAsks (onlyAsks_findMissing_concerns timeout request hread)
    · intro t report h c hc
      exact path_of_findMissing h hread hc
  · intro s request b hread
    refine ⟨undoTransfer_congr s (hread.trans b.read_toHex.symm), ?_⟩
    intro t result h
    exact h.onlyAsks (onlyAsks_undoTransfer_concerns s request hread)

namespace Site

open Recovery

/-- The address of the signed message's emitter in capitals, behind a mark. -/
def capitals : String := "0xE0E0E0E0E0E0E0E0E0E0E0E0E0E0E0E0E0E0E0E0E0E0E0E0E0E0E0E0E0E0E0E0"

/-- Message five is looked for in storage, and there is no peer to ask. -/
def nowhere : Transcript Surroundings :=
  [⟨.store (.vaa ⟨gappy, 5⟩), .ok none⟩, ⟨.peerOrder [], ⟨[], .refl _⟩⟩, ⟨.now, (0 : Nat)⟩]

/-- An emitter spelled in capitals is the emitter in lowercase: peers are
    asked under its path, the gap that is left is reported under it, and so
    is a transfer that nobody has. -/
theorem capital_spelling_asks_for_the_same :
    Bytes32.read capitals = .ok gappy.address ∧
    (findMissing 1000 ⟨2, capitals, true, ["peer"]⟩ = findMissing 1000 (askFor ["peer"]) ∧
      Yields (findMissing 1000 ⟨2, capitals, true, ["peer"]⟩).run (twoGapsTalk 404 .notFound)
        (.ok (reportOf aroundTwoGaps gappy [6])) ∧
      (∀ x ∈ twoGapsTalk 404 .notFound, x.query.Concerns 2 gappy.address) ∧
      (⟨gappy, 6⟩ : Coordinate).path
        = "2/e0e0e0e0e0e0e0e0e0e0e0e0e0e0e0e0e0e0e0e0e0e0e0e0e0e0e0e0e0e0e0e0/6") ∧
    ∃ t, Yields (undoTransfer lostCall.settings ⟨2, capitals, 5, 1, []⟩).run t
        (.error (.unrecoverable ("failed to fetch vaa " ++ (⟨gappy, 5⟩ : Coordinate).path ++
          " from remote guardians, try other guardians"))) ∧
      ⟨.store (.vaa ⟨gappy, 5⟩), .ok none⟩ ∈ t ∧ ∀ x ∈ t, x.query.Concerns 2 gappy.address := by
  have hread : Bytes32.read capitals = .ok gappy.address := by decide +kernel
  have hlower : gappy.address.toHex
      = "e0e0e0e0e0e0e0e0e0e0e0e0e0e0e0e0e0e0e0e0e0e0e0e0e0e0e0e0e0e0e0e0" := by decide +kernel
  obtain ⟨-, -, -, -, -, -, hmissing, hundo⟩ := coordinates_have_one_textual_form
  obtain ⟨hsame, hconcerns, hlisted⟩ := hmissing 1000 ⟨2, capitals, true, ["peer"]⟩ _ hread
  dsimp only at hsame
  rw [hlower] at hsame
  have hreport : Yields (findMissing 1000 ⟨2, capitals, true, ["peer"]⟩).run
      (twoGapsTalk 404 .notFound) (.ok (reportOf aroundTwoGaps gappy [6])) := by
    rw [hsame]
    exact yields_absent
  have hpath := hlisted _ _ hreport ⟨gappy, 6⟩ (List.mem_singleton_self _)
  rw [hlower] at hpath
  have he : Emitter.ofRequest 2 capitals = .ok gappy :=
    Emitter.ofRequest_eq_ok_iff.mpr ⟨rfl, hread⟩
  have hnobody : Yields (reconstruct lostCall.settings 1 [] ⟨gappy, 5⟩).run nowhere
      (.error (.unrecoverable ("failed to fetch vaa " ++ (⟨gappy, 5⟩ : Coordinate).path ++
        " from remote guardians, try other guardians"))) := .ask (.ask (.ask (.done _)))
  obtain ⟨m, hlost⟩ : ∃ m, Yields (undoTransfer lostCall.settings ⟨2, capitals, 5, 1, []⟩).run
      (nowhere ++ [⟨.record m, ()⟩]) _ := exists_yields_undoTransfer he hnobody
  exact ⟨hread, ⟨hsame, hreport, hconcerns _ _ hreport, hpath⟩, _, hlost,
    List.mem_cons_self, (hundo _ _ _ hread).2 _ _ hlost⟩

end Site

end BridgeGuardian
