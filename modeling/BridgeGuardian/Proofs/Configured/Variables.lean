import BridgeGuardian.Configuration.Environment
import BridgeGuardian.Proofs.Outcome

/-! # Variables — what a configuration takes from where

    A reading of variables that goes through says what every variable held,
    and it depends on no others than those it looks at.  So a configuration
    that is accepted stays so when the guardians are replaced, as long as the
    new ones make a set: `ofEnvironment_withGuardians`. -/

namespace BridgeGuardian.Configuration

/-- Two environments have the same values, but for some variables. -/
def AgreeBut (names : List String) (env env' : Environment) : Prop :=
  ∀ name, name ∉ names → env.get? name = env'.get? name

/-- The variables that name the guardians. -/
def guardianVariables : List String := ["GUARDIAN_SET_INDEX", "GUARDIAN_KEYS"]

/-- A reading looks at none of these variables. -/
def Ignores {α : Type} (names : List String) (x : FromEnvironment α) : Prop :=
  ∀ env env', AgreeBut names env env' → x env = x env'

section

variable {α β : Type} {names : List String} {name : String} {x : FromEnvironment α}
  {f : α → FromEnvironment β} {env env' : Environment} {value : β}

/-- A reading goes through if its parts do, one after the other. -/
theorem bind_eq_ok_iff : (x >>= f) env = .ok value ↔ ∃ a, x env = .ok a ∧ f a env = .ok value := by
  show (x env >>= fun a => f a env) = .ok value ↔ _
  exact BridgeGuardian.bind_eq_ok_iff

/-! ## Ignored variables -/

theorem ignores_pure (a : α) : Ignores names (pure a) := fun _ _ _ => rfl

theorem Ignores.bind (hx : Ignores names x) (hf : ∀ a, Ignores names (f a)) :
    Ignores names (x >>= f) := by
  intro env env' h
  show (x env >>= fun a => f a env) = (x env' >>= fun a => f a env')
  rw [hx env env' h]
  exact congrArg (x env' >>= ·) (funext fun a => hf a env env' h)

theorem ignores_lookUp (h : name ∉ names) : Ignores names (lookUp name) :=
  fun _ _ hagree => congrArg Except.ok (hagree name h)

theorem ignores_required (h : name ∉ names) : Ignores names (required name) := by
  intro env env' hagree
  rw [required, required, hagree name h]

theorem ignores_number {read : String → Except Text.NumeralFault α} {default : α}
    (h : name ∉ names) : Ignores names (number read name default) := by
  intro env env' hagree
  rw [number, number, hagree name h]

theorem ignores_address {default : SocketAddress} (h : name ∉ names) :
    Ignores names (address name default) := by
  intro env env' hagree
  rw [address, address, hagree name h]

theorem ignores_items (h : name ∉ names) : Ignores names (items name) :=
  (ignores_lookUp h).bind fun _ => ignores_pure _

/-- The section on the node says nothing of guardians. -/
theorem Node.ignores_fromEnvironment : Ignores guardianVariables Node.fromEnvironment :=
  (ignores_required (by decide)).bind fun _ => (ignores_lookUp (by decide)).bind fun _ =>
    (ignores_items (by decide)).bind fun _ => (ignores_number (by decide)).bind fun _ =>
    (ignores_number (by decide)).bind fun _ => (ignores_number (by decide)).bind fun _ =>
    (ignores_number (by decide)).bind fun _ => ignores_pure _

/-- The section on recovery says nothing of guardians. -/
theorem Recovery.ignores_fromEnvironment : Ignores guardianVariables Recovery.fromEnvironment :=
  (ignores_number (by decide)).bind fun _ => (ignores_items (by decide)).bind fun _ =>
    (ignores_number (by decide)).bind fun _ => (ignores_number (by decide)).bind fun _ =>
    (ignores_number (by decide)).bind fun _ => ignores_pure _

/-- The section on serving says nothing of guardians. -/
theorem Serving.ignores_fromEnvironment : Ignores guardianVariables Serving.fromEnvironment :=
  (ignores_address (by decide)).bind fun _ => (ignores_address (by decide)).bind fun _ =>
    ignores_pure _

/-! ## Sections and checks -/

/-- The section on guardians is taken from five variables, of which the keys
    alone have to be set. -/
theorem Guardian.fromEnvironment_eq_ok_iff {g : Guardian} :
    Guardian.fromEnvironment env = .ok g ↔
      number Text.readUInt32 "GUARDIAN_SET_INDEX" 0 env = .ok g.setIndex ∧
      (∃ keys, env.get? "GUARDIAN_KEYS" = some keys ∧ Text.listItems keys = g.keys) ∧
      number Text.readUInt64 "INGEST_QUEUE_SIZE" Default.queueSize env = .ok g.queueSize ∧
      number Text.readUInt64 "DEDUPE_CACHE_SIZE" Default.cacheSize env = .ok g.cacheSize ∧
      number Text.readUInt64 "DEDUPE_CACHE_TTL_SECS" Default.cacheTimeToLive env
        = .ok g.cacheTimeToLive := by
  have hrequired : ∀ text, required "GUARDIAN_KEYS" env = .ok text ↔
      env.get? "GUARDIAN_KEYS" = some text := by
    intro text
    unfold required
    cases env.get? "GUARDIAN_KEYS" with
    | none => exact ⟨fun h => (nomatch h), fun h => (nomatch h)⟩
    | some value => exact ⟨fun h => by cases h; rfl, fun h => by cases h; rfl⟩
  unfold Guardian.fromEnvironment
  simp only [bind_eq_ok_iff, hrequired]
  constructor
  · rintro ⟨setIndex, hindex, keys, hkeys, queueSize, hqueue, cacheSize, hcache, ttl, httl, hg⟩
    cases hg
    exact ⟨hindex, ⟨keys, hkeys, rfl⟩, hqueue, hcache, httl⟩
  · obtain ⟨setIndex, keys, queueSize, cacheSize, cacheTimeToLive⟩ := g
    rintro ⟨hindex, ⟨text, htext, rfl⟩, hqueue, hcache, httl⟩
    exact ⟨setIndex, hindex, text, htext, queueSize, hqueue, cacheSize, hcache, cacheTimeToLive,
      httl, rfl⟩

/-- A configuration is taken from its sections. -/
theorem fromVariables_eq_ok_iff {c : Configuration} :
    fromVariables env = .ok c ↔
      required "DATABASE_URL" env = .ok c.database.url ∧ Node.fromEnvironment env = .ok c.node ∧
      Recovery.fromEnvironment env = .ok c.recovery ∧
      Guardian.fromEnvironment env = .ok c.guardian ∧
      Serving.fromEnvironment env = .ok c.serving := by
  unfold fromVariables
  simp only [bind_eq_ok_iff]
  constructor
  · rintro ⟨url, hurl, node, hnode, recovery, hrecovery, guardian, hguardian, serving, hserving, hc⟩
    cases hc
    exact ⟨hurl, hnode, hrecovery, hguardian, hserving⟩
  · obtain ⟨⟨url⟩, node, recovery, guardian, serving⟩ := c
    rintro ⟨hurl, hnode, hrecovery, hguardian, hserving⟩
    exact ⟨url, hurl, node, hnode, recovery, hrecovery, guardian, hguardian, serving, hserving, rfl⟩

/-- A check that finds no fault leaves the rest to be checked. -/
theorem check_eq_ok_iff {p : Prop} [Decidable p] {fault : ConfigurationFault}
    {rest : Except ConfigurationFault Unit} :
    (if p then .error fault else rest) = .ok () ↔ ¬ p ∧ rest = .ok () := by
  by_cases hp : p
  · rw [if_pos hp]
    exact ⟨fun h => (nomatch h), fun h => absurd hp h.1⟩
  · rw [if_neg hp]
    exact ⟨fun h => ⟨hp, h⟩, fun h => h.2⟩

/-- A configuration is accepted if it passes each of the checks. -/
theorem validate_eq_ok_iff {c : Configuration} :
    c.validate = .ok () ↔
      ¬ c.database.url.isEmpty ∧ ¬ (!isWebAddress c.node.url) ∧ ¬ c.node.eventBatchSize = 0 ∧
      ¬ c.node.pollInterval = 0 ∧ ¬ c.recovery.localChain = 0 ∧ ¬ c.recovery.pollAttempts = 0 ∧
      ¬ c.guardian.keys.isEmpty ∧ (∃ g, c.guardian.guardianSet = .ok g) ∧
      ¬ c.serving.address = c.serving.adminAddress ∧ ¬ c.guardian.queueSize = 0 := by
  rw [validate]
  simp only [check_eq_ok_iff]
  cases c.guardian.guardianSet with
  | error fault => simp only [reduceCtorEq, exists_false, false_and, and_false]
  | ok g => simp only [check_eq_ok_iff, Except.ok.injEq, exists_eq', true_and, and_true]

theorem ofEnvironment_eq_ok_iff {c : Configuration} :
    ofEnvironment env = .ok c ↔ fromVariables env = .ok c ∧ c.validate = .ok () := by
  unfold ofEnvironment
  simp only [BridgeGuardian.bind_eq_ok_iff]
  constructor
  · rintro ⟨found, hfound, accepted, hvalid, hc⟩
    cases hc
    exact ⟨hfound, hvalid⟩
  · rintro ⟨hfound, hvalid⟩
    exact ⟨c, hfound, (), hvalid, rfl⟩

/-! ## Other guardians -/

/-- The configuration with these guardians instead. -/
def withGuardians (c : Configuration) (setIndex : UInt32)
    (keys : List String) : Configuration :=
  { c with guardian := { c.guardian with setIndex := setIndex, keys := keys } }

/-- Where a configuration was accepted, one with other guardians is, if these
    are some and all of their keys can be read. -/
theorem ofEnvironment_withGuardians {env₀ : Environment} {c₀ : Configuration} {setIndex : UInt32}
    {keys : String} {addresses : List Address} (h₀ : ofEnvironment env₀ = .ok c₀)
    (hagree : AgreeBut guardianVariables env₀ env)
    (hindex : number Text.readUInt32 "GUARDIAN_SET_INDEX" 0 env = .ok setIndex)
    (hkeys : env.get? "GUARDIAN_KEYS" = some keys) (hsome : Text.listItems keys ≠ [])
    (hread : readKeys 0 (Text.listItems keys) = .ok addresses) :
    ofEnvironment env = .ok (c₀.withGuardians setIndex (Text.listItems keys)) ∧
      (c₀.withGuardians setIndex (Text.listItems keys)).guardian.guardianSet
        = .ok ⟨setIndex, addresses⟩ := by
  obtain ⟨hvariables, hvalid⟩ := ofEnvironment_eq_ok_iff.mp h₀
  obtain ⟨hurl, hnode, hrecovery, hguardian, hserving⟩ := fromVariables_eq_ok_iff.mp hvariables
  obtain ⟨-, -, hqueue, hcache, hlifetime⟩ := Guardian.fromEnvironment_eq_ok_iff.mp hguardian
  obtain ⟨hdatabase, haddress, hbatch, hpoll, hchain, hattempts, -, -, hsame, hsize⟩ :=
    validate_eq_ok_iff.mp hvalid
  have hset : (c₀.withGuardians setIndex (Text.listItems keys)).guardian.guardianSet
      = .ok ⟨setIndex, addresses⟩ := by
    show (readKeys 0 (Text.listItems keys) >>= fun keys => pure (GuardianSet.mk setIndex keys)) = _
    rw [hread]
    rfl
  refine ⟨ofEnvironment_eq_ok_iff.mpr ⟨fromVariables_eq_ok_iff.mpr ⟨?_, ?_, ?_, ?_, ?_⟩, ?_⟩, hset⟩
  · rwa [← ignores_required (by decide) env₀ env hagree]
  · rwa [← Node.ignores_fromEnvironment env₀ env hagree]
  · rwa [← Recovery.ignores_fromEnvironment env₀ env hagree]
  · refine Guardian.fromEnvironment_eq_ok_iff.mpr ⟨hindex, ⟨keys, hkeys, rfl⟩, ?_, ?_, ?_⟩
    · rwa [← ignores_number (by decide) env₀ env hagree]
    · rwa [← ignores_number (by decide) env₀ env hagree]
    · rwa [← ignores_number (by decide) env₀ env hagree]
  · rwa [← Serving.ignores_fromEnvironment env₀ env hagree]
  · exact validate_eq_ok_iff.mpr ⟨hdatabase, haddress, hbatch, hpoll, hchain, hattempts,
      fun hnil => hsome (List.isEmpty_iff.mp hnil), ⟨_, hset⟩, hsame, hsize⟩

end

end BridgeGuardian.Configuration
