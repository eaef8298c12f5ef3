import Refract.Oracle.OracleQuorum

/-!
# Authority of a quorum

What a resolved collection promises (`Authoritative`): enough public keys, each of an entry that is
active on the network of the request when the result is produced, have signed the payload of this
very request. The service looks at ids only: a result is kept by the id of its decision, and a
signature counts while the id of its key is active, whatever key and network that id has by then.
The promise is kept (`resolved_authoritative`) in every run in which the requests of one decision
agree, the ids that a collection has listed keep their key and network while they are active, and no
key that has passed its check becomes inactive before the pass is over.
-/

namespace Refract.Oracle

open Lib Refract.Stellar List QuorumRun

/-! ## The promise -/

structure Authoritative (env : KeyringEnv) (request : QuorumRequest) (produced : Produced) :
    Prop where
  enough : requiredSignatures env request.feed ≤
    (produced.result.signatures.map (·.publicKey)).dedup.length
  active : ∀ s ∈ produced.result.signatures, ∃ key ∈ produced.keys,
    env.publicKeyOf key.secret = s.publicKey ∧ key.active = true ∧
      key.network = env.toLowerCase request.network
  signed : ∃ payload, payloadOf request = .ok payload ∧
    ∀ s ∈ produced.result.signatures,
      env.verifies s.publicKey (env.sha256 payload) s.signature = true

variable (env : KeyringEnv)

/-- Active keys with the id of a listed one have its public key and network. -/
def KeepsListed (listed keys : List LoadedKey) : Prop :=
  ∀ key ∈ keys, key.active = true → ∀ l ∈ listed, key.id = l.id →
    env.publicKeyOf key.secret = env.publicKeyOf l.secret ∧ key.network = l.network

/-- The signatures that have passed their check in the current pass. -/
def QuorumStage.passed : QuorumStage → List KeySignature
  | .checking _ _ valid => valid
  | .listing | .signing .. => []

/-- Before the step: a call for a decision that is resolved repeats its request; a read of the
keystore during a collection keeps the keys and networks of the listed ids, and keeps the keys
active that have passed their check. -/
def Steady (s : QuorumState) : QuorumLabel → Prop
  | .collect request => ∀ d ∈ s.decisions.get? request.decisionId,
      d.outcome.isOk = true → d.request = request
  | .read read => ∀ run ∈ s.running,
      KeepsListed env run.listed (refreshIfChanged env s.keyring read).keys ∧
      ∀ v ∈ run.stage.passed, (refreshIfChanged env s.keyring read).isActive v.keyId = true
  | .forget _ => True

instance (env : KeyringEnv) (listed keys : List LoadedKey) :
    Decidable (KeepsListed env listed keys) :=
  inferInstanceAs (Decidable (∀ key ∈ keys, key.active = true → ∀ l ∈ listed, key.id = l.id →
    env.publicKeyOf key.secret = env.publicKeyOf l.secret ∧ key.network = l.network))

instance (env : KeyringEnv) (s : QuorumState) (l : QuorumLabel) : Decidable (Steady env s l) := by
  unfold Steady
  split <;> infer_instance

/-! ## One collection -/

/-- A signature of a listed key over the payload. -/
def OfListed (run : QuorumRun) (s : KeySignature) : Prop :=
  (∃ l ∈ run.listed, l.id = s.keyId ∧ env.publicKeyOf l.secret = s.publicKey) ∧
    env.verifies s.publicKey (env.sha256 run.payload) s.signature = true

/-- What a collection has gathered so far. -/
def QuorumStage.Sound (keyring : Keyring) (run : QuorumRun) : QuorumStage → Prop
  | .listing => run.listed = []
  | .signing key left signatures _ => key ∈ run.listed ∧ (∀ l ∈ left, l ∈ run.listed) ∧
      ∀ s ∈ signatures, OfListed env run s
  | .checking s left valid => OfListed env run s ∧ (∀ v ∈ left, OfListed env run v) ∧
      ∀ v ∈ valid, OfListed env run v ∧ keyring.isActive v.keyId = true

/-- The listed keys of a collection are on the network of its request and keep their public keys. -/
structure ListedSound (env : KeyringEnv) (keyring : Keyring) (run : QuorumRun) : Prop where
  payload : payloadOf run.request = .ok run.payload
  required : run.required = requiredSignatures env run.request.feed
  network : ∀ l ∈ run.listed, l.network = env.toLowerCase run.request.network
  listed : KeepsListed env run.listed keyring.keys

/-- The invariant of a collection. -/
structure RunSound (env : KeyringEnv) (keyring : Keyring) (run : QuorumRun) : Prop
    extends ListedSound env keyring run where
  stage : run.stage.Sound env keyring run

/-- What a step of a collection ensures. -/
def QuorumProgress.Sound (keyring : Keyring) (request : QuorumRequest) : QuorumProgress → Prop
  | .reads run => run.request = request ∧ RunSound env keyring run
  | .ends outcome =>
    ∀ result, outcome = .ok result → Authoritative env request ⟨result, keyring.keys⟩

variable {env : KeyringEnv} {keyring : Keyring} {run : QuorumRun}

section

variable (h : ListedSound env keyring run)

include h

/-- A result is authoritative if its signatures are of listed keys whose ids are active. -/
theorem authoritative_of_valid {valid : List KeySignature}
    (henough : QuorumRun.Enough run.required valid)
    (hval : ∀ v ∈ valid, OfListed env run v ∧ keyring.isActive v.keyId = true) :
    Authoritative env run.request
      ⟨⟨run.request.decisionId, run.request.feed, run.required, valid⟩, keyring.keys⟩ := by
  refine ⟨?_, ?_, run.payload, h.payload, fun v hv => (hval v hv).1.2⟩
  · rw [← h.required]
    exact henough.2
  · intro v hv
    obtain ⟨⟨⟨l, hl, hid, hkey⟩, -⟩, hact⟩ := hval v hv
    -- The active entry with this id still has the key that has signed.
    obtain ⟨key, hmem, hfound⟩ := any_eq_true.1 hact
    simp only [Bool.and_eq_true, decide_eq_true_eq] at hfound
    obtain ⟨hpublic, hnetwork⟩ := h.listed key hmem hfound.2 l hl (hfound.1.trans hid.symm)
    exact ⟨key, hmem, hpublic.trans hkey, hfound.2, hnetwork.trans (h.network l hl)⟩

theorem retry_sound : run.retry.Sound env keyring run.request := by
  simp only [retry]
  split
  · rintro result ⟨⟩
  refine ⟨rfl, ⟨h.payload, h.required, ?_, ?_⟩, rfl⟩
  · exact fun l hl => absurd hl not_mem_nil
  · exact fun _ _ _ l hl => absurd hl not_mem_nil

theorem check_sound {left valid : List KeySignature} (hleft : ∀ v ∈ left, OfListed env run v)
    (hval : ∀ v ∈ valid, OfListed env run v ∧ keyring.isActive v.keyId = true) :
    (run.check left valid).Sound env keyring run.request := by
  cases left with
  | nil =>
    simp only [check]
    split
    · rename_i henough
      rintro result ⟨⟩
      exact authoritative_of_valid h henough hval
    · exact retry_sound h
  | cons s =>
    refine ⟨rfl, ⟨h.payload, h.required, h.network, h.listed⟩, ?_⟩
    exact ⟨hleft s mem_cons_self, fun v hv => hleft v (mem_cons_of_mem _ hv), hval⟩

theorem signNext_sound {left : List LoadedKey} {signatures : List KeySignature}
    {failures : List String} (hleft : ∀ l ∈ left, l ∈ run.listed)
    (hsigs : ∀ s ∈ signatures, OfListed env run s) :
    (run.signNext left signatures failures).Sound env keyring run.request := by
  simp only [signNext]
  split
  · exact check_sound h hsigs fun _ hv => absurd hv not_mem_nil
  cases left with
  | nil => rintro result ⟨⟩
  | cons key =>
    refine ⟨rfl, ⟨h.payload, h.required, h.network, h.listed⟩, ?_⟩
    exact ⟨hleft key mem_cons_self, fun l hl => hleft l (mem_cons_of_mem _ hl), hsigs⟩

/-- A key that signs under a listed id is the listed key. -/
theorem ofListed_signWith {l : LoadedKey} (hl : l ∈ run.listed) {s : KeySignature}
    (hs : keyring.signWith env l.id run.payload = some s) :
    OfListed env run s := by
  obtain ⟨key, hfind, rfl⟩ := Option.map_eq_some_iff.1 hs
  have hfound := find?_some hfind
  simp only [Bool.and_eq_true, decide_eq_true_eq] at hfound
  obtain ⟨hpublic, -⟩ := h.listed key (mem_of_find?_eq_some hfind) hfound.2 l hl hfound.1
  exact ⟨⟨l, hl, hfound.1.symm, hpublic.symm⟩, env.verifies_sign _ _⟩

end

/-- One more read that meets the condition keeps what was gathered. -/
theorem RunSound.read (h : RunSound env keyring run) {keyring' : Keyring}
    (hlisted : KeepsListed env run.listed keyring'.keys)
    (hpass : ∀ v ∈ run.stage.passed, keyring'.isActive v.keyId = true) :
    RunSound env keyring' run := by
  refine ⟨⟨h.payload, h.required, h.network, hlisted⟩, ?_⟩
  have hstage := h.stage
  cases hrun : run.stage with
  | listing | signing =>
    rw [hrun] at hstage
    exact hstage
  | checking =>
    rw [hrun] at hstage hpass
    exact ⟨hstage.1, hstage.2.1, fun v hv => ⟨(hstage.2.2 v hv).1, hpass v hv⟩⟩

/-- The collection goes on with the keyring that was just read. -/
theorem goOn_sound (h : RunSound env keyring run) (huniq : keyring.UniqueIds) :
    (run.goOn env keyring).Sound env keyring run.request := by
  have hstage := h.stage
  cases hrun : run.stage with
  | listing =>
    have hact : ∀ l ∈ keyring.activeKeys env run.request.network, l ∈ keyring.keys ∧
        l.network = env.toLowerCase run.request.network := by
      intro l hl
      obtain ⟨hmem, hfilter⟩ := mem_filter.1 hl
      simp only [Bool.and_eq_true, decide_eq_true_eq] at hfilter
      exact ⟨hmem, hfilter.2⟩
    have hsound : ListedSound env keyring
        { run with listed := keyring.activeKeys env run.request.network } := by
      refine ⟨h.payload, h.required, fun l hl => (hact l hl).2, ?_⟩
      -- Ids are unique in one keyring, so the entry is the listed one.
      intro key hkey _ l hl hid
      rw [huniq.eq hkey (hact l hl).1 hid]
      exact ⟨rfl, rfl⟩
    simp only [goOn, hrun]
    exact signNext_sound hsound (fun _ hl => hl) fun _ hs => absurd hs not_mem_nil
  | signing key =>
    rw [hrun] at hstage
    obtain ⟨hkey, hleft, hsigs⟩ := hstage
    simp only [goOn, hrun]
    cases hsign : keyring.signWith env key.id run.payload with
    | none => exact signNext_sound h.toListedSound hleft hsigs
    | some =>
      refine signNext_sound h.toListedSound hleft fun s' hs' => ?_
      rcases mem_snoc.1 hs' with hold | rfl
      · exact hsigs s' hold
      · exact ofListed_signWith h.toListedSound hkey hsign
  | checking =>
    rw [hrun] at hstage
    obtain ⟨hs, hleft, hval⟩ := hstage
    simp only [goOn, hrun]
    refine check_sound h.toListedSound hleft ?_
    split
    · rename_i hact
      exact forall_mem_snoc.2 ⟨hval, ⟨hs, hact⟩⟩
    · exact hval

/-! ## Runs -/

/-- What every reached state satisfies. -/
structure QuorumInv (env : KeyringEnv) (s : QuorumState) : Prop where
  unique : s.keyring.UniqueIds
  running : ∀ run, s.running = some run → RunSound env s.keyring run
  decisions : ∀ id d, s.decisions.get? id = some d → ∀ produced, d.outcome = .ok produced →
    Authoritative env d.request produced
  history : ∀ request produced, .resolved request produced ∈ s.history →
    Authoritative env request produced

variable {s s' : QuorumState}

theorem resolved_endEvent {request request' : QuorumRequest} {outcome : Except String Produced}
    {produced : Produced} (h : QuorumEvent.resolved request' produced = endEvent request outcome) :
    request' = request ∧ outcome = .ok produced := by
  cases outcome with
  | error => cases h
  | ok =>
    cases h
    exact ⟨rfl, rfl⟩

/-- The outcome of a collection is kept and reported. -/
theorem QuorumInv.settle (h : QuorumInv env s) (request : QuorumRequest)
    {outcome : Except String Produced}
    (hout : ∀ produced, outcome = .ok produced → Authoritative env request produced) :
    QuorumInv env (s.settle request outcome) := by
  refine ⟨h.unique, ?_, ?_, ?_⟩
  · rintro run ⟨⟩
  · exact OrdMap.forall_get?_set h.decisions hout
  · intro request' produced hmem
    rcases mem_snoc.1 hmem with hold | hnew
    · exact h.history request' produced hold
    · obtain ⟨rfl, hok⟩ := resolved_endEvent hnew
      exact hout produced hok

/-- A collection goes on after a read that meets the condition. -/
theorem QuorumInv.read (h : QuorumInv env s) {read : KeystoreRead} (hrunn : s.running = some run)
    (hsteady : Steady env s (.read read)) :
    QuorumInv env ({ s with keyring := refreshIfChanged env s.keyring read }.proceed run.request
      (run.goOn env (refreshIfChanged env s.keyring read))) := by
  obtain ⟨hlisted, hpass⟩ := hsteady run hrunn
  have huniq : (refreshIfChanged env s.keyring read).UniqueIds :=
    uniqueIds_refreshIfChanged h.unique read
  have hsound := goOn_sound ((h.running run hrunn).read hlisted hpass) huniq
  cases hprog : run.goOn env (refreshIfChanged env s.keyring read) with
  | reads =>
    rw [hprog] at hsound
    refine ⟨huniq, ?_, h.decisions, h.history⟩
    rintro _ ⟨⟩
    exact hsound.2
  | ends outcome =>
    -- The outcome is kept and reported after the run is over.
    rw [hprog] at hsound
    have hinv : QuorumInv env { s with
        keyring := refreshIfChanged env s.keyring read, running := none } :=
      ⟨huniq, fun _ hnone => absurd hnone.symm (Option.some_ne_none _), h.decisions, h.history⟩
    refine hinv.settle run.request fun produced hprod => ?_
    cases outcome with
    | error => cases hprod
    | ok result =>
      cases hprod
      exact hsound result rfl

theorem QuorumInv.step {l : QuorumLabel} (h : QuorumInv env s) (hsteady : Steady env s l)
    (hstep : quorumStep env s l = some s') : QuorumInv env s' := by
  simp only [quorumStep] at hstep
  split at hstep
  · rename_i request hidle
    split at hstep
    · -- The promise of an earlier call, made for the same request.
      rename_i existing hex
      cases hstep
      refine ⟨h.unique, h.running, h.decisions, fun request' produced hmem => ?_⟩
      rcases mem_snoc.1 hmem with hold | hnew
      · exact h.history request' produced hold
      obtain ⟨rfl, hok⟩ := resolved_endEvent hnew
      rw [← hsteady existing hex (by rw [hok]; rfl)]
      exact h.decisions _ existing hex produced hok
    · split at hstep
      · cases hstep
        exact h.settle request fun produced hprod => by cases hprod
      rename_i payload hpl
      cases hstep
      refine ⟨h.unique, ?_, h.decisions, h.history⟩
      rintro _ ⟨⟩
      refine ⟨⟨hpl, rfl, ?_, ?_⟩, rfl⟩
      · exact fun l hl => absurd hl not_mem_nil
      · exact fun _ _ _ l hl => absurd hl not_mem_nil
  · rename_i read hidle
    cases hstep
    refine ⟨uniqueIds_refreshIfChanged h.unique read, fun run hrun => ?_, h.decisions, h.history⟩
    exact absurd (hidle.symm.trans hrun).symm (Option.some_ne_none _)
  · rename_i read run hrunn
    cases hstep
    exact h.read hrunn hsteady
  · rename_i decisionId hidle
    split at hstep
    · cases hstep
      refine ⟨h.unique, h.running, fun id d hd => ?_, h.history⟩
      exact h.decisions id d (OrdMap.get?_delete_eq_some_iff.1 hd).2
    · cases hstep
  · cases hstep

/-- Whenever `collect` resolves, its signatures are an authoritative quorum for the request, in
every run whose requests and keystores are steady. -/
theorem resolved_authoritative (env : KeyringEnv) (read : KeystoreRead) (s : QuorumState)
    (hrun : RunWhere (QuorumSteps env) (Steady env) (.start env read) s) (request : QuorumRequest)
    (produced : Produced) (hresolved : .resolved request produced ∈ s.history) :
    Authoritative env request produced := by
  have hinv : QuorumInv env s := by
    refine hrun.invariant (QuorumInv env) ?_ fun _ _ _ ha => ha.step
    refine ⟨uniqueIds_new read, ?_, ?_, ?_⟩
    · rintro run ⟨⟩
    · rintro id d ⟨⟩
    · exact fun _ _ hmem => absurd hmem not_mem_nil
  exact hinv.history request produced hresolved

/-! ### Two relayers -/

/-- A keystore on disk; secrets of the form `S…` are seeds, and a signature shows its key and the
bytes it is over. -/
def quorumEnv : KeyringEnv where
  keystorePath := some "/secrets/keys.json"
  relayerSecret := none
  stellarNetwork := none
  quorumThresholds := none
  nonPayoutFeeds := none
  defaultThreshold := none
  payoutThreshold := none
  toNumber _ := .nan
  toLowerCase text := text
  isValidSeed secret := secret.toList.head? = some 'S'
  publicKeyOf secret := "G" ++ secret
  sha256 bytes := bytes
  sign secret bytes := "G" ++ secret ++ String.ofList (bytes.map fun b => Char.ofNat b.toNat)
  verifies publicKey bytes signature :=
    decide (signature = publicKey ++ String.ofList (bytes.map fun b => Char.ofNat b.toNat))
  verifies_sign _ _ := decide_eq_true rfl

/-- A file with these keys, changed at this time. -/
def keystore (mtimeMs : ℚ) (entries : List RawEntry) : KeystoreRead :=
  ⟨some mtimeMs, some mtimeMs, some entries⟩

def entryA : RawEntry := ⟨some "a", some "SA", some "testnet", true⟩
def entryB : RawEntry := ⟨some "b", some "SB", some "testnet", true⟩
def entryC : RawEntry := ⟨some "c", some "SC", some "testnet", true⟩

/-- The delay of a flight, in minutes. -/
def delayRequest (minutes : ℚ) : QuorumRequest :=
  ⟨"CORACLE", "testnet", "FlightDelay", .finite minutes, "decision-1"⟩

/-- A relayer is revoked while the signatures are checked; the second attempt takes another one. -/
theorem resolved_authoritative_rotated :
    ∃ s produced, RunWhere (QuorumSteps quorumEnv) (Steady quorumEnv)
        (.start quorumEnv (keystore 1 [entryA, entryB, entryC])) s ∧
      .resolved (delayRequest 60) produced ∈ s.history ∧
      produced.result.signatures.map (·.keyId) = ["a", "c"] ∧
      Authoritative quorumEnv (delayRequest 60) produced := by
  simp only [exists_and_left]
  refine RunWhere.exists_reached
    (.collect (delayRequest 60) :: List.replicate 4 (.read (keystore 1 [])) ++
      List.replicate 6 (.read (keystore 2 [entryA, { entryB with active := false }, entryC])))
    (fun s => s.history.any (fun e => match e with
      | .resolved request produced => decide (request = delayRequest 60 ∧
          produced.result.signatures.map (·.keyId) = ["a", "c"])
      | .rejected _ _ => false) = true) (by decide +kernel) fun s hrun hs => ?_
  obtain ⟨e, hmem, he⟩ := any_eq_true.1 hs
  cases e with
  | rejected => cases he
  | resolved _ produced =>
    obtain ⟨rfl, hkeys⟩ := of_decide_eq_true he
    exact ⟨produced, hmem, hkeys, resolved_authoritative quorumEnv _ s hrun _ produced hmem⟩

/-- A second call for the decision, with another delay, is answered with the signatures over the
first one. -/
theorem resolved_for_other_value :
    ∃ s, RunWhere (QuorumSteps quorumEnv) (fun _ _ => True)
        (.start quorumEnv (keystore 1 [entryA, entryB])) s ∧
      ∃ request produced, .resolved request produced ∈ s.history ∧
        ¬Authoritative quorumEnv request produced := by
  refine RunWhere.exists_reached
    (.collect (delayRequest 60) :: List.replicate 5 (.read (keystore 1 [])) ++
      [QuorumLabel.collect (delayRequest 600)])
    (fun s => s.history.any (fun e => match e with
      | .resolved request produced => decide (request = delayRequest 600) &&
          (payloadOf request).toOption.all fun payload => produced.result.signatures.any fun v =>
            !quorumEnv.verifies v.publicKey (quorumEnv.sha256 payload) v.signature
      | .rejected _ _ => false) = true) (by decide +kernel) fun s _ hs => ?_
  obtain ⟨e, hmem, he⟩ := any_eq_true.1 hs
  cases e with
  | rejected => cases he
  | resolved request produced =>
    refine ⟨request, produced, hmem, fun hauthoritative => ?_⟩
    obtain ⟨payload, hpayload, hverifies⟩ := hauthoritative.signed
    simp only [Bool.and_eq_true, hpayload, Except.toOption, Option.all_some,
      any_eq_true] at he
    obtain ⟨-, v, hv, hforeign⟩ := he
    rw [hverifies v hv] at hforeign
    cases hforeign

end Refract.Oracle
