import Refract.Lib.Runs
import Refract.Oracle.IngestionPipeline

/-!
# What the ingestion pipeline accepts

A signed request is accepted once: its nonce stays in the store until its timestamp is out of the
window. Readings that were pushed come from requests that verify. And the readings of a source and a
feed come in the order of their times, with increasing sequences from the first one that has a
sequence on (`accepted_once_authentic_in_order`). The last holds as long as no sequence is `NaN`
(`SequencesComparable`): `check` compares sequences without looking at what they are, every
comparison with `NaN` is false, and so after a `NaN` a sequence may go back
(`sequence_goes_back_after_nan`).
-/

namespace Refract.Oracle.Ingestion

open Lib List OrdMap PipelineEvent JsNumber

/-! ## What is delivered -/

def PipelineEvent.result : PipelineEvent → IngestionResult
  | .webhook _ _ _ result _ => result
  | .pull _ _ result => result

/-- The request of a webhook that came to `accept`. -/
def PipelineEvent.request : PipelineEvent → Option SignedRequest
  | .webhook request _ _ _ _ => some request
  | .pull _ _ _ => none

/-- The request of a webhook that was answered with `ok`. -/
def PipelineEvent.okRequest : PipelineEvent → Option SignedRequest
  | .webhook request _ _ _ resolved => if resolved then some request else none
  | .pull _ _ _ => none

/-- The readings that were handed to the sinks. -/
def delivered (history : List PipelineEvent) : List IngestedReading :=
  history.flatMap fun e => e.result.accepted

theorem delivered_snoc (history : List PipelineEvent) (e : PipelineEvent) :
    delivered (history ++ [e]) = delivered history ++ e.result.accepted := by
  simp [delivered]

theorem okRequests_sublist (history : List PipelineEvent) : (history.filterMap okRequest).Sublist
      (history.filterMap request) := by
  induction history with
  | nil => exact List.Sublist.refl _
  | cons e _ ih =>
    cases e with
    | webhook request _ _ _ resolved =>
      cases resolved with
      | true => exact ih.cons_cons request
      | false => exact ih.cons request
    | pull => exact ih

/-- A later reading of the same source and feed is newer, and has a greater sequence if the earlier
one has a sequence. -/
def InOrder (d d' : IngestedReading) : Prop :=
  d.sourceId = d'.sourceId → d.feedId = d'.feedId →
    d.observedAt.lt d'.observedAt = true ∧
      ∀ q ∈ d.sequence, ∃ q' ∈ d'.sequence, q.lt q' = true

/-- The signature is that of a key of the source which is active, and the timestamp is within the
window. -/
def Authentic (host : IngestionHost) (config : IngestionConfig)
    (sources : OrdMap String OracleSource) (request : SignedRequest) (signature : String)
    (now : Int) : Prop :=
  ∃ source, sources.get? request.sourceId = some source ∧
    ∃ credential ∈ source.credentials, credential.keyId = request.keyId ∧
      credential.ActiveAt now ∧ WithinSkew config.webhookMaxSkewMs request.timestamp now ∧
      host.hmac credential.secret request signature = true

/-- The readings that an adapter hands over with a step. -/
def PipelineLabel.readings : PipelineLabel → List SourceReading
  | .webhook _ _ (.readings parsed) _ _ => parsed
  | .pull _ readings _ => readings
  | .webhook _ _ .invalidJson _ _ | .webhook _ _ .invalidPayload _ _ | .register _ => []

/-- No reading that comes with the step has the sequence `NaN`. -/
def SequencesComparable (_ : PipelineState) (l : PipelineLabel) : Prop :=
  ∀ r ∈ l.readings, r.sequence ≠ some .nan

instance (s : PipelineState) (l : PipelineLabel) : Decidable (SequencesComparable s l) :=
  inferInstanceAs (Decidable (∀ r ∈ l.readings, r.sequence ≠ some .nan))

/-! ## The order of the readings -/

/-- A reading is not past the last accepted one. -/
def UpTo (r : SourceReading) (last : LastReading) : Prop :=
  (r.observedAt = last.observedAt ∨ r.observedAt.lt last.observedAt = true) ∧
    ∀ q ∈ r.sequence, ∃ q' ∈ last.sequence, q = q' ∨ q.lt q' = true

/-- The readings are in order, and `lastAccepted` has the last ones. -/
structure Tracks (lastAccepted : OrdMap String LastReading) (readings : List IngestedReading) :
    Prop where
  covers : ∀ d ∈ readings, ∃ last, lastAccepted.get? (lastKey d.sourceId d.feedId) = some last ∧
    UpTo d.toSourceReading last
  comparable : ∀ {key last}, lastAccepted.get? key = some last →
    last.observedAt ≠ .nan ∧ last.sequence ≠ some .nan
  ordered : readings.Pairwise InOrder

variable {source : OracleSource} {now : Int} {sourceId : String}
  {lastAccepted : OrdMap String LastReading} {last : LastReading} {r : SourceReading}

/-- A reading that the last accepted one allows is past everything up to that one. -/
theorem checkOrder_eq_none (h : checkOrder last r = none) (hlast : last.observedAt ≠ .nan)
    (hr : r.observedAt ≠ .nan) (hlastSeq : last.sequence ≠ some .nan)
    (hrSeq : r.sequence ≠ some .nan) :
    last.observedAt.lt r.observedAt = true ∧
      ∀ q ∈ last.sequence, ∃ q' ∈ r.sequence, q.lt q' = true := by
  simp only [checkOrder] at h
  split at h
  · cases h
  rename_i hnewer
  refine ⟨lt_of_not_le hr hlast (by simpa using hnewer), ?_⟩
  split at h
  · rename_i hnone
    simp [hnone]
  · cases h
  · rename_i before next hbef hnext
    split at h
    · cases h
    rename_i hgreater
    intro q hq
    cases hbef.symm.trans hq
    refine ⟨next, hnext, lt_of_not_le ?_ ?_ (by simpa using hgreater)⟩
    · exact fun hnan => hrSeq (hnan ▸ hnext)
    · exact fun hnan => hlastSeq (hnan ▸ hbef)

theorem UpTo.trans {d : SourceReading} (h : UpTo d last)
    (hpast : last.observedAt.lt r.observedAt = true ∧
      ∀ q ∈ last.sequence, ∃ q' ∈ r.sequence, q.lt q' = true) :
    d.observedAt.lt r.observedAt = true ∧ ∀ q ∈ d.sequence, ∃ q' ∈ r.sequence, q.lt q' = true := by
  refine ⟨?_, fun q hq => ?_⟩
  · rcases h.1 with heq | hlt
    · rw [heq]
      exact hpast.1
    · exact lt_trans hlt hpast.1
  · obtain ⟨q', hq', hle⟩ := h.2 q hq
    obtain ⟨q'', hq'', hlt⟩ := hpast.2 q' hq'
    refine ⟨q'', hq'', ?_⟩
    rcases hle with rfl | hle
    · exact hlt
    · exact lt_trans hle hlt

variable {config : IngestionConfig} {signedAtMs : Option Int}

/-- What a reading that passes `check` has. -/
theorem check_eq_none (h : check config lastAccepted source r now signedAtMs = none) :
    r.observedAt ≠ .nan ∧
      ∀ last ∈ lastAccepted.get? (lastKey source.id r.feedId), checkOrder last r = none := by
  simp only [check] at h
  split at h
  · cases h
  split at h
  · rename_i observedAt _ hobserved
    refine ⟨fun hnan => ?_, fun last hlast => ?_⟩
    · rw [hnan] at hobserved
      cases hobserved
    · iterate 3
        split at h
        · cases h
      exact Option.bind_eq_none_iff.1 h last hlast
  · cases h

theorem Tracks.push {readings : List IngestedReading} (h : Tracks lastAccepted readings)
    (hr : r.observedAt ≠ .nan) (hseq : r.sequence ≠ some .nan)
    (horder : ∀ last ∈ lastAccepted.get? (lastKey sourceId r.feedId), checkOrder last r = none)
    (mode : OracleSourceMode) (now : Int) :
    Tracks (lastAccepted.set (lastKey sourceId r.feedId) ⟨r.observedAt, r.sequence⟩)
      (readings ++ [⟨r, sourceId, mode, now⟩]) := by
  -- Everything accepted before under the same key is strictly before the new reading.
  have hpast : ∀ d ∈ readings, lastKey d.sourceId d.feedId = lastKey sourceId r.feedId →
      d.observedAt.lt r.observedAt = true ∧
        ∀ q ∈ d.sequence, ∃ q' ∈ r.sequence, q.lt q' = true := by
    intro d hd hkey
    obtain ⟨last, hlast, hupTo⟩ := h.covers d hd
    rw [hkey] at hlast
    obtain ⟨hnan, hseqNan⟩ := h.comparable hlast
    exact hupTo.trans (checkOrder_eq_none (horder last hlast) hnan hr hseqNan hseq)
  refine ⟨fun d hd => ?_, fun {key last} hlast => ?_, ?_⟩
  · rcases mem_snoc.1 hd with hold | rfl
    · by_cases hkey : lastKey d.sourceId d.feedId = lastKey sourceId r.feedId
      · obtain ⟨hlt, hsequence⟩ := hpast d hold hkey
        refine ⟨⟨r.observedAt, r.sequence⟩, by rw [hkey, get?_set_self], .inr hlt, ?_⟩
        intro q hq
        obtain ⟨q', hq', hlt'⟩ := hsequence q hq
        exact ⟨q', hq', .inr hlt'⟩
      · obtain ⟨last, hlast, hupTo⟩ := h.covers d hold
        exact ⟨last, by rw [get?_set_of_ne hkey, hlast], hupTo⟩
    · refine ⟨⟨r.observedAt, r.sequence⟩, get?_set_self, .inl rfl, ?_⟩
      exact fun q hq => ⟨q, hq, .inl rfl⟩
  · rcases get?_set_eq_some_iff.1 hlast with ⟨-, rfl⟩ | ⟨-, hold⟩
    · exact ⟨hr, hseq⟩
    · exact h.comparable hold
  · refine pairwise_snoc.2 ⟨h.ordered, fun d hd hsrc hfeed => hpast d hd ?_⟩
    rw [hsrc, hfeed]

/-- What `accept` writes into a reading. -/
def TaggedBy (source : OracleSource) (now : Int) (d : IngestedReading) : Prop :=
  d.sourceId = source.id ∧ d.mode = source.mode ∧ d.receivedAt = now

variable {before : List IngestedReading} {lastAccepted' : OrdMap String LastReading}
  {readings : List SourceReading} {result : IngestionResult}

/-- The loop of `accept` keeps the readings in order, and tags what it accepts. -/
theorem Tracks.acceptAll {result' : IngestionResult} (hseq : ∀ r ∈ readings, r.sequence ≠ some .nan)
    (h : Tracks lastAccepted (before ++ result.accepted))
    (htags : ∀ d ∈ result.accepted, TaggedBy source now d)
    (hall : Ingestion.acceptAll config source now signedAtMs readings lastAccepted result =
      (lastAccepted', result')) :
    Tracks lastAccepted' (before ++ result'.accepted) ∧
      ∀ d ∈ result'.accepted, TaggedBy source now d := by
  induction readings generalizing lastAccepted result with
  | nil =>
    cases hall
    exact ⟨h, htags⟩
  | cons r rest ih =>
    have hrest : ∀ r' ∈ rest, r'.sequence ≠ some .nan :=
      fun r' hr' => hseq r' (mem_cons_of_mem _ hr')
    simp only [Ingestion.acceptAll] at hall
    split at hall
    · refine ih hrest ?_ ?_ hall
      · exact h
      · exact htags
    rename_i hcheck
    obtain ⟨hnan, horder⟩ := check_eq_none hcheck
    refine ih hrest ?_ ?_ hall
    · rw [← append_assoc]
      exact h.push hnan (hseq r mem_cons_self) horder source.mode now
    · exact forall_mem_snoc.2 ⟨htags, ⟨rfl, rfl, rfl⟩⟩

theorem Tracks.accept {host : IngestionHost} (hhost : host.Lawful) (h : Tracks lastAccepted before)
    (hseq : ∀ r ∈ readings, r.sequence ≠ some .nan)
    (haccept : Ingestion.accept host config lastAccepted source readings now signedAtMs =
      (lastAccepted', result)) :
    Tracks lastAccepted' (before ++ result.accepted) ∧
      ∀ d ∈ result.accepted, TaggedBy source now d := by
  refine Tracks.acceptAll (fun r hr => ?_) ?_ ?_ haccept
  · exact hseq r ((hhost.sort_perm readings).mem_iff.1 hr)
  · rw [append_nil]
    exact h
  · simp

/-! ## Nonces -/

/-- A nonce is in the store, or its request is out of the window. -/
def Spent (config : IngestionConfig) (nonces : OrdMap String Int) (clock : Int)
    (request : SignedRequest) : Prop :=
  request.validUntil config < clock ∨
    ∃ expiresAt ∈ nonces.get? request.nonceKey, request.validUntil config < expiresAt

variable {capacity : Nat} {nonces nonces' : OrdMap String Int} {clock expiresAt : Int}
  {key : String} {claim : NonceClaim} {request : SignedRequest}

theorem Spent.sweep (h : Spent config nonces clock request) (hnow : clock ≤ now) :
    Spent config (sweep nonces now) now request := by
  rcases h with hold | ⟨expires, hexpires, hlt⟩
  · exact .inl (hold.trans_le hnow)
  by_cases hlive : now < expires
  · exact .inr ⟨expires, get?_filterValues_eq_some_iff.2
      ⟨hexpires, decide_eq_true hlive⟩, hlt⟩
  · exact .inl (hlt.trans_le (not_lt.1 hlive))

theorem Spent.later (h : Spent config nonces clock request) (hnow : clock ≤ now) :
    Spent config nonces now request := by
  rcases h with hold | hlive
  · exact .inl (hold.trans_le hnow)
  · exact .inr hlive

/-- A nonce that is set was free or expired. -/
theorem Spent.set (h : Spent config nonces now request)
    (hfree : ∀ existing ∈ nonces.get? key, existing ≤ now) (expiresAt : Int) :
    Spent config (nonces.set key expiresAt) now request := by
  rcases h with hold | ⟨expires, hexpires, hlt⟩
  · exact .inl hold
  by_cases hkey : request.nonceKey = key
  · rw [hkey] at hexpires
    exact .inl (hlt.trans_le (hfree expires hexpires))
  · exact .inr ⟨expires, by rw [get?_set_of_ne hkey]; exact hexpires, hlt⟩

/-- A claim may sweep the store; a fresh nonce was not live, and is set. -/
theorem claimNonce_cases
    (hclaim : claimNonce capacity nonces key expiresAt now = (claim, nonces')) :
    ∃ kept, (kept = nonces ∨ kept = sweep nonces now) ∧
      (claim ≠ .fresh ∧ nonces' = kept ∨
        (∀ existing ∈ nonces.get? key, existing ≤ now) ∧ nonces' = kept.set key expiresAt) := by
  simp only [claimNonce] at hclaim
  split at hclaim
  · rename_i existing hex
    refine ⟨nonces, .inl rfl, ?_⟩
    split at hclaim
    · cases hclaim
      simp
    · cases hclaim
      simp_all
  · rename_i hnone
    split at hclaim
    · refine ⟨sweep nonces now, .inr rfl, ?_⟩
      split at hclaim
      · cases hclaim
        simp
      · cases hclaim
        simp [hnone]
    · cases hclaim
      exact ⟨nonces, by simp [hnone]⟩

/-- No claim sets free a nonce that could still be used. -/
theorem Spent.claimNonce (h : Spent config nonces clock request) (hnow : clock ≤ now)
    (hclaim : Ingestion.claimNonce capacity nonces key expiresAt now = (claim, nonces')) :
    Spent config nonces' now request := by
  obtain ⟨kept, hkept, ⟨-, rfl⟩ | ⟨hfree, rfl⟩⟩ := claimNonce_cases hclaim
  · rcases hkept with rfl | rfl
    · exact h.later hnow
    · exact h.sweep hnow
  · rcases hkept with rfl | rfl
    · exact (h.later hnow).set hfree _
    · exact (h.sweep hnow).set
        (fun other hoth => hfree other (get?_filterValues_eq_some_iff.1 hoth).1) _

/-- A request whose nonce could be claimed within the window was not accepted before. -/
theorem Spent.not_fresh (h : Spent config nonces clock request) (hnow : clock ≤ now)
    (hwin : now ≤ request.validUntil config)
    (hclaim : Ingestion.claimNonce capacity nonces request.nonceKey expiresAt now =
      (.fresh, nonces')) : False := by
  rcases h with hold | ⟨expires, hexpires, hlt⟩
  · exact absurd (hold.trans_le hnow) (not_lt.2 hwin)
  · obtain ⟨_, -, ⟨hne, -⟩ | ⟨hfree, -⟩⟩ := claimNonce_cases hclaim
    · exact hne rfl
    · exact absurd (hfree expires hexpires) (by omega)

/-! ## The invariant -/

/-- A webhook event is that of an authentic request; what was accepted with it is pushed by its
source. What was accepted with a pull is not pushed. -/
def Attributed (host : IngestionHost) (config : IngestionConfig)
    (sources : OrdMap String OracleSource) : PipelineEvent → Prop
  | .webhook request signature now result _ =>
    Authentic host config sources request signature now ∧
      ∀ d ∈ result.accepted, d.sourceId = request.sourceId ∧ d.receivedAt = now
  | .pull _ _ result => ∀ d ∈ result.accepted, d.mode = .pull

/-- The nonces of the accepted requests are spent, the requests are different, the events are
attributed, and the readings are in order. -/
structure Sound (host : IngestionHost) (config : IngestionConfig) (s : PipelineState) : Prop where
  spent : ∀ request ∈ s.history.filterMap PipelineEvent.request,
    Spent config s.nonces s.clock request
  once : (s.history.filterMap PipelineEvent.request).Nodup
  attributed : ∀ e ∈ s.history, Attributed host config s.sources e
  tracks : Tracks s.lastAccepted (delivered s.history)
  ids : ∀ {id source}, s.sources.get? id = some source → source.id = id

theorem Sound.initial (host : IngestionHost) (config : IngestionConfig) (clock : Int) :
    Sound host config (.initial clock) := by
  refine ⟨?_, ?_, ?_, ⟨?_, ?_, ?_⟩, ?_⟩
  all_goals simp [PipelineState.initial, delivered]

variable {host : IngestionHost} {s s' : PipelineState}

/-- A new source changes no old one. -/
theorem Attributed.register {e : PipelineEvent} (hnew : s.sources.get? source.id = none)
    (h : Attributed host config s.sources e) :
    Attributed host config (s.sources.set source.id source) e := by
  cases e with
  | webhook request =>
    obtain ⟨⟨known, hknown, hcred⟩, htags⟩ := h
    have hne : request.sourceId ≠ source.id := by
      intro heq
      rw [heq, hnew] at hknown
      cases hknown
    exact ⟨⟨known, by rw [get?_set_of_ne hne]; exact hknown, hcred⟩, htags⟩
  | pull => exact h

theorem register_eq_ok (h : register s source = .ok s') :
    s.sources.get? source.id = none ∧
      s' = { s with sources := s.sources.set source.id source } := by
  simp only [register] at h
  iterate 2
    split at h
    · cases h
  rename_i hnew
  have hnone : s.sources.get? source.id = none := by simpa [OrdMap.contains] using hnew
  split at h
  · cases h
  split at h
  · obtain ⟨_, -, h⟩ := exceptBind_eq_ok h
    cases h
    exact ⟨hnone, rfl⟩
  · cases h
    exact ⟨hnone, rfl⟩

theorem Sound.registers (h : Sound host config s) (hregister : register s source = .ok s') :
    Sound host config s' := by
  obtain ⟨hnew, rfl⟩ := register_eq_ok hregister
  refine ⟨h.spent, h.once, fun e he => (h.attributed e he).register hnew, h.tracks, ?_⟩
  intro id other hoth
  rcases get?_set_eq_some_iff.1 hoth with ⟨rfl, rfl⟩ | ⟨-, hold⟩
  · rfl
  · exact h.ids hold

variable {signature : String}

/-- What an authenticated webhook has. -/
theorem authenticate_eq_ok {webhook : InboundWebhook}
    (h : authenticate host config s sourceId webhook now = .ok (source, request, signature)) :
    s.sources.get? request.sourceId = some source ∧
      Authentic host config s.sources request signature now := by
  simp only [authenticate] at h
  iterate 2
    split at h
    · cases h
  rename_i known hknown _
  iterate 3
    split at h
    · cases h
  rename_i hverify
  cases h
  refine ⟨hknown, source, hknown, ?_⟩
  simp only [verifyWebhookSignature] at hverify
  iterate 4
    split at hverify
    · cases hverify
  rename_i credential hcred hact hwin hhmac
  refine ⟨credential, mem_of_find?_eq_some hcred, ?_,
    not_not.1 hact, not_not.1 hwin, by simpa using hhmac⟩
  simpa using find?_some hcred

theorem Authentic.le_validUntil {sources : OrdMap String OracleSource}
    (h : Authentic host config sources request signature now) :
    now ≤ request.validUntil config := by
  obtain ⟨-, -, -, -, -, -, hwin, -⟩ := h
  have hle := (abs_le.1 hwin).2
  simp only [SignedRequest.validUntil]
  omega

/-- A call that ends before `accept` leaves the nonces of the accepted requests spent. -/
theorem Sound.claims (h : Sound host config s)
    (hspent : ∀ request ∈ s.history.filterMap PipelineEvent.request,
      Spent config nonces now request) :
    Sound host config { s with nonces, clock := now } :=
  { h with spent := hspent }

namespace Sound

variable (hhost : host.Lawful) (h : Sound host config s)

include hhost h

/-- A request is accepted for the first time. -/
theorem accepts {webhook : InboundWebhook} (hnow : s.clock ≤ now)
    (hauthentic : authenticate host config s sourceId webhook now =
      .ok (source, request, signature))
    (hclaim : claimNonce capacity s.nonces request.nonceKey (request.validUntil config + 1) now =
      (.fresh, nonces)) (hseq : ∀ r ∈ readings, r.sequence ≠ some .nan)
    (haccept : accept host config s.lastAccepted source readings now
      (some (request.timestamp * 1000)) = (lastAccepted, result)) (resolved : Bool) :
    Sound host config { s with
      nonces
      lastAccepted
      history := s.history ++ [PipelineEvent.webhook request signature now result resolved]
      clock := now } := by
  obtain ⟨hsrc, hver⟩ := authenticate_eq_ok hauthentic
  obtain ⟨htrk, htags⟩ := h.tracks.accept hhost hseq haccept
  have hreqs : (s.history ++ [PipelineEvent.webhook request signature now result
      resolved]).filterMap PipelineEvent.request =
      s.history.filterMap PipelineEvent.request ++ [request] := by
    simp [filterMap_append, PipelineEvent.request]
  have hset : nonces.get? request.nonceKey = some (request.validUntil config + 1) := by
    obtain ⟨_, -, ⟨hne, -⟩ | ⟨-, rfl⟩⟩ := claimNonce_cases hclaim
    · exact absurd rfl hne
    · exact get?_set_self
  refine ⟨?_, ?_, ?_, ?_, h.ids⟩
  · rw [hreqs]
    exact forall_mem_snoc.2
      ⟨fun other hold => (h.spent other hold).claimNonce hnow hclaim,
        .inr ⟨_, hset, Int.lt_succ _⟩⟩
  · rw [hreqs]
    refine pairwise_snoc.2 ⟨h.once, fun other hold heq => ?_⟩
    subst heq
    exact (h.spent _ hold).not_fresh hnow hver.le_validUntil hclaim
  · refine forall_mem_snoc.2 ⟨h.attributed, ?_⟩
    refine ⟨hver, fun d hd => ?_⟩
    obtain ⟨hid, -, hreceived⟩ := htags d hd
    exact ⟨hid.trans (h.ids hsrc), hreceived⟩
  · simpa [delivered, PipelineEvent.result] using htrk

theorem webhook {webhook : InboundWebhook} {parsed : ParsedBody} {resolved : Bool}
    (hnow : s.clock ≤ now)
    (hseq : ∀ readings, parsed = .readings readings → ∀ r ∈ readings, r.sequence ≠ some .nan) :
    Sound host config
      { (ingestWebhook host config capacity s sourceId webhook parsed now resolved).1 with
        clock := now } := by
  have hlater := h.claims fun request hreq => (h.spent request hreq).later hnow
  simp only [ingestWebhook]
  split
  · exact hlater
  rename_i source request signature hauthentic
  have hclaims : ∀ {claim nonces}, claimNonce capacity s.nonces request.nonceKey
      (request.validUntil config + 1) now = (claim, nonces) →
      Sound host config { s with nonces, clock := now } := fun hclaim =>
    h.claims fun other hoth => (h.spent other hoth).claimNonce hnow hclaim
  split
  iterate 2
    · rename_i hclaim
      exact hclaims hclaim
  rename_i hclaim
  split
  · exact hclaims hclaim
  rename_i readings hread
  have hparsed : parsed = .readings readings := by
    simp only [ParsedBody.limited] at hread
    split at hread
    iterate 2 cases hread
    split at hread <;> cases hread
    rfl
  exact h.accepts hhost hnow hauthentic hclaim (hseq readings hparsed) rfl resolved

theorem pull (hseq : ∀ r ∈ readings, r.sequence ≠ some .nan)
    (hpull : ingestPull host config s sourceId readings now = .ok (s', result)) :
    Sound host config { s' with clock := max s.clock now } := by
  simp only [ingestPull] at hpull
  split at hpull
  · cases hpull
  rename_i source hsrc
  split at hpull
  · cases hpull
  rename_i hmode
  rcases haccept : accept host config s.lastAccepted source readings now none with
    ⟨lastAccepted, accepted⟩
  rw [haccept] at hpull
  cases hpull
  obtain ⟨htrk, htags⟩ := h.tracks.accept hhost hseq haccept
  have hreqs : (s.history ++ [pull sourceId now accepted]).filterMap
      request = s.history.filterMap request := by
    simp [filterMap_append, request]
  refine ⟨?_, ?_, ?_, ?_, h.ids⟩
  · rw [hreqs]
    exact fun request hreq => (h.spent request hreq).later (le_max_left _ _)
  · rw [hreqs]
    exact h.once
  · exact forall_mem_snoc.2
      ⟨h.attributed, fun d hd => (htags d hd).2.1.trans (not_ne_iff.1 hmode)⟩
  · rw [delivered_snoc]
    exact htrk

theorem step {l : PipelineLabel} (hseq : SequencesComparable s l)
    (hstep : PipelineSteps host config capacity s l s') :
    Sound host config s' := by
  cases l with
  | register =>
    simp only [PipelineSteps, pipelineStep] at hstep
    split at hstep
    · rename_i hregister
      cases hstep
      exact h.registers hregister
    · cases hstep
      exact h
  | webhook _ webhook =>
    simp only [PipelineSteps, pipelineStep] at hstep
    split at hstep
    · cases hstep
    rename_i hnow
    cases hstep
    refine h.webhook hhost (not_lt.1 hnow) fun readings hparsed r hr => ?_
    subst hparsed
    exact hseq r hr
  | pull =>
    simp only [PipelineSteps, pipelineStep] at hstep
    split at hstep
    · rename_i hpull
      cases hstep
      exact h.pull hhost hseq hpull
    · cases hstep
      exact h

end Sound

/-! ## Runs -/

/-- No request is answered with `ok` twice, every reading that was pushed comes from a request that
verifies, and the readings of each source and feed are delivered in order. -/
theorem accepted_once_authentic_in_order (host : IngestionHost) (hhost : host.Lawful)
    (config : IngestionConfig) (capacity : Nat) (clock : Int) (s : PipelineState)
    (hrun : RunWhere (PipelineSteps host config capacity) SequencesComparable (.initial clock) s) :
    (s.history.filterMap okRequest).Nodup ∧ (∀ d ∈ delivered s.history, d.mode = .push →
        ∃ request signature result resolved,
          .webhook request signature d.receivedAt result resolved ∈ s.history ∧
            d ∈ result.accepted ∧ d.sourceId = request.sourceId ∧
            Authentic host config s.sources request signature d.receivedAt) ∧
      (delivered s.history).Pairwise InOrder := by
  have h : Sound host config s := RunWhere.invariant (Sound host config) hrun
    (Sound.initial host config clock) fun _ _ _ ha => ha.step hhost
  refine ⟨?_, ?_, h.tracks.ordered⟩
  · exact h.once.sublist (okRequests_sublist s.history)
  · intro d hd hpush
    obtain ⟨e, he, haccepted⟩ := mem_flatMap.1 hd
    have hattributed := h.attributed e he
    cases e with
    | webhook request signature _ result resolved =>
      obtain ⟨hid, hreceived⟩ := hattributed.2 d haccepted
      rw [hreceived]
      exact ⟨request, signature, result, resolved, he, haccepted, hid, hattributed.1⟩
    | pull =>
      rw [hattributed d haccepted] at hpush
      cases hpush

/-! ### A push source and a pull source -/

/-- A host that accepts one signature and sorts with the comparator. -/
def sampleHost : IngestionHost where
  hmac _ _ signature := decide (signature = "v1=" ++ String.ofList (List.replicate 64 'a'))
  sort := sortBy compareReadings

theorem sampleHost_lawful : sampleHost.Lawful where
  sort_perm _ := sortBy_perm
  sort_eq _ _ := rfl

def samplePush : OracleSource where
  id := "acme"
  feeds := ["usdc-usd"]
  mode := .push
  credentials := [⟨"k1", String.ofList (List.replicate 32 's'), none, none⟩]

def samplePull : OracleSource where
  id := "poller"
  feeds := ["usdc-usd"]
  mode := .pull
  credentials := []

/-- A request with all its headers, signed at second 100. -/
def sampleWebhook : InboundWebhook where
  headers name :=
    if name = "x-refract-key-id" then some (.single "k1")
    else if name = "x-refract-timestamp" then some (.single "100")
    else if name = "x-refract-nonce" then some (.single "nonce-0000000001")
    else if name = "x-refract-signature" then
      some (.single ("v1=" ++ String.ofList (List.replicate 64 'a')))
    else none
  rawBody := some [123, 125]

def sampleReading (observedAt : ℚ) (sequence : Option JsNumber) : SourceReading :=
  ⟨"usdc-usd", "StablecoinDepeg", .finite 1, .finite observedAt, sequence⟩

/-- A delivery is accepted and its replay is not; a pull is accepted with it. -/
theorem accepted_once_authentic_in_order_replay :
    ∃ s, RunWhere (PipelineSteps sampleHost defaultIngestionConfig 10) SequencesComparable
        (.initial 0) s ∧ s.history.filterMap okRequest =
        [⟨"acme", "k1", 100, "nonce-0000000001", [123, 125]⟩] ∧
      (delivered s.history).map (fun d => (d.sourceId, d.observedAt)) =
        [("acme", .finite 99000), ("acme", .finite 100000), ("poller", .finite 99500)] ∧
      (delivered s.history).Pairwise InOrder :=
  ⟨_, .performed
    [.register samplePush, .register samplePull, .webhook "acme" sampleWebhook (.readings
      [sampleReading 100000 (some (.finite 2)), sampleReading 99000 none]) 100000 true,
     .webhook "acme" sampleWebhook (.readings [sampleReading 101000 none]) 101000 true,
     .pull "poller" [sampleReading 99500 none] 100500] (by decide +kernel),
    by decide +kernel, by decide +kernel,
    (accepted_once_authentic_in_order sampleHost sampleHost_lawful defaultIngestionConfig 10 0 _
      (.performed _ _)).2.2⟩

/-- After a reading with the sequence `NaN` the sequence goes back from 5 to 3. -/
theorem sequence_goes_back_after_nan :
    ¬∀ s, RunWhere (PipelineSteps sampleHost defaultIngestionConfig 10) (fun _ _ => True)
      (.initial 0) s → (delivered s.history).Pairwise InOrder := by
  intro hall
  have hordered := hall _ (.performed
    [.register samplePull, .pull "poller" [sampleReading 1000 (some (.finite 5))] 1000,
     .pull "poller" [sampleReading 2000 (some .nan)] 2000,
     .pull "poller" [sampleReading 3000 (some (.finite 3))] 3000] (by decide +kernel))
  -- The first reading and the last.
  have hlast := pairwise_iff_getElem.1 hordered 0 2 (by decide +kernel) (by decide +kernel)
    (by decide) (by decide +kernel) (by decide +kernel)
  revert hlast
  decide +kernel

end Refract.Oracle.Ingestion
