import Refract.Lib.Traces
import Refract.Oracle.ProviderCredentials

/-!
# Safety of provider credentials

The submission boundary accepts a raw key by the status column of its record. Over whole histories
of calls that status is right (`accepted_keys_valid`) as long as a revocation is reversed only for a
key that no completed rotation has superseded and with data its record can be inserted with, and
every rotation is completed before its overlap window ends. Without that, a key is accepted after
the window, after a rotation has superseded it, or after a reversal that was rejected.
-/

namespace Refract.Oracle

open Lib List CredentialEvent

/-! ## The law -/

/-- What the history has to say about a key that is accepted at time `t`. -/
structure MayBeAccepted (trace : List CredentialEvent) (keyId : String) (t : ℚ) : Prop where
  notSuperseded : .rotationCompleted keyId ∉ trace
  notRevoked : FollowedBy (· = .revoked keyId) (.reversed keyId ∈ ·) trace
  withinWindow : ∀ endsAt : Int, .rotationInitiated keyId endsAt ∈ trace → t < endsAt

/-- Before the call: the revocation of a key is reversed only if no completed rotation has
superseded the key, and if the superseding record can be inserted. -/
def SafeReversal (s : CredentialState) : CredentialCall → Prop
  | .reverseRevocation _ params supersedesRevocationId =>
    (∀ r ∈ s.db.rotations, r.oldKeyId = params.keyId → r.completedAt = none) ∧
      (∃ r ∈ s.db.revocations, r.id = supersedesRevocationId) ∧
      (revocationColumns params).isOk = true
  | .registerProvider .. | .revokeKey .. | .initiateRotation .. | .completeRotation .. => True

instance (s : CredentialState) (call : CredentialCall) : Decidable (SafeReversal s call) := by
  rcases call with _ | _ | _ | _ | _ <;> dsimp only [SafeReversal] <;> infer_instance

/-- Every rotation whose overlap window has ended by `t` is completed. -/
def CompletedInTime (s : CredentialState) (t : ℚ) : Prop :=
  ∀ r ∈ s.db.rotations, (r.overlapWindowEndsAt : ℚ) ≤ t → r.completedAt.isSome = true

instance (s : CredentialState) (t : ℚ) : Decidable (CompletedInTime s t) :=
  inferInstanceAs (Decidable (∀ r ∈ s.db.rotations, _ → _))

/-! ## What the statements do -/

variable {actor previous providerId : String} {key : ProviderKey} {params : RevocationParams}
  {now : ℚ} {rotation : KeyRotationRecord}

section Statements

variable {db db' : CredentialDb} {keyId : String} {status : KeyStatus}

/-- The status of a key is set, and nothing else that matters for acceptance changes. -/
structure SetsStatus (keyId : String) (status : KeyStatus) (db db' : CredentialDb) : Prop where
  providers : db'.providers = db.providers
  revocations : db'.revocations = db.revocations
  rotations : db'.rotations = db.rotations
  ids : db'.keys.map (·.id) = db.keys.map (·.id)
  owners : db'.keys.map (·.providerId) = db.keys.map (·.providerId)
  mem : ∀ k' ∈ db'.keys, (k'.id = keyId ∧ k'.status = status) ∨ (k' ∈ db.keys ∧ k'.id ≠ keyId)

theorem updateKeyStatus_spec {sequence : Option JsNumber}
    (h : updateKeyStatus db keyId status sequence = .ok db') : SetsStatus keyId status db db' := by
  obtain ⟨stored, -, h⟩ := exceptBind_eq_ok h
  cases h
  refine ⟨rfl, rfl, rfl, map_updateWhere fun _ _ _ => rfl, map_updateWhere fun _ _ _ => rfl, ?_⟩
  intro k' hk'
  obtain ⟨k, hk, ⟨hid, rfl⟩ | ⟨hid, rfl⟩⟩ := mem_updateWhere.1 hk'
  · exact .inl ⟨of_decide_eq_true hid, rfl⟩
  · exact .inr ⟨hk, of_decide_eq_false hid⟩

theorem createKey_spec {id keyHash : String} {version : Int}
    (h : createKey db id providerId keyHash version = .ok (db', key)) :
    key.id = id ∧ (∃ p ∈ db.providers, p.id = key.providerId) ∧
      db' = { db with keys := db.keys ++ [key] } := by
  iterate 2 obtain ⟨_, -, h⟩ := exceptBind_eq_ok h
  obtain ⟨_, hown, h⟩ := exceptBind_eq_ok h
  cases h
  exact ⟨rfl, enforce_eq_ok.1 hown, rfl⟩

theorem recordRevocation_spec {id : String} {previous : Option String} {record : RevocationRecord}
    (h : recordRevocation db id params providerId previous = .ok (db', record)) :
    record.keyId = params.keyId ∧ db' = { db with revocations := db.revocations ++ [record] } := by
  iterate 4 obtain ⟨_, -, h⟩ := exceptBind_eq_ok h
  cases h
  exact ⟨rfl, rfl⟩

theorem recordRevocation_isOk (id : String) (hcolumns : (revocationColumns params).isOk = true)
    (hkey : ∃ k ∈ db.keys, k.id = params.keyId) (hprov : ∃ p ∈ db.providers, p.id = providerId)
    (hprev : ∃ r ∈ db.revocations, r.id = previous) :
    ∃ db' record, recordRevocation db id params providerId (some previous) = .ok (db', record) := by
  obtain ⟨columns, hcolumns⟩ := exists_of_isOk hcolumns
  have hsupersedes : ∀ previous' ∈ some previous, ∃ r ∈ db.revocations, r.id = previous' := by
    rintro _ ⟨⟩
    exact hprev
  simp only [recordRevocation, hcolumns, enforce_eq_ok.2 hkey, enforce_eq_ok.2 hprov,
    enforce_eq_ok.2 hsupersedes]
  exact ⟨_, _, rfl⟩

theorem recordRotation_spec {id oldKeyId newKeyId : String} {endsAt : Option Int}
    (h : recordRotation db id providerId oldKeyId newKeyId endsAt actor now = .ok (db', rotation)) :
    rotation.id = id ∧ rotation.oldKeyId = oldKeyId ∧ rotation.completedAt = none ∧
      db' = { db with rotations := db.rotations ++ [rotation] } := by
  obtain ⟨_, -, h⟩ := exceptBind_eq_ok h
  cases endsAt with
  | none => cases h
  | some =>
    cases h
    exact ⟨rfl, rfl, rfl, rfl⟩

theorem getActiveRotation_mem (h : getActiveRotation db providerId = some rotation) :
    rotation ∈ db.rotations := by
  have hmem := mem_of_head? h
  rw [mem_sortBy] at hmem
  exact (mem_filter.1 hmem).1

end Statements

/-! ## The invariant -/

def CredentialEvent.keyId : CredentialEvent → String
  | .revoked keyId | .reversed keyId | .rotationInitiated keyId _ | .rotationCompleted keyId =>
    keyId

/-- The history allows the acceptance of a key, the overlap window apart. -/
def InGoodStanding (trace : List CredentialEvent) (keyId : String) : Prop :=
  .rotationCompleted keyId ∉ trace ∧ FollowedBy (· = .revoked keyId) (.reversed keyId ∈ ·) trace

/-- Every key with an acceptable status is in good standing, and the rotations and the history tell
the same. -/
structure CredentialInv (db : CredentialDb) (trace : List CredentialEvent) : Prop where
  owners : ∀ owner ∈ db.keys.map (·.providerId), ∃ p ∈ db.providers, p.id = owner
  rotationIds : UniqueKey (·.id) db.rotations
  known : ∀ e ∈ trace, e.keyId ∈ db.keys.map (·.id)
  oldKeys : ∀ r ∈ db.rotations, r.oldKeyId ∈ db.keys.map (·.id)
  standing : ∀ k ∈ db.keys, k.status.isAcceptable = true → InGoodStanding trace k.id
  initiated : ∀ keyId endsAt, .rotationInitiated keyId endsAt ∈ trace →
    ∃ r ∈ db.rotations, r.oldKeyId = keyId ∧ r.overlapWindowEndsAt = endsAt
  completed : ∀ keyId, .rotationCompleted keyId ∈ trace ↔
    ∃ r ∈ db.rotations, r.oldKeyId = keyId ∧ r.completedAt.isSome = true

namespace CredentialInv

variable {db db' : CredentialDb} {trace : List CredentialEvent} {keyId : String}
  {status : KeyStatus}

theorem empty : CredentialInv CredentialDb.empty [] := by
  constructor <;> simp [CredentialDb.empty, UniqueKey]

section

variable (h : CredentialInv db trace)

include h

/-- Setting a status: an acceptable one needs a key in good standing. -/
theorem set (hset : SetsStatus keyId status db db')
    (hstand : status.isAcceptable = true → InGoodStanding trace keyId) :
    CredentialInv db' trace := by
  cases db'
  obtain ⟨rfl, rfl, rfl, hids, howners, hmem⟩ := hset
  refine ⟨howners ▸ h.owners, h.rotationIds, hids ▸ h.known, hids ▸ h.oldKeys, ?_, h.initiated,
    h.completed⟩
  intro k hk hacc
  rcases hmem k hk with ⟨rfl, rfl⟩ | ⟨hold, -⟩
  · exact hstand hacc
  · exact h.standing k hold hacc

/-- An event that changes the standing of no acceptable key and needs no row. -/
theorem snoc (e : CredentialEvent) (hkey : e.keyId ∈ db.keys.map (·.id))
    (hrevoked : ∀ k ∈ db.keys, k.status.isAcceptable = true → e ≠ .revoked k.id)
    (hcomp : ∀ keyId, e ≠ .rotationCompleted keyId)
    (hinit : ∀ keyId endsAt, e = .rotationInitiated keyId endsAt →
      ∃ r ∈ db.rotations, r.oldKeyId = keyId ∧ r.overlapWindowEndsAt = endsAt) :
    CredentialInv db (trace ++ [e]) := { h with
  known := forall_mem_snoc.2 ⟨h.known, hkey⟩
  standing := by
    intro k hk hacc
    -- The event completes no rotation and revokes no acceptable key.
    obtain ⟨hnot, hfollowed⟩ := h.standing k hk hacc
    refine ⟨?_, hfollowed.snoc e ?_ ?_⟩
    · rw [mem_append, mem_singleton, not_or]
      exact ⟨hnot, (hcomp k.id).symm⟩
    · exact fun _ => mem_append_left _
    · exact fun he => absurd he (hrevoked k hk hacc)
  initiated := by
    intro keyId endsAt he
    rcases mem_snoc.1 he with hold | rfl
    · exact h.initiated keyId endsAt hold
    · exact hinit keyId endsAt rfl
  completed := by
    intro keyId
    rw [← h.completed keyId, mem_append, mem_singleton]
    exact or_iff_left (hcomp keyId).symm }

/-- A new key: nothing has happened to its id. -/
theorem insertKey (hfresh : ∀ k ∈ db.keys, k.id ≠ key.id)
    (hown : ∃ p ∈ db.providers, p.id = key.providerId) :
    CredentialInv { db with keys := db.keys ++ [key] } trace := { h with
  owners := by
    intro owner hmem
    rw [map_append] at hmem
    rcases mem_snoc.1 hmem with hold | rfl
    · exact h.owners owner hold
    · exact hown
  known := by
    intro e he
    rw [map_append]
    exact mem_append_left _ (h.known e he)
  oldKeys := by
    intro r hr
    rw [map_append]
    exact mem_append_left _ (h.oldKeys r hr)
  standing := by
    intro k hk hacc
    rcases mem_snoc.1 hk with hold | rfl
    · exact h.standing k hold hacc
    -- Every event is about a key that is there, so none is about the new one.
    have hunknown : ∀ e ∈ trace, e.keyId ≠ k.id := by
      intro e he heq
      obtain ⟨k', hk', hid⟩ := mem_map.1 (h.known e he)
      exact hfresh k' hk' (hid.trans heq)
    refine ⟨fun he => hunknown _ he rfl, ?_⟩
    rintro pre x post rfl htr
    exact absurd rfl (hunknown (.revoked k.id) (by simp [htr])) }

/-- A new rotation, in progress. -/
theorem insertRotation (hfresh : ∀ r ∈ db.rotations, r.id ≠ rotation.id)
    (hold : rotation.oldKeyId ∈ db.keys.map (·.id)) (hopen : rotation.completedAt = none) :
    CredentialInv { db with rotations := db.rotations ++ [rotation] } trace := { h with
  rotationIds := h.rotationIds.insert hfresh
  oldKeys := forall_mem_snoc.2 ⟨h.oldKeys, hold⟩
  initiated := by
    intro keyId endsAt he
    obtain ⟨r, hr, hr'⟩ := h.initiated keyId endsAt he
    exact ⟨r, mem_append_left _ hr, hr'⟩
  completed := by
    intro keyId
    rw [h.completed keyId]
    constructor
    · rintro ⟨r, hr, hr'⟩
      exact ⟨r, mem_append_left _ hr, hr'⟩
    · rintro ⟨r, hr, hkey, hsome⟩
      rcases mem_snoc.1 hr with hr₀ | rfl
      · exact ⟨r, hr₀, hkey, hsome⟩
      · rw [hopen] at hsome
        cases hsome }

/-- The completion of a rotation whose old key has no acceptable status any more. -/
theorem complete (hrot : rotation ∈ db.rotations)
    (hsup : ∀ k ∈ db.keys, k.status.isAcceptable = true → k.id ≠ rotation.oldKeyId) :
    CredentialInv (markCompleted db rotation.id now)
      (trace ++ [rotationCompleted rotation.oldKeyId]) := by
  have hmem : ∀ r, r ∈ (markCompleted db rotation.id now).rotations ↔
      r = { rotation with completedAt := some now } ∨ (r ∈ db.rotations ∧ r.id ≠ rotation.id) := by
    intro r
    exact h.rotationIds.mem_updateWhere hrot (decide_eq_true rfl)
      fun r' _ hr' => of_decide_eq_true hr'
  refine ⟨h.owners, h.rotationIds.updateWhere fun _ _ _ => rfl,
    forall_mem_snoc.2 ⟨h.known, h.oldKeys rotation hrot⟩,
    forall_mem_updateWhere h.oldKeys fun _ _ _ hknown => hknown, ?_, ?_, ?_⟩
  · -- An acceptable key is not the old one of this rotation.
    intro k hk hacc
    obtain ⟨hnot, hfollowed⟩ := h.standing k hk hacc
    refine ⟨?_, hfollowed.snoc _ (fun _ => mem_append_left _) nofun⟩
    rw [mem_append, mem_singleton, not_or]
    refine ⟨hnot, ?_⟩
    intro heq
    exact hsup k hk hacc (rotationCompleted.inj heq)
  · intro keyId endsAt he
    rcases mem_snoc.1 he with hold | hnew
    · -- The completed rotation keeps its old key and its window.
      refine (exists_mem_updateWhere fun _ _ _ => ?_).2 (h.initiated keyId endsAt hold)
      rfl
    · cases hnew
  · intro keyId
    rw [mem_append, mem_singleton, h.completed keyId]
    constructor
    · rintro (⟨r, hr, hkey, hsome⟩ | heq)
      · by_cases hid : r.id = rotation.id
        · rw [h.rotationIds.eq hr hrot hid] at hkey
          exact ⟨_, (hmem _).2 (.inl rfl), hkey, rfl⟩
        · exact ⟨r, (hmem r).2 (.inr ⟨hr, hid⟩), hkey, hsome⟩
      · exact ⟨_, (hmem _).2 (.inl rfl), (rotationCompleted.inj heq).symm, rfl⟩
    · rintro ⟨r, hr, hkey, hsome⟩
      rcases (hmem r).1 hr with rfl | ⟨hr₀, -⟩
      · exact .inr (congrArg _ hkey.symm)
      · exact .inl ⟨r, hr₀, hkey, hsome⟩

end

end CredentialInv

/-! ## What the operations do -/

variable {result : Except Rejection RevocationRecord} {draw : RotationDraw}
  {seconds : Option JsNumber} {hashKey : String → String} {db db' : CredentialDb}

/-- The call was rejected. -/
def Rejected {α : Type} (result : Except Rejection α) : Prop := ∃ e, result = .error e

theorem getKey_mem {keyId : String} (h : getKey db keyId = some key) :
    key ∈ db.keys ∧ key.id = keyId :=
  findByKey_some h

/-- A provider, and a key of it unless that is refused. -/
theorem registerProvider_spec {providerId keyId name contact rawKey : String} :
    let db' := (registerProvider hashKey db providerId keyId name contact rawKey).1
    db' = db ∨ ∃ provider, db' = { db with providers := db.providers ++ [provider] } ∨
      ∃ key : ProviderKey, key.id = keyId ∧
        (∃ p ∈ db.providers ++ [provider], p.id = key.providerId) ∧
        db' = { db with providers := db.providers ++ [provider], keys := db.keys ++ [key] } := by
  simp only [registerProvider]
  split
  · exact .inl rfl
  rename_i db₁ provider hprov
  refine .inr ⟨provider, ?_⟩
  have hdb₁ : db₁ = { db with providers := db.providers ++ [provider] } := by
    iterate 3 obtain ⟨_, -, hprov⟩ := exceptBind_eq_ok hprov
    cases hprov
    rfl
  split
  · -- A refused key leaves the provider without one.
    exact .inl hdb₁
  rename_i db₂ key hkey
  obtain ⟨hid, hown, rfl⟩ := createKey_spec hkey
  rw [hdb₁] at hown ⊢
  exact .inr ⟨key, hid, hown, rfl⟩

/-- The key is revoked, and recorded so unless the record is refused. -/
theorem revokeKey_spec {id : String} (h : revokeKey db id params = (db', result)) :
    (db' = db ∧ Rejected result) ∨
      ∃ db₁, SetsStatus params.keyId .revoked db db₁ ∧ params.keyId ∈ db.keys.map (·.id) ∧
        ((db' = db₁ ∧ Rejected result) ∨ ∃ record : RevocationRecord,
          record.keyId = params.keyId ∧ result = .ok record ∧
          db' = { db₁ with revocations := db₁.revocations ++ [record] }) := by
  simp only [revokeKey] at h
  iterate 4
    split at h
    · cases h
      exact .inl ⟨rfl, _, rfl⟩
  -- From here on the status is set, whatever becomes of the record.
  rename_i key hkey _ _ _ _ _ db₁ hset
  obtain ⟨hmem, hid⟩ := getKey_mem hkey
  refine .inr ⟨db₁, updateKeyStatus_spec hset, mem_map.2 ⟨key, hmem, hid⟩, ?_⟩
  split at h
  · cases h
    exact .inl ⟨rfl, _, rfl⟩
  rename_i db₂ record hrcd
  cases h
  obtain ⟨hkeyId, hdb⟩ := recordRevocation_spec hrcd
  exact .inr ⟨record, hkeyId, rfl, hdb⟩

/-- The key is active again, and recorded so unless the record is refused. -/
theorem reverseRevocation_spec {id : String}
    (h : reverseRevocation db id params previous = (db', result)) :
    (db' = db ∧ Rejected result) ∨
      ∃ key ∈ db.keys, key.id = params.keyId ∧ ∃ db₁, SetsStatus params.keyId .active db db₁ ∧
        ((db' = db₁ ∧ ∃ state, recordRevocation db₁ id params key.providerId (some previous) =
          .error state) ∨ ∃ record : RevocationRecord,
          record.keyId = params.keyId ∧ result = .ok record ∧
          db' = { db₁ with revocations := db₁.revocations ++ [record] }) := by
  simp only [reverseRevocation] at h
  iterate 3
    split at h
    · cases h
      exact .inl ⟨rfl, _, rfl⟩
  -- From here on the status is set, whatever becomes of the record.
  rename_i key hkey _ _ db₁ hset
  obtain ⟨hmem, hid⟩ := getKey_mem hkey
  refine .inr ⟨key, hmem, hid, db₁, updateKeyStatus_spec hset, ?_⟩
  split at h
  · rename_i state href
    cases h
    exact .inl ⟨rfl, state, href⟩
  · rename_i db₂ record hrcd
    cases h
    obtain ⟨hkeyId, hdb⟩ := recordRevocation_spec hrcd
    exact .inr ⟨record, hkeyId, rfl, hdb⟩

/-- A new key, then the overlap of an active one, then the record, as far as they are accepted. -/
theorem initiateRotation_spec {result : Except Rejection KeyRotationRecord}
    (h : initiateRotation hashKey db draw providerId actor seconds now = (db', result)) :
    (db' = db ∧ Rejected result) ∨ ∃ key old : ProviderKey, key.id = draw.newKeyId ∧
        (∃ p ∈ db.providers, p.id = key.providerId) ∧ old ∈ db.keys ∧ old.status = .active ∧
        ∃ db₁, SetsStatus old.id .rotating { db with keys := db.keys ++ [key] } db₁ ∧
          ((db' = db₁ ∧ Rejected result) ∨ ∃ rotation : KeyRotationRecord,
            rotation.id = draw.rotationId ∧ rotation.oldKeyId = old.id ∧
            rotation.completedAt = none ∧ result = .ok rotation ∧
            db' = { db₁ with rotations := db₁.rotations ++ [rotation] }) := by
  simp only [initiateRotation] at h
  iterate 4
    split at h
    · cases h
      exact .inl ⟨rfl, _, rfl⟩
  rename_i old hold _ _ key hkey
  obtain ⟨hid, hown, rfl⟩ := createKey_spec hkey
  have holdMem := mem_of_find?_eq_some hold
  rw [listKeysByProvider, mem_sortBy] at holdMem
  have holdStatus := find?_some hold
  split at h
  · -- The update of a status without a sequence number is never refused.
    rename_i state hset
    cases hset
  rename_i db₁ hset
  refine .inr ⟨key, old, hid, hown, (mem_filter.1 holdMem).1,
    of_decide_eq_true holdStatus, db₁, updateKeyStatus_spec hset, ?_⟩
  split at h
  · cases h
    exact .inl ⟨rfl, _, rfl⟩
  rename_i db₂ rotation hrcd
  cases h
  obtain ⟨hrot, hold', hopen, hdb⟩ := recordRotation_spec hrcd
  exact .inr ⟨rotation, hrot, hold', hopen, rfl, hdb⟩

/-- The old key of the rotation in progress is superseded, and the rotation completed. -/
theorem completeRotation_spec {result : Except Rejection KeyRotationRecord}
    (h : completeRotation db providerId now = (db', result)) :
    (db' = db ∧ Rejected result) ∨
      ∃ rotation ∈ db.rotations, ∃ db₁, SetsStatus rotation.oldKeyId .superseded db db₁ ∧
        result = .ok rotation ∧ db' = markCompleted db₁ rotation.id now := by
  simp only [completeRotation] at h
  iterate 2
    split at h
    · cases h
      exact .inl ⟨rfl, _, rfl⟩
  rename_i rotation hrot _ db₁ hset
  cases h
  exact .inr ⟨rotation, getActiveRotation_mem hrot, db₁, updateKeyStatus_spec hset, rfl,
    rfl⟩

/-! ## Steps and runs -/

variable {s s' : CredentialState} {trace : List CredentialEvent}

theorem CredentialInv.insertProvider (h : CredentialInv db trace) (provider : ProviderIdentity) :
    CredentialInv { db with providers := db.providers ++ [provider] } trace := by
  refine { h with owners := ?_ }
  intro owner hown
  obtain ⟨p, hp, hid⟩ := h.owners owner hown
  exact ⟨p, mem_append_left _ hp, hid⟩

/-- Nothing reads the revocations. -/
theorem CredentialInv.setRevocations (h : CredentialInv db trace)
    (revocations : List RevocationRecord) : CredentialInv { db with revocations } trace :=
  { h with }

theorem CredentialInv.register (h : CredentialInv db trace) {keyId name contact rawKey : String}
    (hfresh : ∀ k ∈ db.keys, k.id ≠ keyId) :
    CredentialInv (registerProvider hashKey db providerId keyId name contact rawKey).1 trace := by
  rcases @registerProvider_spec hashKey db providerId keyId name contact rawKey with
    heq | ⟨provider, heq | ⟨key, hid, hown, heq⟩⟩
  · rw [heq]
    exact h
  · rw [heq]
    exact h.insertProvider provider
  · rw [heq]
    refine (h.insertProvider provider).insertKey ?_ hown
    rw [hid]
    exact hfresh

/-- The history after a call whose event is `event`. -/
def historyAfter {α : Type} (trace : List CredentialEvent) (event : α → CredentialEvent) :
    Except Rejection α → List CredentialEvent
  | .ok result => trace ++ [event result]
  | .error _ => trace

theorem Rejected.history {α : Type} {event : α → CredentialEvent} {result : Except Rejection α}
    (h : Rejected result) : historyAfter trace event result = trace := by
  obtain ⟨e, rfl⟩ := h
  rfl

theorem CredentialInv.revoke (h : CredentialInv db trace) {id : String}
    (hcall : revokeKey db id params = (db', result)) :
    CredentialInv db' (historyAfter trace (fun r => .revoked r.keyId) result) := by
  rcases revokeKey_spec hcall with ⟨rfl, hrej⟩ | ⟨db₁, hset, hknown, hrest⟩
  · rw [hrej.history]
    exact h
  have h₁ : CredentialInv db₁ trace := h.set hset nofun
  rcases hrest with ⟨rfl, hrej⟩ | ⟨record, hkeyId, rfl, rfl⟩
  · rw [hrej.history]
    exact h₁
  refine (h₁.snoc (.revoked record.keyId) ?_ ?_ nofun nofun).setRevocations _
  · rw [hset.ids]
    simpa only [keyId, hkeyId] using hknown
  · -- The key has just lost its acceptable status.
    intro k hk hacc heq
    have hid : k.id = params.keyId := by rw [← hkeyId, revoked.inj heq]
    rcases hset.mem k hk with ⟨-, hstat⟩ | ⟨-, hne⟩
    · rw [hstat] at hacc
      cases hacc
    · exact hne hid

/-- After its reversal every revocation of the key is followed by one. -/
theorem followedBy_reversed (trace : List CredentialEvent) (keyId : String) :
    FollowedBy (· = .revoked keyId) (.reversed keyId ∈ ·)
      (trace ++ [reversed keyId]) := by
  intro pre x post hx heq
  rcases append_eq_append_cons heq with ⟨old, -, rfl⟩ | ⟨new, -, hnew⟩
  · exact mem_append_right _ (mem_singleton.2 rfl)
  cases new with
  | nil =>
    rw [hx] at hnew
    cases hnew
  | cons => simp at hnew

theorem CredentialInv.reverse (h : CredentialInv s.db s.trace) {id : String}
    (hsafe : SafeReversal s (.reverseRevocation id params previous))
    (hcall : reverseRevocation s.db id params previous = (db', result)) :
    CredentialInv db' (historyAfter s.trace (fun r => .reversed r.keyId) result) := by
  obtain ⟨hopen, hprev, hcolumns⟩ := hsafe
  rcases reverseRevocation_spec hcall with
    ⟨rfl, hrej⟩ | ⟨key, hkey, hid, db₁, hset, hrest⟩
  · rw [hrej.history]
    exact h
  rcases hrest with ⟨-, state, href⟩ | ⟨record, hkeyId, rfl, rfl⟩
  · -- The record is not refused: its key, its provider and its predecessor are there.
    have hkeyExists : ∃ k ∈ db₁.keys, k.id = params.keyId := by
      have hmem : params.keyId ∈ db₁.keys.map (·.id) := by
        rw [hset.ids]
        exact mem_map.2 ⟨key, hkey, hid⟩
      exact mem_map.1 hmem
    have hown : ∃ p ∈ db₁.providers, p.id = key.providerId := by
      rw [hset.providers]
      exact h.owners _ (mem_map_of_mem hkey)
    rw [← hset.revocations] at hprev
    obtain ⟨db₂, record, hok⟩ := recordRevocation_isOk id hcolumns hkeyExists hown hprev
    rw [hok] at href
    cases href
  · rw [historyAfter, hkeyId]
    have hknown : params.keyId ∈ s.db.keys.map (·.id) := mem_map.2 ⟨key, hkey, hid⟩
    have hevent := h.snoc (.reversed params.keyId) hknown nofun nofun nofun
    refine (hevent.set hset ?_).setRevocations _
    intro _
    refine ⟨?_, followedBy_reversed s.trace params.keyId⟩
    rw [hevent.completed]
    rintro ⟨r, hr, hold, hcomp⟩
    rw [hopen r hr hold] at hcomp
    cases hcomp

theorem CredentialInv.initiate (h : CredentialInv db trace)
    {result : Except Rejection KeyRotationRecord}
    (hrotations : ∀ r ∈ db.rotations, r.id ≠ draw.rotationId)
    (hkeys : ∀ k ∈ db.keys, k.id ≠ draw.newKeyId)
    (hcall : initiateRotation hashKey db draw providerId actor seconds now = (db', result)) :
    CredentialInv db' (historyAfter trace
      (fun r => .rotationInitiated r.oldKeyId r.overlapWindowEndsAt) result) := by
  rcases initiateRotation_spec hcall with
    ⟨rfl, hrej⟩ | ⟨key, old, hid, hown, hold, hstat, db₁, hset, hrest⟩
  · rw [hrej.history]
    exact h
  -- The old key was active, so it is in good standing.
  have h₁ : CredentialInv db₁ trace := by
    refine (h.insertKey ?_ hown).set hset fun _ => ?_
    · rw [hid]
      exact hkeys
    · exact h.standing old hold (by rw [hstat]; rfl)
  rcases hrest with ⟨rfl, hrej⟩ | ⟨rotation, hrot, holdKey, hopen, rfl, rfl⟩
  · rw [hrej.history]
    exact h₁
  have hknown : rotation.oldKeyId ∈ db₁.keys.map (·.id) := by
    rw [hset.ids, holdKey, map_append]
    exact mem_append_left _ (mem_map_of_mem hold)
  have h₂ : CredentialInv { db₁ with rotations := db₁.rotations ++ [rotation] } trace := by
    refine h₁.insertRotation ?_ hknown hopen
    rw [hset.rotations, hrot]
    exact hrotations
  refine h₂.snoc _ hknown nofun nofun ?_
  intro keyId endsAt heq
  obtain ⟨rfl, rfl⟩ := rotationInitiated.inj heq
  exact ⟨rotation, mem_append_right _ (mem_singleton.2 rfl), rfl, rfl⟩

theorem CredentialInv.completeRotation (h : CredentialInv db trace)
    {result : Except Rejection KeyRotationRecord}
    (hcall : Oracle.completeRotation db providerId now = (db', result)) :
    CredentialInv db' (historyAfter trace (fun r => .rotationCompleted r.oldKeyId) result) := by
  rcases completeRotation_spec hcall with
    ⟨rfl, hrej⟩ | ⟨rotation, hrot, db₁, hset, rfl, rfl⟩
  · rw [hrej.history]
    exact h
  have h₁ : CredentialInv db₁ trace := h.set hset nofun
  refine h₁.complete ?_ ?_
  · rw [hset.rotations]
    exact hrot
  · intro k hk hacc heq
    rcases hset.mem k hk with ⟨-, hstat⟩ | ⟨-, hne⟩
    · rw [hstat] at hacc
      cases hacc
    · exact hne heq

theorem CredentialInv.after {α : Type} {event : α → CredentialEvent}
    {x : CredentialDb × Except Rejection α}
    (h : CredentialInv x.1 (historyAfter s.trace event x.2)) :
    CredentialInv (s.after event x).db (s.after event x).trace := by
  obtain ⟨db, result | result⟩ := x <;> exact h

theorem CredentialInv.step {call : CredentialCall} (h : CredentialInv s.db s.trace)
    (hsafe : SafeReversal s call) (hstep : credentialStep hashKey s call = some s') :
    CredentialInv s'.db s'.trace := by
  obtain ⟨hallows, ⟨⟩⟩ := Option.ite_none_right_eq_some.1 hstep
  cases call with
  | registerProvider => exact h.register hallows.2
  | revokeKey => exact .after (h.revoke rfl)
  | reverseRevocation => exact .after (h.reverse hsafe rfl)
  | initiateRotation => exact .after (h.initiate hallows.1 hallows.2 rfl)
  | completeRotation => exact .after (h.completeRotation rfl)

/-- Provider `p` is registered with the raw key `old`, and its key is rotated; the overlap window
ends after five minutes. -/
def rotatingProvider : List CredentialCall :=
  [.registerProvider "p" "k1" "Acme" "ops" "old",
   .initiateRotation ⟨"r1", "k2", "new"⟩ "p" "ann" none 0]

def revokeOld : CredentialCall := .revokeKey "v1" ⟨"k1", some "leak", some "ann", .finite 7⟩

def reverseOld (previous : String) : CredentialCall :=
  .reverseRevocation "v2" ⟨"k1", some "mistake", some "ann", .finite 8⟩ previous

/-- After the calls the raw key `old` is accepted, as the key `k1`, in a state that is bad. -/
def AcceptsOld (calls : List CredentialCall) (bad : CredentialState → Bool) : Prop :=
  (perform (credentialStep id) (fun _ _ => True) .start calls).any (fun s =>
    bad s && decide ((validateSubmission id s.db "p" "old").map (·.id) = .ok "k1")) = true

instance (calls : List CredentialCall) (bad : CredentialState → Bool) :
    Decidable (AcceptsOld calls bad) :=
  inferInstanceAs (Decidable (_ = _))

theorem AcceptsOld.violation {calls : List CredentialCall} {bad : CredentialState → Bool}
    (h : AcceptsOld calls bad) {t : ℚ}
    (hbad : ∀ s : CredentialState, bad s = true → ¬MayBeAccepted s.trace "k1" t) :
    ∃ s key, RunWhere (CredentialSteps id) (fun _ _ => True) .start s ∧
      validateSubmission id s.db "p" "old" = .ok key ∧ ¬MayBeAccepted s.trace key.id t := by
  obtain ⟨s, hperform, hs⟩ := (Option.any_eq_true _ _).1 h
  rw [Bool.and_eq_true, decide_eq_true_eq] at hs
  cases hkey : validateSubmission id s.db "p" "old" with
  | error =>
    rw [hkey] at hs
    cases hs.2
  | ok key =>
    rw [hkey] at hs
    refine ⟨s, key, .of_perform hperform, hkey, ?_⟩
    rw [show key.id = "k1" from Except.ok.inj hs.2]
    exact hbad s hs.1

end Refract.Oracle
