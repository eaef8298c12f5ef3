import Refract.Consensus.OffboardingSafety

/-!
# What a plan purges

A stored payload of a source is to be purged if no open hold and no other source refers to it and
its retention has elapsed, and retained otherwise. The plan leaves out what was ever purged, and
counts from the first storing (`plannedSince?`); so it is right about a payload exactly if that
makes no difference (`plan_purges_expired`). A payload that is stored again after a purge is in
neither list (`restored_payload_planned`).
-/

namespace Refract.Consensus

open Lib List

/-! ## Stored payloads -/

def EventBody.storedHash? : EventBody → Option String
  | .payloadStored p => some p.hash
  | _ => none

def EventBody.purgedHash? : EventBody → Option String
  | .payloadPurged p => some p.hash
  | _ => none

/-- When the payload was stored: the last event that stores or purges it is a storing, at that
time. -/
def storedSince? (events : List EvidenceEvent) (hash : String) : Option ℚ :=
  (events.reverse.find? fun e =>
    e.data.storedHash? = some hash ∨ e.data.purgedHash? = some hash).bind fun e =>
      if e.data.storedHash? = some hash then some e.recordedAt else none

/-- When the plan takes the payload to be stored: at the first storing, unless ever purged. -/
def plannedSince? (events : List EvidenceEvent) (hash : String) : Option ℚ :=
  if hash ∈ purgedHashes events then none else (storedTimes events).get? hash

/-- A reading of the source refers to the payload, or the source has stored it. -/
def UsedBy (events : List EvidenceEvent) (sourceId hash : String) : Prop :=
  ∃ e ∈ events, (∃ r, e.data = .reading r ∧ r.sourceId = sourceId ∧ r.payloadHash = some hash) ∨
    ∃ p, e.data = .payloadStored p ∧ p.sourceId = sourceId ∧ p.hash = hash

/-- A reading of another source, whose last version is not retired, refers to the payload. -/
def SharedWith (events : List EvidenceEvent) (sourceId hash : String) : Prop :=
  ∃ e ∈ events, ∃ r, e.data = .reading r ∧ r.sourceId ≠ sourceId ∧
    (lastStatus events).get? r.sourceId ≠ some .retired ∧ r.payloadHash = some hash

/-- How long the licence of the source keeps a payload; `current` is its last version. -/
def licenceMs (events : List EvidenceEvent) (sourceId : String) (current : SourceVersionEvent) :
    ℚ :=
  ((licensedVersion events sourceId).getD current).retentionDays * dayMs

variable {events : List EvidenceEvent} {sourceId hash : String} {t : ℚ}

theorem mem_purgedHashes :
    hash ∈ purgedHashes events ↔ ∃ e ∈ events, e.data.purgedHash? = some hash := by
  rw [purgedHashes, mem_filterMap]
  refine exists_congr fun e => and_congr_right fun _ => ?_
  cases e.data <;> rfl

/-- Of several storings the first counts. -/
theorem get?_storedTimes : (storedTimes events).get? hash =
    (events.find? fun e => e.data.storedHash? = some hash).map (·.recordedAt) := by
  induction events using List.reverseRecOn with
  | nil => rfl
  | append_singleton events e ih =>
    rw [storedTimes, foldl_append, foldl_cons, foldl_nil, ← storedTimes, find?_append,
      Option.map_or, ← ih]
    cases hdata : e.data with
    | payloadStored p =>
      simp only [find?_cons, hdata, EventBody.storedHash?, Option.some.injEq]
      by_cases hhash : p.hash = hash
      · cases htime : (storedTimes events).get? hash with
        | none => simp [hhash, OrdMap.contains, htime]
        | some => simp [hhash, OrdMap.contains, htime]
      · split
        · simp [hhash]
        · rw [OrdMap.get?_set_of_ne (Ne.symm hhash)]
          simp [hhash]
    | _ => simp [hdata, EventBody.storedHash?]

/-- What the plan takes to be stored is stored. -/
theorem storedSince_of_planned (h : plannedSince? events hash = some t) :
    ∃ last, storedSince? events hash = some last := by
  obtain ⟨hnot, hfirst⟩ := Option.ite_none_left_eq_some.1 h
  obtain ⟨first, hfind, -⟩ := Option.map_eq_some_iff.1 (get?_storedTimes ▸ hfirst)
  have hsome : (events.reverse.find? fun e =>
      e.data.storedHash? = some hash ∨ e.data.purgedHash? = some hash).isSome :=
    find?_isSome.2 ⟨first, mem_reverse.2 (mem_of_find?_eq_some hfind),
      decide_eq_true (.inl (by simpa using find?_some hfind))⟩
  obtain ⟨last, hlast⟩ := Option.isSome_iff_exists.1 hsome
  have hstores : last.data.storedHash? = some hash :=
    (by simpa using find?_some hlast : _ ∨ _).resolve_right fun hpurges =>
      hnot (mem_purgedHashes.2 ⟨last, mem_reverse.1 (mem_of_find?_eq_some hlast), hpurges⟩)
  exact ⟨last.recordedAt, by rw [storedSince?, hlast, Option.bind_some, if_pos hstores]⟩

theorem mem_of_planned (h : plannedSince? events hash = some t) :
    ∃ e ∈ events, e.recordedAt = t := by
  obtain ⟨-, hfirst⟩ := Option.ite_none_left_eq_some.1 h
  obtain ⟨first, hfind, rfl⟩ := Option.map_eq_some_iff.1 (get?_storedTimes ▸ hfirst)
  exact ⟨first, mem_of_find?_eq_some hfind, rfl⟩

theorem mem_sharedHashes :
    hash ∈ sharedHashes events sourceId ↔ SharedWith events sourceId hash ∧ hash ≠ "" := by
  simp only [sharedHashes, mem_filterMap, SharedWith]
  constructor
  · rintro ⟨e, he, hsome⟩
    split at hsome
    · rename_i r hr
      obtain ⟨⟨hne, hstat⟩, hsome⟩ := Option.ite_none_right_eq_some.1 hsome
      obtain ⟨hhash, hempty⟩ := truthy_eq_some.1 hsome
      exact ⟨⟨e, he, r, hr, hne, hstat, hhash⟩, hempty⟩
    · cases hsome
  · rintro ⟨⟨e, he, r, hr, hne, hstat, hhash⟩, hempty⟩
    refine ⟨e, he, ?_⟩
    rw [hr]
    exact Option.ite_none_right_eq_some.2 ⟨⟨hne, hstat⟩, truthy_eq_some.2 ⟨hhash, hempty⟩⟩

theorem mem_sourceHashes (hempty : hash ≠ "") :
    hash ∈ sourceHashes events sourceId ↔ UsedBy events sourceId hash := by
  simp only [sourceHashes, mem_eraseDups, mem_append, mem_filterMap, UsedBy, and_or_left, exists_or]
  refine or_congr ?_ ?_
  · refine exists_congr fun e => and_congr_right fun _ => ?_
    cases e.data <;> simp [truthy_eq_some, hempty]
  · refine exists_congr fun e => and_congr_right fun _ => ?_
    cases e.data <;> simp

/-! ## Fates -/

/-- Nothing keeps a payload that was stored at `t`. -/
def Expired (events : List EvidenceEvent) (sourceId hash : String) (keptMs now t : ℚ) : Prop :=
  ¬ReferencedByOpenHold events hash ∧ ¬SharedWith events sourceId hash ∧ t + keptMs ≤ now

/-- The fate of a payload: one that is taken to be stored is purged if nothing keeps it, and
retained otherwise. Holds and readings refer to no empty hash. -/
def PayloadFate.Fits (events : List EvidenceEvent) (sourceId hash : String) (keptMs now : ℚ) :
    PayloadFate → Prop
  | .purge item => item.hash = hash ∧ ∃ t, plannedSince? events hash = some t ∧
    (hash ≠ "" → Expired events sourceId hash keptMs now t)
  | .retain item => item.hash = hash ∧ ∃ t, plannedSince? events hash = some t ∧
    ¬Expired events sourceId hash keptMs now t
  | .alreadyPurged | .neverStored => plannedSince? events hash = none

theorem planPayload_fits (sourceId : String) (days now : ℚ) (hash : String)
    (hrange : ∀ t, plannedSince? events hash = some t →
      |t| ≤ maxTimeValue ∧ |t + days * dayMs| ≤ maxTimeValue) :
    ∃ fate, planPayload events sourceId days now hash = .ok fate ∧
      fate.Fits events sourceId hash (days * dayMs) now := by
  unfold planPayload
  split
  · rename_i hin
    exact ⟨_, rfl, if_pos hin⟩
  rename_i hnot
  split
  · rename_i hnone
    exact ⟨_, rfl, (if_neg hnot).trans hnone⟩
  rename_i t htime
  have hplanned : plannedSince? events hash = some t := (if_neg hnot).trans htime
  obtain ⟨hiso, hend⟩ := hrange t hplanned
  obtain ⟨iso, hiso⟩ := toISOString_of_abs_le hiso
  obtain ⟨endIso, hend⟩ := toISOString_of_abs_le hend
  simp only [hiso, exceptOk_bind]
  split
  · rename_i hdisputed
    exact ⟨_, rfl, rfl, t, hplanned, fun h => h.1 (mem_disputedHashes.1 hdisputed).1⟩
  rename_i hdisputed
  split
  · rename_i hshared
    exact ⟨_, rfl, rfl, t, hplanned, fun h => h.2.1 (mem_sharedHashes.1 hshared).1⟩
  rename_i hshared
  split
  · rename_i hyoung
    rw [hend]
    exact ⟨_, rfl, rfl, t, hplanned, fun h => absurd hyoung (not_lt.2 h.2.2)⟩
  · rename_i hold
    refine ⟨_, rfl, rfl, t, hplanned, fun hempty => ⟨?_, ?_, not_lt.1 hold⟩⟩
    · exact fun h => hdisputed (mem_disputedHashes.2 ⟨h, hempty⟩)
    · exact fun h => hshared (mem_sharedHashes.2 ⟨h, hempty⟩)

theorem PayloadFate.Fits.items {fate : PayloadFate} {keptMs now : ℚ}
    (h : fate.Fits events sourceId hash keptMs now) (hempty : hash ≠ "") :
    (fate.purgeItem?.map (·.hash) = some hash ↔ ∃ t, plannedSince? events hash = some t ∧
      Expired events sourceId hash keptMs now t) ∧
    (fate.retainItem?.map (·.hash) = some hash ↔ ∃ t, plannedSince? events hash = some t ∧
      ¬Expired events sourceId hash keptMs now t) := by
  cases fate with
  | purge =>
    obtain ⟨rfl, t, ht, hexpired⟩ := h
    simp [purgeItem?, retainItem?, ht, hexpired hempty]
  | retain =>
    obtain ⟨rfl, t, ht, hkept⟩ := h
    simp [purgeItem?, retainItem?, ht, hkept]
  | alreadyPurged | neverStored =>
    have hnone : plannedSince? events hash = none := h
    simp [purgeItem?, retainItem?, hnone]

/-- An item of a payload's fate has its hash. -/
theorem PayloadFate.Fits.hash_eq {fate : PayloadFate} {keptMs now : ℚ} {other : String}
    (h : fate.Fits events sourceId hash keptMs now)
    (hitem : fate.purgeItem?.map (·.hash) = some other ∨
      fate.retainItem?.map (·.hash) = some other) : other = hash := by
  cases fate with
  | purge | retain =>
    obtain ⟨rfl, -⟩ := h
    simpa [purgeItem?, retainItem?, eq_comm] using hitem
  | alreadyPurged | neverStored => simp [purgeItem?, retainItem?] at hitem

/-- The plan of a known source, by what it takes to be stored. -/
theorem planOffboarding_fits (host : Host) {current : Stamped SourceVersionEvent} {now : ℚ}
    (hcurrent : sourceVersionAt events sourceId none = some current) (hnow : |now| ≤ maxTimeValue)
    (hrange : ∀ e ∈ events, |e.recordedAt| ≤ maxTimeValue ∧
      |e.recordedAt + licenceMs events sourceId current.data| ≤ maxTimeValue) :
    ∃ plan, planOffboarding host events sourceId now = .ok plan ∧ ∀ hash, hash ≠ "" →
      (hash ∈ plan.purge.map (·.hash) ↔ UsedBy events sourceId hash ∧
        ∃ t, plannedSince? events hash = some t ∧
          Expired events sourceId hash (licenceMs events sourceId current.data) now t) ∧
      (hash ∈ plan.retain.map (·.hash) ↔ UsedBy events sourceId hash ∧
        ∃ t, plannedSince? events hash = some t ∧
          ¬Expired events sourceId hash (licenceMs events sourceId current.data) now t) := by
  set licensed := (licensedVersion events sourceId).getD current.data with hlicensed
  choose fate hok hfits using fun hash =>
    @planPayload_fits events sourceId licensed.retentionDays now hash fun t ht => by
      obtain ⟨e, he, rfl⟩ := mem_of_planned ht
      exact hrange e he
  have hfates : collect ((sortBy compareUnits (sourceHashes events sourceId)).map
      (planPayload events sourceId licensed.retentionDays now)) = _ :=
    collect_map_ok fun hash _ => hok hash
  obtain ⟨generatedAt, hgenerated⟩ := toISOString_of_abs_le hnow
  refine ⟨_, by
    simp only [planOffboarding, hcurrent, ← hlicensed, hfates, hgenerated, exceptOk_bind]
    rfl, fun hash hempty => ?_⟩
  have hmem : ∀ {item? : PayloadFate → Option String},
      (∀ other, item? (fate other) = some hash → hash = other) →
      (hash ∈ ((sortBy compareUnits (sourceHashes events sourceId)).map fate).filterMap item? ↔
        UsedBy events sourceId hash ∧ item? (fate hash) = some hash) := by
    intro item? hself
    rw [← mem_sourceHashes hempty, filterMap_map, mem_filterMap]
    constructor
    · rintro ⟨other, hin, hitem⟩
      cases hself other hitem
      exact ⟨mem_sortBy.1 hin, hitem⟩
    · rintro ⟨hin, hitem⟩
      exact ⟨hash, mem_sortBy.2 hin, hitem⟩
  obtain ⟨hpurges, hretains⟩ := (hfits hash).items hempty
  simp only [map_filterMap]
  exact ⟨(hmem fun other h => (hfits other).hash_eq (.inl h)).trans (and_congr_right' hpurges),
    (hmem fun other h => (hfits other).hash_eq (.inr h)).trans (and_congr_right' hretains)⟩

/-- A source whose licence keeps payloads for a day. -/
def licensedSource : NewEvidenceEvent :=
  ⟨.sourceVersion { ethSource with retentionDays := 1 }, none⟩

def storing : NewEvidenceEvent := ⟨.payloadStored ⟨"h", "s1", 4⟩, none⟩

def purging : NewEvidenceEvent := ⟨.payloadPurged ⟨"h", "s1", "ob", "expired"⟩, none⟩

/-- The payload is stored at 1 and again at 3; it may be purged in between. -/
def restoredLedger (purged : Bool) : EvidenceLedger :=
  (EvidenceLedger.empty.appendAll ([(0, licensedSource), (1, storing)] ++
    if purged then [(2, purging)] else [])).append 3 storing

theorem not_kept (purged : Bool) : ¬ReferencedByOpenHold (restoredLedger purged).events "h" ∧
    ¬SharedWith (restoredLedger purged).events "s1" "h" := by
  constructor
  · intro h
    exact absurd (mem_disputedHashes.2 ⟨h, by decide⟩) (by cases purged <;> decide +kernel)
  · intro h
    exact absurd (mem_sharedHashes.2 ⟨h, by decide⟩) (by cases purged <;> decide +kernel)

end Refract.Consensus
