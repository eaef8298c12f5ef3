import Refract.Stellar.RelayerAccount

/-!
# The relayer's sequence numbers

What the service is for (`InSequence`): every envelope carries the sequence after the last accepted
one, so that none is rejected for its sequence. The service keeps this promise as long as it takes
the cached sequence only while no envelope was accepted since the network was last asked for it
(`relayer_in_sequence`). After a successful send the cache is one too high, as both the builder and
`advanceSequenceAfterSuccess` increment the account; after a send whose reply is lost it is one too
low.

A submission is checked against a protocol (`sequenceRules`) over the sequence of the account and
whether it has moved since it was read.
-/

namespace Refract.Stellar

open Lib List RelayerState RelayerEvent

/-! ## The promise -/

/-- The envelope that the running submission has sent and awaits the reply to. -/
def RelayerState.envelope (s : RelayerState) : Option Int :=
  match s.running with
  | some (_, .ask (.send sequence) _) => some sequence
  | _ => none

def RelayerEvent.acceptedSequence : RelayerEvent → Option Int
  | .accepted sequence => some sequence
  | _ => none

def acceptedSequences (history : List RelayerEvent) : List Int :=
  history.filterMap RelayerEvent.acceptedSequence

/-- Envelopes are sent with the next sequence and none is rejected for it; the sequences accepted
since `base` are consecutive, up to the last one. -/
structure InSequence (base : Int) (s : RelayerState) : Prop where
  next : ∀ sequence ∈ s.envelope, sequence = s.network + 1
  accepted : ∀ sequence, .badSeq sequence ∉ s.history
  consecutive : acceptedSequences s.history =
    (List.range (acceptedSequences s.history).length).map fun i : Nat => base + 1 + (i : Int)
  last : s.network = base + (acceptedSequences s.history).length

/-- An envelope was accepted since the sequence was last read from the network. -/
def movedSince (history : List RelayerEvent) : Bool :=
  history.foldl (fun moved e => match e with
    | .synced _ => false
    | .accepted _ => true
    | .badSeq _ | .ended _ _ => moved) false

/-- Before the step: a submission begins from the cached sequence only if no envelope was accepted
since it was read. -/
def FreshStart (config : RelayerConfig) (s : RelayerState) : RelayerLabel → Prop
  | .start now => s.fields.usesCache config now = true → movedSince s.history = false
  | _ => True

instance (config : RelayerConfig) (s : RelayerState) (l : RelayerLabel) :
    Decidable (FreshStart config s l) := by
  unfold FreshStart
  split <;> infer_instance

/-! ## Rules for a submission -/

/-- The sequence of the account, and whether it has moved since it was read. -/
structure NetworkView where
  last : Int
  moved : Bool

/-- A cached sequence that was read since the last acceptance is the account's. -/
def RelayerFields.Agrees (fields : RelayerFields) (g : NetworkView) : Prop :=
  ∀ sequence, fields.cachedSequence = some sequence → g.moved = false → sequence = g.last

variable {fields : RelayerFields} {g : NetworkView}

theorem RelayerFields.Agrees.of_eq {fields' : RelayerFields} (h : fields.Agrees g)
    (heq : fields'.cachedSequence = fields.cachedSequence) : fields'.Agrees g :=
  fun sequence hcached => h sequence (heq ▸ hcached)

theorem RelayerFields.agrees_of_moved (h : g.moved = true) : fields.Agrees g := by
  intro _ _ hstill
  rw [h] at hstill
  cases hstill

def sequenceRules : Protocol RelayerAsk RelayerAnswer NetworkView where
  may g
    | .send sequence => sequence = g.last + 1
    | .finish fields _ => fields.Agrees g
    | .now | .sequence | .balance | .feeStats | .build _ _ => True
  answers
    | .sequence, .ok sequence, g, g' => sequence = g.last ∧ g' = ⟨g.last, false⟩
    | .send sequence, .ok reply, g, g' => g' = if reply.status.accepts then ⟨sequence, true⟩ else g
    | .send sequence, .error _, g, g' => g' = g ∨ g' = ⟨sequence, true⟩
    | .sequence, .error _, g, g' => g' = g
    | .now, _, g, g' | .balance, _, g, g' | .feeStats, _, g, g' | .build _ _, _, g, g'
    | .finish _ _, _, g, g' => g' = g
  ends _ := True

variable {config : RelayerConfig} {succeed : RelayerFields → String → RelayerProgram}
  {fail : RelayerFields → RelayerError → RelayerProgram} {forceResync : Bool} {now fee : Int}

theorem finish_follows {result : Except RelayerError String} (h : fields.Agrees g) :
    (finish fields result).Follows sequenceRules g :=
  ⟨h, fun _ _ _ => trivial⟩

variable {next : RelayerFields → RelayerProgram}

/-- A balance changes no sequence. -/
theorem refreshBalance_follows (hnext : ∀ fields', fields'.cachedSequence = fields.cachedSequence →
      (next fields').Follows sequenceRules g) :
    (refreshBalance config fields next).Follows sequenceRules g := by
  refine ⟨trivial, ?_⟩
  rintro answer _ rfl
  cases answer with
  | error => exact hnext fields rfl
  | ok native =>
    cases native with
    | none => exact hnext _ rfl
    | some balance => cases balance <;> exact hnext _ rfl

theorem selectFee_follows {next : Option Int → RelayerProgram}
    (hnext : ∀ fee, (next fee).Follows sequenceRules g) :
    (selectFee config next).Follows sequenceRules g := by
  refine ⟨trivial, ?_⟩
  rintro reply _ rfl
  cases reply with
  | error | ok => exact hnext _

section Fails

variable (hfail : ∀ g fields e, fields.Agrees g → (fail fields e).Follows sequenceRules g)

include hfail

theorem resyncFromNetwork_follows (h : fields.Agrees g)
    (hnext : ∀ fields', fields'.cachedSequence = some g.last →
      (next fields').Follows sequenceRules ⟨g.last, false⟩) :
    (resyncFromNetwork config fields next fail).Follows sequenceRules g := by
  refine ⟨trivial, fun answer g' hans => ?_⟩
  cases answer with
  | error =>
    obtain rfl : g' = g := hans
    exact hfail _ fields _ h
  | ok =>
    obtain ⟨rfl, rfl⟩ := hans
    refine ⟨trivial, ?_⟩
    rintro now _ rfl
    exact refreshBalance_follows hnext

/-- The account that is checked out has the sequence of the network. -/
theorem checkoutAccount_follows {next : RelayerFields → Int → RelayerProgram} (h : fields.Agrees g)
    (hfresh : forceResync = true ∨ (fields.usesCache config now = true → g.moved = false))
    (hnext : ∀ g fields, fields.Agrees g → (next fields g.last).Follows sequenceRules g) :
    (checkoutAccount config fields forceResync now next fail).Follows sequenceRules g := by
  simp only [checkoutAccount]
  split
  · refine resyncFromNetwork_follows hfail h fun fields' hcached => ?_
    simp only [newAccount, hcached]
    refine hnext ⟨g.last, false⟩ fields' fun sequence hseq _ => ?_
    rw [hcached, Option.some.injEq] at hseq
    exact hseq.symm
  -- Neither forced nor expired: the cached sequence is read since the last acceptance.
  rename_i hcache
  simp only [Bool.or_eq_true, Bool.not_eq_true', not_or, Bool.not_eq_true,
    Bool.not_eq_false] at hcache
  have hstill : g.moved = false :=
    (hfresh.resolve_left (by rw [hcache.1]; exact Bool.noConfusion)) hcache.2
  simp only [newAccount]
  cases hcached : fields.cachedSequence with
  | none => exact hfail g fields _ h
  | some sequence =>
    rw [h sequence hcached hstill]
    exact hnext g fields h

theorem ensureBalanceCovers_follows (h : fields.Agrees g)
    (hnext : ∀ fields, fields.Agrees g → (next fields).Follows sequenceRules g) :
    (ensureBalanceCovers config fields fee next fail).Follows sequenceRules g := by
  have hrequire : ∀ fields : RelayerFields, fields.Agrees g →
      (requireBalance fields fee next fail).Follows sequenceRules g := by
    intro fields hagrees
    simp only [requireBalance]
    split
    · exact hfail g fields _ hagrees
    · exact hnext fields hagrees
  simp only [ensureBalanceCovers]
  cases fields.cachedBalanceStroops with
  | none => exact refreshBalance_follows fun fields' heq => hrequire fields' (h.of_eq heq)
  | some => exact hrequire fields h

variable (hsucceed : ∀ g fields hash, fields.Agrees g →
  (succeed fields hash).Follows sequenceRules g)

include hsucceed

/-- The envelope has the next sequence. -/
theorem buildAndSend_follows (h : fields.Agrees g) :
    (buildAndSend fields g.last fee succeed fail).Follows sequenceRules g := by
  refine ⟨trivial, fun built g' hsame => ?_⟩
  have hview : g' = g := hsame
  rw [hview]
  cases built with
  | error => exact hfail g fields _ h
  | ok =>
    refine ⟨rfl, fun reply g' hreply => ?_⟩
    cases reply with
    | error =>
      -- The network may have accepted the envelope although the send throws.
      rcases hreply with hstill | hmov
      · rw [hstill]
        exact hfail g fields _ h
      · rw [hmov]
        exact hfail _ fields _ (RelayerFields.agrees_of_moved rfl)
    | ok reply =>
      obtain ⟨status, hash, detail⟩ := reply
      have hview : g' = if status.accepts then ⟨g.last + 1, true⟩ else g := hreply
      rw [hview]
      -- The cache is set past the accepted sequence; once the network has moved, agreement asks
      -- nothing of it.
      have hmov : ∀ now, (succeed
          { fields with cachedSequence := some (g.last + 1 + 1), lastSyncedAt := now }
          hash).Follows sequenceRules ⟨g.last + 1, true⟩ :=
        fun now => hsucceed _ _ _ (RelayerFields.agrees_of_moved rfl)
      cases status with
      | error | tryAgainLater => exact hfail g fields _ h
      | pending | duplicate =>
        refine ⟨trivial, ?_⟩
        rintro now _ rfl
        exact hmov now

theorem attempt_follows (h : fields.Agrees g)
    (hfresh : forceResync = true ∨ (fields.usesCache config now = true → g.moved = false)) :
    (attempt config fields forceResync now succeed fail).Follows sequenceRules g := by
  refine checkoutAccount_follows hfail h hfresh fun g fields h => selectFee_follows fun fee => ?_
  cases fee with
  | none => exact hfail g fields _ h
  | some =>
    exact ensureBalanceCovers_follows hfail h fun fields h => buildAndSend_follows hfail hsucceed h

end Fails

theorem attempts_follows (left : Nat) (h : fields.Agrees g)
    (hfresh : forceResync = true ∨ (fields.usesCache config now = true → g.moved = false)) :
    (attempts config now left forceResync fields).Follows sequenceRules g := by
  induction left generalizing g fields forceResync with
  | zero => exact finish_follows h
  | succ left ih =>
    refine attempt_follows ?_ (fun g fields hash h => finish_follows h) h hfresh
    intro g fields e h
    -- A retry drops the cache and asks the network.
    have hretry : (attempts config now left true
        { fields with cachedSequence := none }).Follows sequenceRules g :=
      ih (fun sequence hseq => by cases hseq) (.inl rfl)
    cases e with
    | notReady message | insufficientBalance message => exact finish_follows h
    | sequenceExhausted message | other message =>
      simp only [handleError]
      split_ifs
      · exact hretry
      all_goals exact finish_follows h

/-- A submission follows the rules if it begins with a fresh sequence. -/
theorem submitWithRetries_follows (h : fields.Agrees g)
    (hfresh : fields.usesCache config now = true → g.moved = false) :
    (submitWithRetries config fields now).Follows sequenceRules g := by
  simp only [submitWithRetries]
  split
  · exact attempts_follows _ h (.inr hfresh)
  · exact finish_follows h

/-! ## Runs -/

/-- The history accounts for the sequence of the network. -/
structure Accounted (base network : Int) (history : List RelayerEvent) : Prop where
  accepted : ∀ sequence, .badSeq sequence ∉ history
  consecutive : acceptedSequences history =
    (List.range (acceptedSequences history).length).map fun i : Nat => base + 1 + (i : Int)
  last : network = base + (acceptedSequences history).length

variable {base network : Int} {history : List RelayerEvent}

theorem Accounted.accept (h : Accounted base network history) :
    Accounted base (network + 1) (history ++ [RelayerEvent.accepted (network + 1)]) := by
  have hseqs : acceptedSequences (history ++ [RelayerEvent.accepted (network + 1)]) =
      acceptedSequences history ++ [network + 1] := by
    simp [acceptedSequences, acceptedSequence]
  refine ⟨fun sequence hmem => h.accepted sequence (by simpa using hmem), ?_, ?_⟩
  · rw [hseqs, length_append, length_singleton, range_succ, map_append,
      ← h.consecutive, map_singleton]
    congr 2
    have hlast := h.last
    omega
  · have hlast := h.last
    rw [hseqs, length_append, length_singleton]
    omega

/-- Other events change nothing. -/
theorem Accounted.other (h : Accounted base network history) {e : RelayerEvent}
    (hacc : e.acceptedSequence = none) (hbad : ∀ sequence, e ≠ .badSeq sequence) :
    Accounted base network (history ++ [e]) := by
  have hseqs : acceptedSequences (history ++ [e]) = acceptedSequences history := by
    simp [acceptedSequences, hacc]
  refine ⟨fun sequence hmem => ?_, ?_, ?_⟩
  · rcases mem_snoc.1 hmem with hold | rfl
    · exact h.accepted sequence hold
    · exact hbad sequence rfl
  · rw [hseqs]
    exact h.consecutive
  · rw [hseqs]
    exact h.last

def RelayerState.view (s : RelayerState) : NetworkView := ⟨s.network, movedSince s.history⟩

/-- What every reached state satisfies: the submission that runs follows the rules, and between
submissions the cache agrees with the network. -/
structure RelayerInv (base : Int) (s : RelayerState) : Prop where
  fields : s.running = none → s.fields.Agrees s.view
  running : ∀ call program, s.running = some (call, program) →
    program.Follows sequenceRules s.view
  accounted : Accounted base s.network s.history

variable {s s' : RelayerState}

@[simp] theorem movedSince_synced (history : List RelayerEvent) (sequence : Int) :
    movedSince (history ++ [synced sequence]) = false := by
  simp [movedSince]

@[simp] theorem movedSince_accepted (history : List RelayerEvent) (sequence : Int) :
    movedSince (history ++ [accepted sequence]) = true := by
  simp [movedSince]

@[simp] theorem movedSince_ended (history : List RelayerEvent) (call : Nat)
    (result : Except RelayerError String) :
    movedSince (history ++ [ended call result]) = movedSince history := by
  simp [movedSince]

variable {call : Nat}

/-- The submission that runs goes on with an answer that the rules allow. -/
theorem RelayerInv.answer (h : RelayerInv base s) {ask : RelayerAsk}
    {next : RelayerAnswer ask → RelayerProgram} (hrunn : s.running = some (call, .ask ask next))
    {answer : RelayerAnswer ask}
    (hans : sequenceRules.answers ask answer s.view ⟨network, movedSince history⟩)
    (hacct : Accounted base network history) :
    RelayerInv base { s with
      running := some (call, next answer), network, history } := by
  refine ⟨fun hnone => absurd hnone (Option.some_ne_none _), ?_, hacct⟩
  rintro _ _ ⟨⟩
  exact (h.running call _ hrunn).answer hans

/-- The next sequence is accepted or not judged, and the service is told no more than that. -/
theorem deliver_next (network : Int) (outcome : SendOutcome) :
    (∃ reply, deliver network (network + 1) outcome =
        (network + 1, [.accepted (network + 1)], reply) ∧
      ∀ r, reply = .ok r → r.status.accepts = true) ∨
    ∃ reply, deliver network (network + 1) outcome = (network, [], reply) ∧
      ∀ r, reply = .ok r → r.status.accepts = false := by
  have hjudge : judge network (network + 1) = (network + 1, .accepted (network + 1)) := if_pos rfl
  cases outcome with
  | judged hash =>
    refine .inl ⟨.ok ⟨.pending, hash, ""⟩, by simp [deliver, hjudge], ?_⟩
    rintro r ⟨⟩
    rfl
  | refused retryable =>
    refine .inr ⟨_, rfl, ?_⟩
    rintro r ⟨⟩
    cases retryable <;> rfl
  | lost judged message =>
    cases judged with
    | true => exact .inl ⟨.error message, by simp [deliver, hjudge], by simp⟩
    | false => exact .inr ⟨.error message, rfl, by simp⟩

theorem RelayerInv.send (h : RelayerInv base s) {sequence : Int}
    {next : Except String SendReply → RelayerProgram}
    (hrunn : s.running = some (call, .ask (.send sequence) next)) (outcome : SendOutcome) :
    RelayerInv base { s with
      running := some (call, next (deliver s.network sequence outcome).2.2)
      network := (deliver s.network sequence outcome).1
      history := s.history ++ (deliver s.network sequence outcome).2.1 } := by
  -- By the rules the envelope has the next sequence, so the network judges it by that.
  obtain rfl : sequence = s.network + 1 := (h.running call _ hrunn).1
  rcases deliver_next s.network outcome with ⟨reply, heq, haccepts⟩ | ⟨reply, heq, hrefuses⟩
  · rw [heq]
    refine h.answer hrunn ?_ h.accounted.accept
    rw [movedSince_accepted]
    cases reply with
    | error => exact .inr rfl
    | ok r =>
      have haccept := haccepts r rfl
      simp [sequenceRules, haccept]
  · rw [heq]
    refine h.answer hrunn ?_ (by simpa using h.accounted)
    rw [append_nil]
    cases reply with
    | error => exact .inl rfl
    | ok r =>
      have hrefuse := hrefuses r rfl
      simp [sequenceRules, hrefuse, view]

theorem RelayerInv.step {l : RelayerLabel} (h : RelayerInv base s) (hfresh : FreshStart config s l)
    (hstep : relayerStep config s l = some s') : RelayerInv base s' := by
  simp only [relayerStep] at hstep
  split at hstep
  · cases hstep
    exact { h with }
  · rename_i now hidle
    split at hstep
    · cases hstep
    cases hstep
    refine ⟨fun hnone => absurd hnone (Option.some_ne_none _), ?_, h.accounted⟩
    rintro _ _ ⟨⟩
    exact submitWithRetries_follows (h.fields hidle) hfresh
  · rename_i hrunn
    cases hstep
    exact h.answer hrunn rfl h.accounted
  · rename_i hrunn
    cases hstep
    -- With the sequence of the network the program agrees with it again.
    refine h.answer hrunn ?_ (h.accounted.other rfl fun _ => RelayerEvent.noConfusion)
    rw [movedSince_synced]
    exact ⟨rfl, rfl⟩
  iterate 4
    · rename_i hrunn
      cases hstep
      exact h.answer hrunn rfl h.accounted
  · rename_i outcome call sequence next hrunn
    cases hstep
    exact h.send hrunn outcome
  · rename_i call fields result next hrunn
    cases hstep
    -- The program hands back fields that agree, for the next submission.
    have hagrees : fields.Agrees s.view := (h.running call _ hrunn).1
    refine ⟨fun _ => ?_, fun _ _ hnone => absurd hnone.symm (Option.some_ne_none _), ?_⟩
    · simpa only [view, movedSince_ended] using hagrees
    · exact h.accounted.other rfl fun _ => RelayerEvent.noConfusion
  · cases hstep

theorem RelayerInv.inSequence (h : RelayerInv base s) : InSequence base s := by
  refine ⟨?_, h.accounted.accepted, h.accounted.consecutive, h.accounted.last⟩
  intro sequence hmem
  simp only [envelope] at hmem
  split at hmem
  · rename_i call sent next hrunn
    obtain rfl : sent = sequence := Option.some.inj hmem
    exact (h.running call _ hrunn).1
  · cases hmem

/-- In every interleaving of submissions in which each begins with a sequence that no acceptance has
outdated, every envelope has the next sequence, none is rejected for it, and the accepted sequences
are consecutive. -/
theorem relayer_in_sequence (config : RelayerConfig) (base : Int) (s : RelayerState)
    (hrun : RunWhere (RelayerSteps config) (FreshStart config) (.start base) s) :
    InSequence base s := by
  have hinv : RelayerInv base s := by
    refine hrun.invariant (RelayerInv base) ?_ fun _ _ _ ha => ha.step
    refine ⟨?_, ?_, fun _ => not_mem_nil, rfl, ?_⟩
    · rintro _ sequence ⟨⟩
    · rintro _ _ ⟨⟩
    · simp [acceptedSequences, start]
  exact hinv.inSequence

/-! ### Two submissions -/

/-- The defaults of the configuration. -/
def defaultRelayer : RelayerConfig := ⟨true, 6 / 5, 1000000, 30000, 50000000, 3⟩

/-- The steps of a submission that reads the sequence at a time and is accepted. -/
def syncedSubmission (now : Int) : List RelayerLabel :=
  [.call, .start now, .sequence none, .now now, .balance (.ok (some (.finite 100))),
   .feeStats (.error "down"), .build (.ok ()), .send (.judged "a1" ""), .now now, .finish]

/-- Two submissions a minute apart. -/
theorem relayer_in_sequence_apart :
    ∃ s, RunWhere (RelayerSteps defaultRelayer) (FreshStart defaultRelayer) (.start 100) s ∧
      acceptedSequences s.history = [101, 102] ∧ InSequence 100 s :=
  ⟨_, .performed (syncedSubmission 1000000 ++ syncedSubmission 1060000)
    (by decide +kernel), by decide +kernel,
    relayer_in_sequence defaultRelayer 100 _ (.performed _ _)⟩

/-- The second of two submissions in a row: the last accepted sequence is 101, and the envelope has
103. -/
theorem second_envelope_skips :
    ∃ s, RunWhere (RelayerSteps defaultRelayer) (fun _ _ => True) (.start 100) s ∧
      ¬InSequence 100 s := by
  refine ⟨_, .performed (syncedSubmission 1000000 ++ [RelayerLabel.call, .start 1000010,
    .feeStats (.error "down"), .build (.ok ())]) (by decide +kernel), fun hsequence => ?_⟩
  have hnext := hsequence.next 103 (by decide +kernel)
  revert hnext
  decide +kernel

end Refract.Stellar
