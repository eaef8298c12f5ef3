import Refract.Leader.LeaderElector

/-!
# At most one leader, and tokens that never decrease

While the shutdown waits for the answer to its release, the lease is gone already and the instance
still has its token and its deadline: another instance acquires the lease and both are leaders, and
the old token can be asserted after the new one (`two_leaders_during_shutdown`). Where no instance
acquires the lease in that interval (`AcquiresAfterRelease`), every deadline that an instance may
come to trust lies within its lease (`Elected.covered`). So leaders exclude each other, also with
the owner of the lease (`Elected.alone`), and the token of whoever owns the lease or may trust it
is the newest (`Elected.newest`).
-/

namespace Refract.Leader

open Lib List Elector Option
open TickPhase

variable {n : Nat}

namespace TickPhase

/-- The tick is in `acquire`. -/
def acquires : TickPhase → Bool
  | .setting _ _ => true
  | .counting _ _ => true
  | _ => false

/-- The tick waits for a `SET` without effect so far. -/
def setsNext : TickPhase → Bool
  | .setting _ none => true
  | _ => false

def startedAt : TickPhase → Option Nat
  | .idle => none
  | .setting startedAt _ => some startedAt
  | .counting startedAt _ => some startedAt
  | .renewing startedAt _ => some startedAt

end TickPhase

/-- No `SET` takes effect while a release has taken effect and is not yet answered. -/
def AcquiresAfterRelease (s : LeaderState n) : LeaderLabel n → Prop
  | .tickEffect i =>
    (s.electors i).tick.setsNext = true → ∀ j, (s.electors j).shutdown ≠ .released
  | _ => True

instance (s : LeaderState n) (l : LeaderLabel n) : Decidable (AcquiresAfterRelease s l) := by
  unfold AcquiresAfterRelease
  split <;> infer_instance

/-! ## What an instance may come to trust -/

namespace Elector

variable {e e' : Elector} {ttl now : Nat}

/-- The deadlines that the instance trusts, or will once a command that has taken effect is
answered. -/
def claims (ttl : Nat) (e : Elector) : List Nat :=
  (if e.fencingToken.isSome then [e.leaseDeadline] else []) ++
    match e.tick with
    | .setting startedAt (some true) => [startedAt + ttl]
    | .counting startedAt _ => [startedAt + ttl]
    | .renewing startedAt (some true) => if e.fencingToken.isSome then [startedAt + ttl] else []
    | _ => []

/-- Its token, or the one that `INCR` has drawn for it. -/
def tokens (e : Elector) : List Nat :=
  e.fencingToken.toList ++
    match e.tick with
    | .counting _ (some token) => [token]
    | _ => []

/-- An instance that acquires the lease has no token, and so nothing to release. -/
structure Valid (now : Nat) (e : Elector) : Prop where
  acquiring : e.tick.acquires = true →
    e.fencingToken = none ∧ (e.shutdown = .running ∨ e.shutdown = .finished)
  started : ∀ startedAt, e.tick.startedAt = some startedAt → startedAt ≤ now

/-- A step of the instance alone, after which it trusts no more than before. -/
structure Narrows (ttl now : Nat) (e e' : Elector) : Prop where
  valid : e'.Valid now
  claims : ∀ d ∈ e'.claims ttl, d ∈ e.claims ttl
  tokens : ∀ token ∈ e'.tokens, token ∈ e.tokens
  released : e.shutdown = .released → e'.shutdown = .released ∨ e'.claims ttl = []

theorem Valid.setTick (h : e.Valid now) {tick : TickPhase} (hacq : tick.acquires = e.tick.acquires)
    (hstarted : tick.startedAt = e.tick.startedAt) :
    ({ e with tick } : Elector).Valid now :=
  ⟨fun htick => h.acquiring (hacq.symm.trans htick),
    fun startedAt htick => h.started startedAt (hstarted.symm.trans htick)⟩

theorem Narrows.of_idle (hidle : e'.tick = .idle) (hshutdown : e'.shutdown = e.shutdown)
    (hclaims : ∀ d ∈ e'.claims ttl, d ∈ e.claims ttl)
    (htokens : ∀ token ∈ e'.tokens, token ∈ e.tokens) : Narrows ttl now e e' :=
  ⟨⟨by simp [hidle, acquires], by simp [hidle, startedAt]⟩, hclaims, htokens,
    fun h => .inl (hshutdown.trans h)⟩

theorem beginTick_narrows (h : e.beginTick now = some e') : Narrows ttl now e e' := by
  obtain ⟨token, deadline, tick, shutdown⟩ := e
  simp only [beginTick, ite_none_right_eq_some] at h
  obtain ⟨⟨rfl, rfl⟩, h⟩ := h
  have hstarted : ∀ startedAt, some now = some startedAt → startedAt ≤ now :=
    fun _ hnow => (some.inj hnow).ge
  cases token with
  | none =>
    cases h
    exact ⟨⟨fun _ => ⟨rfl, .inl rfl⟩, hstarted⟩, by simp [claims], by simp [tokens], .inl⟩
  | some =>
    cases h
    exact ⟨⟨by simp [acquires], hstarted⟩, by simp [claims], by simp [tokens], .inl⟩

theorem answerTick_narrows (hval : e.Valid now) (h : e.answerTick ttl = some e') :
    Narrows ttl now e e' := by
  obtain ⟨token, deadline, tick, shutdown⟩ := e
  simp only [answerTick] at h
  split at h
  · cases h
    exact ⟨⟨fun _ => hval.acquiring rfl, hval.started⟩, by simp [claims], by simp [tokens],
      .inl⟩
  · cases h
    exact .of_idle rfl rfl (by simp [claims]) (by simp [tokens])
  · cases h
    exact .of_idle rfl rfl (by simp [claims]) (by simp [tokens])
  · cases h
    exact .of_idle rfl rfl (by cases token <;> simp [claims]) (by simp [tokens])
  · cases h
    exact .of_idle rfl rfl (by simp [claims, stepDown]) (by simp [tokens, stepDown])
  · cases h

theorem failTick_narrows (h : e.failTick = some e') : Narrows ttl now e e' := by
  obtain ⟨token, deadline, tick, shutdown⟩ := e
  simp only [failTick] at h
  split at h
  · cases h
  cases token with
  | none =>
    cases h
    exact .of_idle rfl rfl (by simp [claims]) (by simp [tokens])
  | some =>
    cases h
    exact .of_idle rfl rfl (by simp [claims, stepDown]) (by simp [tokens, stepDown])

theorem beginShutdown_narrows (hval : e.Valid now) (h : e.beginShutdown = some e') :
    Narrows ttl now e e' := by
  obtain ⟨token, deadline, tick, shutdown⟩ := e
  simp only [beginShutdown, ite_none_right_eq_some] at h
  obtain ⟨rfl, h⟩ := h
  cases token with
  | none =>
    cases h
    exact ⟨⟨fun _ => ⟨rfl, .inr rfl⟩, hval.started⟩, fun _ => id, fun _ => id, by simp⟩
  | some =>
    cases h
    refine ⟨⟨fun hacq => ?_, hval.started⟩, fun _ => id, fun _ => id, by simp⟩
    cases (hval.acquiring hacq).1

/-- An instance that is releasing has no command under way that could give it a lease. -/
theorem Valid.not_acquires (hval : e.Valid now)
    (hph : e.shutdown = .releasing ∨ e.shutdown = .released) : e.tick.acquires = false := by
  cases hacq : e.tick.acquires with
  | false => rfl
  | true =>
    rcases (hval.acquiring hacq).2 with h | h <;> rcases hph with h' | h' <;>
      rw [h] at h' <;> cases h'

theorem Valid.release (h : e.Valid now) (hph : e.shutdown = .releasing) :
    ({ e with shutdown := .released } : Elector).Valid now := by
  refine ⟨fun hacq => ?_, h.started⟩
  cases (h.not_acquires (.inl hph)).symm.trans hacq

theorem endShutdown_narrows (hval : e.Valid now) (h : e.endShutdown = some e') :
    Narrows ttl now e e' := by
  simp only [endShutdown, ite_none_right_eq_some] at h
  obtain ⟨hph, h⟩ := h
  have hacq := hval.not_acquires hph
  cases h
  have hnone : ({ e.stepDown with shutdown := .finished } : Elector).claims ttl = [] := by
    simp only [claims, stepDown, isSome_none, Bool.false_eq_true, if_false, nil_append]
    generalize e.tick = tick at hacq
    cases tick with
    | idle => rfl
    | setting | counting => cases hacq
    | renewing _ result => rcases result with _ | _ | _ <;> rfl
  refine ⟨⟨fun h => ?_, hval.started⟩, by simp [hnone], ?_, fun _ => .inr hnone⟩
  · cases hacq.symm.trans h
  · intro token htok
    exact mem_append_right _ htok

end Elector

/-! ## The invariant -/

variable {leaseTtlMs : Fin n → Nat} {s : LeaderState n} {i : Fin n}

/-- The instance may be a leader now, or become one without another command. -/
def Active (leaseTtlMs : Fin n → Nat) (s : LeaderState n) (i : Fin n) : Prop :=
  ∃ d ∈ (s.electors i).claims (leaseTtlMs i), s.now < d

/-- The instance owns the lease or may be a leader. -/
def Standing (leaseTtlMs : Fin n → Nat) (s : LeaderState n) (i : Fin n) : Prop :=
  (∃ expiresAt, s.lease = some ⟨i, expiresAt⟩) ∨ Active leaseTtlMs s i

structure Elected (leaseTtlMs : Fin n → Nat) (s : LeaderState n) : Prop where
  valid : ∀ i, (s.electors i).Valid s.now
  bounded : ∀ held, s.lease = some held → held.expiresAt ≤ s.now + leaseTtlMs held.owner
  covered : ∀ i, ∀ d ∈ (s.electors i).claims (leaseTtlMs i), s.now < d →
    (∃ expiresAt, s.lease = some ⟨i, expiresAt⟩ ∧ d ≤ expiresAt) ∨
      ((s.electors i).shutdown = .released ∧ s.lease = none)
  alone : ∀ i j, Standing leaseTtlMs s i → Active leaseTtlMs s j → i = j
  drawn : ∀ i, ∀ token ∈ (s.electors i).tokens, token ≤ s.epoch
  assertedDrawn : ∀ token ∈ s.asserted, token ≤ s.epoch
  newest : ∀ i, Standing leaseTtlMs s i → ∀ token ∈ (s.electors i).tokens,
    ∀ old ∈ s.asserted, old ≤ token
  ordered : s.asserted.Pairwise (· ≤ ·)

theorem Elected.initial (leaseTtlMs : Fin n → Nat) : Elected leaseTtlMs (.initial n) := by
  refine ⟨?_, ?_, ?_, ?_, ?_, ?_, ?_, List.Pairwise.nil⟩
  · exact fun i => ⟨by simp [LeaderState.initial, Elector.initial, acquires],
      by simp [LeaderState.initial, Elector.initial, startedAt]⟩
  · rintro held ⟨⟩
  · rintro i d ⟨⟩
  · rintro i j - ⟨d, ⟨⟩, -⟩
  · rintro i token ⟨⟩
  · rintro token ⟨⟩
  · rintro i - token ⟨⟩

theorem active_of_isLeader (h : (s.electors i).isLeader s.now = true) : Active leaseTtlMs s i := by
  simp only [isLeader, Bool.and_eq_true, decide_eq_true_eq] at h
  exact ⟨_, by simp [claims, h.1], h.2⟩

/-! ## Steps -/

variable {e : Elector}

theorem setElector_self : (s.setElector i e).electors i = e := by
  simp only [LeaderState.setElector, Function.update_self]

theorem setElector_of_ne {j : Fin n} (h : j ≠ i) :
    (s.setElector i e).electors j = s.electors j := by
  simp only [LeaderState.setElector, Function.update_of_ne h]

/-- What holds of the new state of one instance and of the others holds of all. -/
theorem forall_setElector {P : Fin n → Elector → Prop} (hself : P i e)
    (hothers : ∀ j, j ≠ i → P j (s.electors j)) (j : Fin n) :
    P j ((s.setElector i e).electors j) := by
  by_cases hj : j = i
  · subst hj
    rw [setElector_self]
    exact hself
  · rw [setElector_of_ne hj]
    exact hothers j hj

namespace Elected

variable (h : Elected leaseTtlMs s)

include h

/-- A step of one instance after which it trusts no more than before; a new token has to be as new
as the epoch. -/
theorem setElector (hval : e.Valid s.now)
    (hclaims : ∀ d ∈ e.claims (leaseTtlMs i), d ∈ (s.electors i).claims (leaseTtlMs i))
    (hrel : (s.electors i).shutdown = .released →
      e.shutdown = .released ∨ e.claims (leaseTtlMs i) = [])
    (htokens : ∀ token ∈ e.tokens, token ∈ (s.electors i).tokens ∨
      (token ≤ s.epoch ∧ ∀ old ∈ s.asserted, old ≤ token)) :
    Elected leaseTtlMs (s.setElector i e) := by
  have hact : ∀ j, Active leaseTtlMs (s.setElector i e) j → Active leaseTtlMs s j := by
    rintro j ⟨d, hd, hnow⟩
    refine ⟨d, ?_, hnow⟩
    revert hd
    exact forall_setElector (P := fun j e => d ∈ e.claims (leaseTtlMs j) →
      d ∈ (s.electors j).claims (leaseTtlMs j)) (hclaims d) (fun _ _ => id) j
  have hstand : ∀ j, Standing leaseTtlMs (s.setElector i e) j → Standing leaseTtlMs s j :=
    fun j => Or.imp_right (hact j)
  refine ⟨?_, h.bounded, ?_, ?_, ?_, h.assertedDrawn, ?_, h.ordered⟩
  · exact forall_setElector (P := fun _ e => e.Valid s.now) hval (fun j _ => h.valid j)
  · refine forall_setElector (P := fun j e => ∀ d ∈ e.claims (leaseTtlMs j), s.now < d →
      (∃ expiresAt, s.lease = some ⟨j, expiresAt⟩ ∧ d ≤ expiresAt) ∨
        (e.shutdown = .released ∧ s.lease = none)) ?_ (fun j _ => h.covered j)
    intro d hd hnow
    rcases h.covered i d (hclaims d hd) hnow with hlease | ⟨hph, hlease⟩
    · exact .inl hlease
    rcases hrel hph with hph | hnone
    · exact .inr ⟨hph, hlease⟩
    · rw [hnone] at hd
      cases hd
  · exact fun j k hj hk => h.alone j k (hstand j hj) (hact k hk)
  · refine forall_setElector (P := fun _ e => ∀ token ∈ e.tokens, token ≤ s.epoch) ?_
      (fun j _ => h.drawn j)
    intro token htok
    exact (htokens token htok).elim (h.drawn i token) (·.1)
  · intro j hj
    have hold := hstand j hj
    refine forall_setElector (P := fun j e => Standing leaseTtlMs s j → ∀ token ∈ e.tokens,
      ∀ old ∈ s.asserted, old ≤ token) ?_ (fun j _ hj => h.newest j hj) j hold
    intro hi token htok
    exact (htokens token htok).elim (h.newest i hi token) (·.2)

theorem narrow (hnarrows : Elector.Narrows (leaseTtlMs i) s.now (s.electors i) e) :
    Elected leaseTtlMs (s.setElector i e) :=
  h.setElector hnarrows.valid hnarrows.claims hnarrows.released
    fun token htok => .inl (hnarrows.tokens token htok)

/-- Time passes: fewer deadlines lie ahead. -/
theorem advance (ms : Nat) : Elected leaseTtlMs { s with now := s.now + ms } := by
  have hact : ∀ j, Active leaseTtlMs { s with now := s.now + ms } j → Active leaseTtlMs s j := by
    rintro j ⟨d, hd, hnow⟩
    exact ⟨d, hd, Nat.lt_of_le_of_lt (Nat.le_add_right _ _) hnow⟩
  have hstand : ∀ j, Standing leaseTtlMs { s with now := s.now + ms } j →
      Standing leaseTtlMs s j := fun j => Or.imp_right (hact j)
  refine ⟨?_, ?_, ?_, ?_, h.drawn, h.assertedDrawn, ?_, h.ordered⟩
  · exact fun j => ⟨(h.valid j).acquiring,
      fun startedAt hstarted =>
        ((h.valid j).started startedAt hstarted).trans (Nat.le_add_right _ _)⟩
  · intro held hheld
    have hbound := h.bounded held hheld
    simp only
    omega
  · exact fun j d hd hnow => h.covered j d hd (Nat.lt_of_le_of_lt (Nat.le_add_right _ _) hnow)
  · exact fun j k hj hk => h.alone j k (hstand j hj) (hact k hk)
  · exact fun j hj => h.newest j (hstand j hj)

/-- A lease that has expired is no longer trusted by its owner, and by no one else. -/
theorem expire {held : Lease n} (hheld : s.lease = some held)
    (hexp : held.expiresAt ≤ s.now) : Elected leaseTtlMs { s with lease := none } := by
  have hnone : ∀ j d, d ∈ (s.electors j).claims (leaseTtlMs j) → ¬s.now < d := by
    intro j d hd hnow
    rcases h.covered j d hd hnow with ⟨expiresAt, hlease, hd'⟩ | ⟨-, hlease⟩
    · rw [hheld] at hlease
      cases hlease
      exact Nat.not_lt.2 hexp (Nat.lt_of_lt_of_le hnow hd')
    · rw [hheld] at hlease
      cases hlease
  refine ⟨h.valid, ?_, ?_, ?_, h.drawn, h.assertedDrawn, ?_, h.ordered⟩
  · rintro other ⟨⟩
  · exact fun j d hd hnow => absurd hnow (hnone j d hd)
  · rintro j k - ⟨d, hd, hnow⟩
    exact absurd hnow (hnone k d hd)
  · rintro j (⟨_, hlease⟩ | ⟨d, hd, hnow⟩)
    · cases hlease
    · exact absurd hnow (hnone j d hd)

variable {startedAt : Nat}

/-- `INCR` draws a token that is newer than every one before. -/
theorem draw (htick : (s.electors i).tick = .counting startedAt none) :
    Elected leaseTtlMs ({ s with epoch := s.epoch + 1 }.setElector i
      { s.electors i with tick := .counting startedAt (some (s.epoch + 1)) }) := by
  have hepoch : Elected leaseTtlMs { s with epoch := s.epoch + 1 } :=
    ⟨h.valid, h.bounded, h.covered, h.alone,
      fun j token htok => (h.drawn j token htok).trans (Nat.le_succ _),
      fun token htok => (h.assertedDrawn token htok).trans (Nat.le_succ _), h.newest, h.ordered⟩
  refine hepoch.setElector ((h.valid i).setTick (by rw [htick]; rfl) (by rw [htick]; rfl)) ?_
    .inl ?_
  · intro d hd
    simpa [claims, htick] using hd
  · intro token htok
    simp only [tokens, mem_append, mem_singleton] at htok
    rcases htok with hold | rfl
    · exact .inl (mem_append_left _ hold)
    · exact .inr ⟨Nat.le_refl _, fun old hold => (h.assertedDrawn old hold).trans (Nat.le_succ _)⟩

/-- The lease comes to one instance or to none, and no other instance may be a leader. -/
theorem relet (hothers : ∀ j, j ≠ i → ¬Active leaseTtlMs s j) {lease : Option (Lease n)}
    (hown : ∀ held, lease = some held → held.owner = i ∧ held.expiresAt ≤ s.now + leaseTtlMs i)
    (hval : e.Valid s.now) (hcov : ∀ d ∈ e.claims (leaseTtlMs i), s.now < d →
      (∃ expiresAt, lease = some ⟨i, expiresAt⟩ ∧ d ≤ expiresAt) ∨
        (e.shutdown = .released ∧ lease = none))
    (htokens : ∀ token ∈ e.tokens, token ∈ (s.electors i).tokens ∧ Standing leaseTtlMs s i) :
    Elected leaseTtlMs ({ s with lease }.setElector i e) := by
  have hact : ∀ j, Active leaseTtlMs ({ s with lease }.setElector i e) j → j = i := by
    rintro j ⟨d, hd, hnow⟩
    by_contra hj
    rw [setElector_of_ne hj] at hd
    exact hothers j hj ⟨d, hd, hnow⟩
  have hstand : ∀ j, Standing leaseTtlMs ({ s with lease }.setElector i e) j →
      j = i := by
    rintro j (⟨expiresAt, hlease⟩ | hj)
    · exact (hown ⟨j, expiresAt⟩ hlease).1
    · exact hact j hj
  refine ⟨?_, ?_, ?_, ?_, ?_, h.assertedDrawn, ?_, h.ordered⟩
  · exact forall_setElector (P := fun _ e => e.Valid s.now) hval (fun j _ => h.valid j)
  · intro held hheld
    obtain ⟨hi, hbound⟩ := hown held hheld
    rw [hi]
    exact hbound
  · refine forall_setElector (P := fun j e => ∀ d ∈ e.claims (leaseTtlMs j), s.now < d →
      (∃ expiresAt, lease = some ⟨j, expiresAt⟩ ∧ d ≤ expiresAt) ∨
        (e.shutdown = .released ∧ lease = none)) hcov ?_
    intro j hj d hd hnow
    exact absurd ⟨d, hd, hnow⟩ (hothers j hj)
  · intro j k hj hk
    rw [hstand j hj, hact k hk]
  · exact forall_setElector (P := fun _ e => ∀ token ∈ e.tokens, token ≤ s.epoch)
      (fun token htok => h.drawn i token (htokens token htok).1) (fun j _ => h.drawn j)
  · intro j hj token htok
    obtain rfl := hstand j hj
    rw [setElector_self] at htok
    obtain ⟨hold, hi⟩ := htokens token htok
    exact h.newest j hi token hold

/-- A `SET` that succeeds: before it no instance may be a leader. -/
theorem win (hfree : s.lease = none) (hrel : ∀ j, (s.electors j).shutdown ≠ .released)
    (htick : (s.electors i).tick = .setting startedAt none) :
    Elected leaseTtlMs ({ s with lease := some ⟨i, s.now + leaseTtlMs i⟩ }.setElector i
      { s.electors i with tick := .setting startedAt (some true) }) := by
  have hval := h.valid i
  obtain ⟨htok, -⟩ := hval.acquiring (by rw [htick]; rfl)
  have hstarted : startedAt ≤ s.now := hval.started startedAt (by rw [htick]; rfl)
  refine h.relet ?_ ?_ (hval.setTick (by rw [htick]; rfl) (by rw [htick]; rfl)) ?_ ?_
  · rintro j - ⟨d, hd, hnow⟩
    rcases h.covered j d hd hnow with ⟨expiresAt, hlease, -⟩ | ⟨hph, -⟩
    · rw [hfree] at hlease
      cases hlease
    · exact hrel j hph
  · rintro held ⟨⟩
    exact ⟨rfl, Nat.le_refl _⟩
  · intro d hd _
    simp only [claims, htok, isSome_none, Bool.false_eq_true, if_false,
      nil_append, mem_singleton] at hd
    refine .inl ⟨_, rfl, ?_⟩
    omega
  · intro token hmem
    simp [tokens, htok] at hmem

/-- A renewal of the owner: its deadlines lie within the extended lease. -/
theorem renew {expiresAt : Nat} (hlease : s.lease = some ⟨i, expiresAt⟩)
    (htick : (s.electors i).tick = .renewing startedAt none) :
    Elected leaseTtlMs ({ s with lease := some ⟨i, s.now + leaseTtlMs i⟩ }.setElector i
      { s.electors i with tick := .renewing startedAt (some true) }) := by
  have hstand : Standing leaseTtlMs s i := .inl ⟨expiresAt, hlease⟩
  have hval := h.valid i
  have hstarted : startedAt ≤ s.now := hval.started startedAt (by rw [htick]; rfl)
  refine h.relet (fun j hj hact => hj (h.alone i j hstand hact).symm) ?_
    (hval.setTick (by rw [htick]; rfl) (by rw [htick]; rfl)) ?_ ?_
  · rintro held ⟨⟩
    exact ⟨rfl, Nat.le_refl _⟩
  · intro d hd hnow
    refine .inl ⟨_, rfl, ?_⟩
    simp only [claims, mem_append] at hd
    rcases hd with hold | hnew
    · -- the deadline it trusts lies within the old lease, which ends before the new one
      have hd : d ∈ (s.electors i).claims (leaseTtlMs i) := mem_append_left _ hold
      rcases h.covered i d hd hnow with ⟨old, hlease', hd'⟩ | ⟨-, hfree⟩
      · exact hd'.trans (h.bounded _ hlease')
      · rw [hlease] at hfree
        cases hfree
    · split at hnew
      · rw [mem_singleton.1 hnew]
        omega
      · cases hnew
  · intro token htok
    refine ⟨?_, hstand⟩
    simpa [tokens, htick] using htok

/-- A release takes effect: the instance keeps what it trusts, and nobody has the lease. -/
theorem release {expiresAt : Nat} (hlease : s.lease = some ⟨i, expiresAt⟩)
    (hph : (s.electors i).shutdown = .releasing) :
    Elected leaseTtlMs ({ s with lease := none }.setElector i
      { s.electors i with shutdown := .released }) := by
  have hstand : Standing leaseTtlMs s i := .inl ⟨expiresAt, hlease⟩
  refine h.relet (fun j hj hact => hj (h.alone i j hstand hact).symm) ?_
    ((h.valid i).release hph) (fun _ _ _ => .inr ⟨rfl, rfl⟩)
    fun token htok => ⟨htok, hstand⟩
  rintro held ⟨⟩

/-- A release that finds no lease of its instance changes nothing but the phase. -/
theorem releaseMiss (hph : (s.electors i).shutdown = .releasing) :
    Elected leaseTtlMs (s.setElector i { s.electors i with shutdown := .released }) :=
  h.narrow ⟨(h.valid i).release hph, fun _ => id, fun _ => id, fun _ => .inl rfl⟩

variable {s' : LeaderState n}

/-- The tick's command takes effect. -/
theorem tickEffect (hafter : AcquiresAfterRelease s (.tickEffect i))
    (hstep : s.tickEffect i (leaseTtlMs i) = some s') : Elected leaseTtlMs s' := by
  simp only [LeaderState.tickEffect] at hstep
  split at hstep
  · rename_i startedAt htick
    cases hlease : s.lease with
    | none =>
      simp only [hlease, setNx, some.injEq] at hstep
      subst hstep
      exact h.win hlease (hafter (by rw [htick]; rfl)) htick
    | some =>
      simp only [hlease, setNx, some.injEq] at hstep
      subst hstep
      rw [← hlease]
      exact h.narrow ⟨(h.valid i).setTick (by rw [htick]; rfl) (by rw [htick]; rfl),
        by simp [claims, htick], by simp [tokens, htick], .inl⟩
  · rename_i startedAt htick
    cases hstep
    exact h.draw htick
  · rename_i startedAt htick
    have hmiss : Elected leaseTtlMs (s.setElector i
        { s.electors i with tick := .renewing startedAt (some false) }) :=
      h.narrow ⟨(h.valid i).setTick (by rw [htick]; rfl) (by rw [htick]; rfl),
        by simp [claims, htick], by simp [tokens, htick], .inl⟩
    cases hlease : s.lease with
    | none =>
      simp only [hlease, renewScript, some.injEq] at hstep
      subst hstep
      rw [← hlease]
      exact hmiss
    | some held =>
      simp only [hlease, renewScript] at hstep
      split at hstep
      · rename_i hown
        cases hstep
        obtain ⟨owner, expiresAt⟩ := held
        obtain rfl : owner = i := hown
        exact h.renew hlease htick
      · cases hstep
        rw [← hlease]
        exact hmiss
  · cases hstep

theorem releaseEffect (hstep : s.releaseEffect i = some s') : Elected leaseTtlMs s' := by
  simp only [LeaderState.releaseEffect, ite_none_right_eq_some] at hstep
  obtain ⟨hph, hstep⟩ := hstep
  cases hlease : s.lease with
  | none =>
    simp only [hlease, releaseScript, some.injEq] at hstep
    subst hstep
    rw [← hlease]
    exact h.releaseMiss hph
  | some held =>
    simp only [hlease, releaseScript, some.injEq] at hstep
    subst hstep
    split
    · rename_i hown
      obtain ⟨owner, expiresAt⟩ := held
      obtain rfl : owner = i := hown
      exact h.release hlease hph
    · rw [← hlease]
      exact h.releaseMiss hph

/-- A leader's token is the newest of all that have been asserted. -/
theorem assertLeadership {token : Nat}
    (hassert : (s.electors i).assertLeadership s.now = .ok token) :
    Elected leaseTtlMs { s with asserted := s.asserted ++ [token] } := by
  have hleader : (s.electors i).isLeader s.now = true ∧
      (s.electors i).fencingToken = some token := by
    simp only [Elector.assertLeadership] at hassert
    split at hassert
    · rename_i held htok
      split at hassert
      · rename_i hleader
        cases hassert
        exact ⟨hleader, htok⟩
      · cases hassert
    · cases hassert
  obtain ⟨hleader, htok⟩ := hleader
  have hact : Active leaseTtlMs s i := active_of_isLeader hleader
  have hmem : token ∈ (s.electors i).tokens := by simp [tokens, htok]
  -- an instance with a token is not drawing another one
  have honly : ∀ other ∈ (s.electors i).tokens, other = token := by
    intro other hoth
    have hacq := (h.valid i).acquiring
    rw [htok] at hacq
    simp only [tokens, htok, toList_some, mem_append, mem_singleton] at hoth
    rcases hoth with rfl | hdrawn
    · rfl
    split at hdrawn
    · rename_i htick
      rw [htick] at hacq
      cases (hacq rfl).1
    · cases hdrawn
  refine { h with assertedDrawn := ?_, newest := ?_, ordered := ?_ }
  · exact forall_mem_snoc.2 ⟨h.assertedDrawn, h.drawn i token hmem⟩
  · intro j hj other hoth old hold
    obtain rfl : j = i := h.alone j i hj hact
    rw [honly other hoth]
    rcases mem_snoc.1 hold with hold | rfl
    · exact h.newest j hj token hmem old hold
    · rfl
  · exact pairwise_snoc.2 ⟨h.ordered, h.newest i (.inr hact) token hmem⟩

theorem step {l : LeaderLabel n} (hafter : AcquiresAfterRelease s l)
    (hstep : LeaderSteps leaseTtlMs s l s') : Elected leaseTtlMs s' := by
  cases l with
  | advance ms =>
    cases hstep
    exact h.advance ms
  | expire =>
    simp only [LeaderSteps, leaderStep] at hstep
    split at hstep
    · rename_i held hheld
      obtain ⟨hexp, ⟨⟩⟩ := ite_none_right_eq_some.1 hstep
      exact h.expire hheld hexp
    · cases hstep
  | tick =>
    obtain ⟨e, he, rfl⟩ := map_eq_some_iff.1 hstep
    exact h.narrow (beginTick_narrows he)
  | tickEffect => exact h.tickEffect hafter hstep
  | tickAnswer i =>
    obtain ⟨e, he, rfl⟩ := map_eq_some_iff.1 hstep
    exact h.narrow (answerTick_narrows (h.valid i) he)
  | tickFailure =>
    obtain ⟨e, he, rfl⟩ := map_eq_some_iff.1 hstep
    exact h.narrow (failTick_narrows he)
  | shutdown i =>
    obtain ⟨e, he, rfl⟩ := map_eq_some_iff.1 hstep
    exact h.narrow (beginShutdown_narrows (h.valid i) he)
  | releaseEffect => exact h.releaseEffect hstep
  | releaseAnswer i =>
    obtain ⟨e, he, rfl⟩ := map_eq_some_iff.1 hstep
    exact h.narrow (endShutdown_narrows (h.valid i) he)
  | assertLeadership =>
    simp only [LeaderSteps, leaderStep] at hstep
    split at hstep
    · rename_i token hassert
      cases hstep
      exact h.assertLeadership hassert
    · cases hstep
      exact h

end Elected

/-! ## Runs -/

/-- At every moment at most one instance is a leader, and the tokens that `assertLeadership` has
returned never decrease. -/
theorem one_leader_with_newest_token (leaseTtlMs : Fin n → Nat) (s : LeaderState n)
    (hrun : RunWhere (LeaderSteps leaseTtlMs) AcquiresAfterRelease (.initial n) s) :
    (∀ i j, (s.electors i).isLeader s.now = true → (s.electors j).isLeader s.now = true → i = j) ∧
      s.asserted.Pairwise (· ≤ ·) := by
  have h : Elected leaseTtlMs s := RunWhere.invariant (Elected leaseTtlMs) hrun
    (Elected.initial leaseTtlMs) fun _ _ _ ha hl hstep => ha.step hl hstep
  refine ⟨fun i j hi hj => ?_, h.ordered⟩
  exact h.alone i j (.inr (active_of_isLeader hi)) (active_of_isLeader hj)

/-- The labels of a tick of an instance without a token that acquires the lease. -/
def acquisition {n : Nat} (i : Fin n) : List (LeaderLabel n) :=
  [.tick i, .tickEffect i, .tickAnswer i, .tickEffect i, .tickAnswer i]

/-- One instance leads, renews and shuts down; the other one acquires the lease after it. -/
theorem one_leader_with_newest_token_after_shutdown :
    ∃ s, RunWhere (LeaderSteps fun _ : Fin 2 => 15000) AcquiresAfterRelease (.initial 2) s ∧
      (s.electors 1).isLeader s.now = true ∧ (s.electors 0).isLeader s.now = false ∧
      s.asserted = [1, 2] ∧ s.asserted.Pairwise (· ≤ ·) :=
  ⟨_, .performed
    (acquisition 0 ++ [.assertLeadership 0, .advance 5000, .tick 0, .tickEffect 0, .tickAnswer 0,
      .shutdown 0, .releaseEffect 0, .releaseAnswer 0] ++ acquisition 1 ++ [.assertLeadership 1])
    (by decide +kernel), by decide +kernel, by decide +kernel, by decide +kernel,
    (one_leader_with_newest_token _ _ (.performed _ _)).2⟩

/-- The release has taken effect and is not yet answered: another instance acquires the lease, both
are leaders, and the old token is asserted after the new one. -/
theorem two_leaders_during_shutdown :
    ¬∀ s, RunWhere (LeaderSteps fun _ : Fin 2 => 15000) (fun _ _ => True) (.initial 2) s →
      (∀ i j, (s.electors i).isLeader s.now = true → (s.electors j).isLeader s.now = true →
        i = j) ∧ s.asserted.Pairwise (· ≤ ·) := by
  intro hall
  have hone := (hall _ (.performed
    (acquisition 0 ++ [.shutdown 0, .releaseEffect 0] ++ acquisition 1) (by decide +kernel))).1 0 1
    (by decide +kernel) (by decide +kernel)
  exact absurd hone (by decide)

end Refract.Leader
