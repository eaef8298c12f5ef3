import Refract.Oracle.OracleControl

/-!
# A pause that has resolved is seen

A call that loads the entries can read the table before a pause is committed and store what it read
after the pause has deleted the cached snapshot. The snapshot then lacks a pause that has resolved,
and every call that hits it until it expires says that nothing is paused
(`pause_hidden_by_late_fill`). Where each snapshot that is stored is still the content of the table
(`FillsCurrent`), a pause that has resolved is in the table and in whatever is cached until a resume
of its scope is requested, so every call that starts after it finds its scope paused
(`resolved_pause_seen`).
-/

namespace Refract.Oracle.Control

open Lib List OrdMap
open PauseEvent

/-! ## Pauses that stand -/

variable (scope : PauseScope)

/-- The request to resume the scope. -/
def PauseEvent.resumes : PauseEvent → Bool
  | .requested _ requestedScope paused => decide (requestedScope = scope) && !paused
  | _ => false

/-- The call of `setPaused` has returned or thrown. -/
def PauseEvent.ends (call : Nat) : PauseEvent → Bool
  | .resolved ended _ => decide (ended = call)
  | .rejected ended _ => decide (ended = call)
  | _ => false

def NoResume (events : List PauseEvent) : Prop :=
  ∀ e ∈ events, e.resumes scope = false

/-- Every request to resume the scope has ended. -/
def NoResumeRunning (history : List PauseEvent) : Prop :=
  ∀ call, .requested call scope false ∈ history → ∃ e ∈ history, e.ends call = true

/-- A pause of the scope has resolved, no resume of it was running when the pause was requested, and
none has been requested since. -/
def PauseStands (history : List PauseEvent) : Prop :=
  ∃ pre call mid change post,
    history = pre ++ .requested call scope true :: (mid ++ .resolved call change :: post) ∧
      NoResumeRunning scope pre ∧ NoResume scope mid ∧ NoResume scope post

/-- The scopes whose pause stops a coverage code. -/
def Governs (coverageCode : Nat) : Prop :=
  scope = .global ∨ ∃ type, codeToSoroban coverageCode = .ok type ∧ scope = .coverage type

/-- A snapshot is stored only while it is the content of the table: no transaction has committed
since its rows were read. -/
def FillsCurrent (s : ControlState) : ControlLabel → Prop
  | .cacheSet call => ∀ r ∈ s.reads.get? call, r.phase = .loaded s.table
  | _ => True

instance (s : ControlState) (l : ControlLabel) : Decidable (FillsCurrent s l) := by
  unfold FillsCurrent
  split <;> infer_instance

variable {query : PauseQuery} {entries : PauseEntries}

section Histories

variable {scope : PauseScope} {history events added : List PauseEvent}

theorem NoResume.of_append (h : NoResume scope (events ++ added)) :
    NoResume scope events ∧ NoResume scope added := forall_mem_append.1 h

theorem NoResume.append (h : NoResume scope events) (hadd : NoResume scope added) :
    NoResume scope (events ++ added) := forall_mem_append.2 ⟨h, hadd⟩

/-- A pause stands until a resume of its scope is requested. -/
theorem PauseStands.append (h : PauseStands scope history) (hadd : NoResume scope added) :
    PauseStands scope (history ++ added) := by
  obtain ⟨pre, call, mid, change, post, rfl, hbef, hmid, hpost⟩ := h
  exact ⟨pre, call, mid, change, post ++ added, by simp, hbef, hmid, hpost.append hadd⟩

/-- A call that starts while the pause stands, with no resume requested since. -/
theorem PauseStands.since {pre post : List PauseEvent} {call : Nat} (h : PauseStands scope pre)
    (heq : history = pre ++ .asked call query :: post) (hpost : NoResume scope post) :
    PauseStands scope history := by
  rw [heq]
  exact h.append (forall_mem_cons.2 ⟨rfl, hpost⟩)

/-- Where a governing scope is paused, the answer is `true`. -/
theorem isPausedIn_of_governs {coverageCode : Nat} (hgoverns : Governs scope coverageCode)
    (hpaused : entries.isPausedScope scope = true) :
    isPausedIn entries coverageCode = .ok true := by
  simp only [isPausedIn]
  split
  · rfl
  rename_i hglobal
  rcases hgoverns with rfl | ⟨type, htype, rfl⟩
  · exact absurd hpaused hglobal
  · rw [htype]
    exact congrArg Except.ok hpaused

end Histories

/-! ## The invariant -/

/-- What a pause call brings about, as long as no resume of its scope was running when it was
requested and none has been requested since. -/
structure Pausing (s : ControlState) (scope : PauseScope) (call : Nat) : Prop where
  alone : ∀ other w, s.writes.get? other = some w → w.scope = scope → w.paused = true
  own : ∀ w, s.writes.get? call = some w → w.scope = scope ∧ w.paused = true
  committed : ∀ w, s.writes.get? call = some w → w.change.isSome = true →
    s.table.isPausedScope scope = true
  table : ∀ change, .resolved call change ∈ s.history → s.table.isPausedScope scope = true
  cache : ∀ change, .resolved call change ∈ s.history →
    ∀ entries, s.cache = some entries → entries.isPausedScope scope = true

/-- The request of a pause while no resume is running. -/
def Begins (call : Nat) (past : List PauseEvent) (e : PauseEvent) : Prop :=
  e = .requested call scope true ∧ NoResumeRunning scope past

/-- The start of a call while a pause stands. -/
def StartsPaused (call : Nat) (query : PauseQuery) (past : List PauseEvent) (e : PauseEvent) :
    Prop :=
  e = .asked call query ∧ PauseStands scope past

/-- An answer is `true` if the call started while a governing pause stood and no resume of it was
requested before the answer. -/
def AnswersPaused (e : PauseEvent) (past : List PauseEvent) : Prop :=
  ∀ call answer, e = .answered call answer → ∀ scope coverageCode, Governs scope coverageCode →
    FollowedWhere (StartsPaused scope call (.isPaused coverageCode))
      (fun during => NoResume scope during → answer = .paused (.ok true)) past

structure Coherent (s : ControlState) : Prop where
  writes : ∀ call w, s.writes.get? call = some w →
    .requested call w.scope w.paused ∈ s.history ∧ ∀ e ∈ s.history, e.ends call = false
  queries : ∀ call r, s.reads.get? call = some r →
    ∀ query, .asked call query ∈ s.history → query = r.query
  pausing : ∀ scope call, FollowedWhere (Begins scope call)
    (fun post => NoResume scope post → Pausing s scope call) s.history
  loaded : ∀ call query entries, s.reads.get? call = some ⟨query, .loaded entries⟩ →
    ∀ scope, FollowedWhere (StartsPaused scope call query)
      (fun post => NoResume scope post → entries.isPausedScope scope = true) s.history
  answers : PrecededBy AnswersPaused s.history

theorem Coherent.initial : Coherent .initial := by
  refine ⟨?_, ?_, fun _ _ => FollowedWhere.nil _ _, ?_, PrecededBy.nil _⟩ <;>
    simp [ControlState.initial]

variable {s : ControlState} {scope : PauseScope}

namespace Coherent

variable (h : Coherent s) (hstands : PauseStands scope s.history)

include h hstands

theorem stands : ∃ call change, .resolved call change ∈ s.history ∧ Pausing s scope call := by
  obtain ⟨pre, call, mid, change, post, heq, hbef, hmid, hpost⟩ := hstands
  refine ⟨call, change, by simp [heq], h.pausing scope call pre _ _ heq ⟨rfl, hbef⟩ ?_⟩
  exact hmid.append (forall_mem_cons.2 ⟨rfl, hpost⟩)

/-- While a pause stands, the table has it. -/
theorem table_paused : s.table.isPausedScope scope = true := by
  obtain ⟨call, change, hres, hpau⟩ := h.stands hstands
  exact hpau.table change hres

/-- While a pause stands, a cached snapshot has it. -/
theorem cache_paused (hcache : s.cache = some entries) : entries.isPausedScope scope = true := by
  obtain ⟨call, change, hres, hpau⟩ := h.stands hstands
  exact hpau.cache change hres entries hcache

end Coherent

/-! ## Steps -/

variable {s' : ControlState} {call : Nat}

/-- Steps of calls that only read leave what a pause brings about alone. -/
theorem Pausing.frame (h : Pausing s scope call) (hwrites : s'.writes = s.writes)
    (htable : s'.table = s.table)
    (hcache : ∀ entries, s'.cache = some entries → s.cache = some entries)
    (hres : ∀ change, .resolved call change ∈ s'.history → .resolved call change ∈ s.history) :
    Pausing s' scope call := by
  cases s
  cases hwrites
  cases htable
  exact ⟨h.alone, h.own, h.committed, fun change hchange => h.table change (hres change hchange),
    fun change hchange entries hents =>
      h.cache change (hres change hchange) entries (hcache entries hents)⟩

variable {added : List PauseEvent}

/-- A history that is extended by events other than requests of pauses. -/
theorem Coherent.pausing_append (h : Coherent s) (hhist : s'.history = s.history ++ added)
    (hadd : ∀ e ∈ added, ∀ c sc, e ≠ .requested c sc true)
    (hstep : ∀ sc c, Pausing s sc c → Pausing s' sc c) :
    ∀ sc c, FollowedWhere (Begins sc c) (fun post => NoResume sc post → Pausing s' sc c)
      s'.history := by
  intro sc c
  rw [hhist]
  refine (h.pausing sc c).append added ?_ ?_
  · rintro past e he ⟨rfl, -⟩
    exact hadd _ he c sc rfl
  · intro pre x post _ _ hpau hno
    exact hstep sc c (hpau hno.of_append.1)

/-- The bookkeeping of the writes under an extension in which no call ends. -/
theorem Coherent.writes_append (h : Coherent s) (hadd : ∀ e ∈ added, ∀ c, e.ends c = false) :
    ∀ c w, s.writes.get? c = some w → .requested c w.scope w.paused ∈ s.history ++ added ∧
        ∀ e ∈ s.history ++ added, e.ends c = false := by
  intro c w hw
  obtain ⟨hrequested, hends⟩ := h.writes c w hw
  exact ⟨mem_append_left _ hrequested, forall_mem_append.2 ⟨hends, fun e he => hadd e he c⟩⟩

variable {reads : OrdMap Nat PauseRead}

/-- The bookkeeping of the reads under an extension without the start of a read. -/
theorem Coherent.queries_append (h : Coherent s) (hadd : ∀ e ∈ added, ∀ c q, e ≠ .asked c q)
    (hreads : ∀ c r', reads.get? c = some r' → ∃ r, s.reads.get? c = some r ∧ r'.query = r.query) :
    ∀ c r, reads.get? c = some r → ∀ q, .asked c q ∈ s.history ++ added → q = r.query := by
  intro c r' hr' q hq
  obtain ⟨r, hr, hquery⟩ := hreads c r' hr'
  rw [hquery]
  rcases mem_append.1 hq with hold | hnew
  · exact h.queries c r hr q hold
  · exact absurd rfl (hadd _ hnew c q)

/-- What loaded calls hold under an extension without the start of a read. -/
theorem Coherent.loaded_append (h : Coherent s) (hadd : ∀ e ∈ added, ∀ c q, e ≠ .asked c q)
    (hreads : ∀ c q entries, reads.get? c = some ⟨q, .loaded entries⟩ →
      s.reads.get? c = some ⟨q, .loaded entries⟩) :
    ∀ c q entries, reads.get? c = some ⟨q, .loaded entries⟩ →
      ∀ sc, FollowedWhere (StartsPaused sc c q)
        (fun post => NoResume sc post → entries.isPausedScope sc = true) (s.history ++ added) := by
  intro c q entries hr sc
  refine (h.loaded c q entries (hreads c q entries hr) sc).append added ?_ ?_
  · rintro past e he ⟨rfl, -⟩
    exact hadd _ he c q rfl
  · intro pre x post _ _ hpaused hno
    exact hpaused hno.of_append.1

theorem Coherent.answers_append (h : Coherent s)
    (hadd : ∀ e ∈ added, ∀ c answer, e ≠ .answered c answer) :
    PrecededBy AnswersPaused (s.history ++ added) := by
  refine h.answers.append added ?_
  rintro new e post rfl c answer rfl
  exact absurd rfl (hadd _ (by simp) c answer)

/-! ### Calls that load the entries -/

variable {e : PauseEvent}

theorem ne_of_fresh (hfresh : s.fresh call = true) (he : e ∈ s.history) : e.call ≠ call :=
  of_decide_eq_true (all_eq_true.1 hfresh e he)

theorem Coherent.ask (h : Coherent s) (hfresh : s.fresh call = true) (query : PauseQuery) :
    Coherent { s with
      reads := s.reads.set call ⟨query, .started⟩
      history := s.history ++ [asked call query] } := by
  refine ⟨?_, ?_, ?_, ?_, ?_⟩
  · exact h.writes_append (by simp [ends])
  · intro c r hr q hq
    rcases get?_set_eq_some_iff.1 hr with ⟨rfl, rfl⟩ | ⟨hne, hr⟩
    · rcases mem_snoc.1 hq with hold | hnew
      · exact absurd rfl (ne_of_fresh hfresh hold)
      · cases hnew
        rfl
    · rcases mem_snoc.1 hq with hold | hnew
      · exact h.queries c r hr q hold
      · cases hnew
        exact absurd rfl hne
  · refine h.pausing_append rfl (by simp) fun sc c hpau => ?_
    exact hpau.frame rfl rfl (fun _ => id) (by simp)
  · intro c q entries hr sc
    rcases get?_set_eq_some_iff.1 hr with ⟨-, hnew⟩ | ⟨hne, hr⟩
    · cases hnew
    refine (h.loaded c q entries hr sc).snoc _ ?_ ?_
    · exact fun pre x post _ _ hpaused hno => hpaused hno.of_append.1
    · rintro ⟨hasked, -⟩
      cases hasked
      exact absurd rfl hne
  · exact h.answers_append (by simp)

/-- A call goes on to its next phase; what it loads is the table. -/
theorem Coherent.setRead (h : Coherent s) {phase : LoadPhase}
    (hr : s.reads.get? call = some ⟨query, phase⟩) (next : LoadPhase)
    (hnext : ∀ entries, next = .loaded entries → entries = s.table) :
    Coherent { s with reads := s.reads.set call ⟨query, next⟩ } := by
  refine ⟨h.writes, ?_, ?_, ?_, h.answers⟩
  · exact forall_get?_set h.queries fun q hq => h.queries call _ hr q hq
  · exact h.pausing_append (append_nil _).symm (by simp) fun sc c hpau =>
      hpau.frame rfl rfl (fun _ => id) (fun _ => id)
  · intro c q entries hr' sc
    rcases get?_set_eq_some_iff.1 hr' with ⟨-, hread⟩ | ⟨-, hr'⟩
    · cases hread
      rw [hnext entries rfl]
      rintro pre x post heq ⟨rfl, hstands⟩ hno
      exact h.table_paused (hstands.since heq hno)
    · exact h.loaded c q entries hr' sc

variable {r : PauseRead}

/-- A call returns; its entries have the pauses that stood when it started. -/
theorem Coherent.answer (h : Coherent s) (hr : s.reads.get? call = some r)
    (hents : ∀ sc, FollowedWhere (StartsPaused sc call r.query)
      (fun post => NoResume sc post → entries.isPausedScope sc = true) s.history) :
    Coherent (s.answer call r.query entries) := by
  refine ⟨?_, ?_, ?_, ?_, ?_⟩
  · exact h.writes_append (by simp [ends])
  · refine h.queries_append (by simp) fun c r' hr' => ?_
    exact ⟨r', (get?_delete_eq_some_iff.1 hr').2, rfl⟩
  · refine h.pausing_append rfl (by simp) fun sc c hpau => ?_
    exact hpau.frame rfl rfl (fun _ => id) (by simp [ControlState.answer])
  · exact h.loaded_append (by simp) fun c q entries hr' => (get?_delete_eq_some_iff.1 hr').2
  · refine h.answers.snoc _ ?_
    intro c answer hans sc coverageCode hgoverns
    cases hans
    rintro pre x during heq ⟨rfl, hstands⟩ hno
    have hquery : PauseQuery.isPaused coverageCode = r.query :=
      h.queries call r hr _ (by simp [heq])
    have hpaused := hents sc pre _ during heq ⟨by rw [hquery], hstands⟩ hno
    rw [← hquery, answerIn, isPausedIn_of_governs hgoverns hpaused]

/-- A call hits the cache. -/
theorem Coherent.hit (h : Coherent s) (hr : s.reads.get? call = some r)
    (hcache : s.cache = some entries) : Coherent (s.answer call r.query entries) := by
  refine h.answer hr ?_
  rintro sc pre x post heq ⟨rfl, hstands⟩ hno
  exact h.cache_paused (hstands.since heq hno) hcache

/-- The content of the table is stored in the cache. -/
theorem Coherent.fill (h : Coherent s) : Coherent { s with cache := some s.table } := by
  refine { h with pausing := ?_ }
  refine h.pausing_append (append_nil _).symm (by simp) fun sc c hpau => ?_
  refine ⟨hpau.alone, hpau.own, hpau.committed, hpau.table, ?_⟩
  intro change hchange entries hents
  cases hents
  exact hpau.table change hchange

theorem Coherent.expire (h : Coherent s) : Coherent { s with cache := none } := by
  refine ⟨h.writes, h.queries, ?_, h.loaded, h.answers⟩
  exact h.pausing_append (append_nil _).symm (by simp) fun sc c hpau =>
    hpau.frame rfl rfl (by simp) (fun _ => id)

/-! ### Calls of `setPaused` -/

theorem ends_of_ne (h : e.call ≠ call) : e.ends call = false := by
  cases e with
  | asked | answered | requested => rfl
  | resolved | rejected => exact decide_eq_false h

/-- A request that is not one to resume the scope leaves an earlier pause of it alone. -/
theorem Pausing.request (h : Pausing s scope call) {other : Nat} (hne : call ≠ other)
    {requestedScope : PauseScope} {paused : Bool} (hno : requestedScope = scope → paused = true)
    (actor reason : String) :
    Pausing { s with
      writes := s.writes.set other ⟨requestedScope, paused, actor, reason, none⟩
      history := s.history ++ [requested other requestedScope paused] } scope call := by
  have hown : ∀ w, (s.writes.set other ⟨requestedScope, paused, actor, reason, none⟩).get? call =
      some w → s.writes.get? call = some w := by
    intro w hw
    rwa [get?_set_of_ne hne] at hw
  have hres : ∀ change, resolved call change ∈
      s.history ++ [requested other requestedScope paused] → .resolved call change ∈ s.history := by
    simp
  refine ⟨?_, fun w hw => h.own w (hown w hw), fun w hw => h.committed w (hown w hw),
    fun change hchange => h.table change (hres change hchange),
    fun change hchange => h.cache change (hres change hchange)⟩
  exact forall_get?_set h.alone hno

/-- A pause that is requested while no resume of its scope is running. -/
theorem Coherent.begins (h : Coherent s) (hfresh : s.fresh call = true)
    (hrunn : NoResumeRunning scope s.history) (actor reason : String) :
    Pausing { s with
      writes := s.writes.set call ⟨scope, true, actor, reason, none⟩
      history := s.history ++ [requested call scope true] } scope call := by
  have hres : ∀ change, resolved call change ∉ s.history ++ [requested call scope true] := by
    intro change hchange
    rcases mem_snoc.1 hchange with hold | hnew
    · exact ne_of_fresh hfresh hold rfl
    · cases hnew
  refine ⟨?_, ?_, ?_, fun change hchange => absurd hchange (hres change),
    fun change hchange => absurd hchange (hres change)⟩
  · intro c w hw hscope
    rcases get?_set_eq_some_iff.1 hw with ⟨-, rfl⟩ | ⟨-, hw⟩
    · rfl
    -- a write that resumes the scope would be running, and all of them have ended
    obtain ⟨hrequested, hends⟩ := h.writes c w hw
    rw [hscope] at hrequested
    cases hpaused : w.paused with
    | true => rfl
    | false =>
      rw [hpaused] at hrequested
      obtain ⟨e, he, hend⟩ := hrunn c hrequested
      rw [hends e he] at hend
      cases hend
  · intro w hw
    rcases get?_set_eq_some_iff.1 hw with ⟨-, rfl⟩ | ⟨hne, -⟩
    · exact ⟨rfl, rfl⟩
    · exact absurd rfl hne
  · intro w hw hchange
    rcases get?_set_eq_some_iff.1 hw with ⟨-, rfl⟩ | ⟨hne, -⟩
    · cases hchange
    · exact absurd rfl hne

theorem Coherent.request (h : Coherent s) (hfresh : s.fresh call = true) (scope : PauseScope)
    (paused : Bool) (actor reason : String) :
    Coherent { s with
      writes := s.writes.set call ⟨scope, paused, actor, reason, none⟩
      history := s.history ++ [requested call scope paused] } := by
  refine ⟨?_, ?_, ?_, ?_, ?_⟩
  · intro c w hw
    rcases get?_set_eq_some_iff.1 hw with ⟨rfl, rfl⟩ | ⟨-, hw⟩
    · refine ⟨mem_append_right _ mem_cons_self, ?_⟩
      exact forall_mem_snoc.2 ⟨fun e hold => ends_of_ne (ne_of_fresh hfresh hold), rfl⟩
    · exact h.writes_append (by simp [ends]) c w hw
  · exact h.queries_append (by simp) fun c r hr => ⟨r, hr, rfl⟩
  · intro sc c
    refine (h.pausing sc c).snoc _ ?_ ?_
    · rintro pre x post heq ⟨rfl, -⟩ hpau hno
      obtain ⟨hpost, hnew⟩ := hno.of_append
      have hmem : requested c sc true ∈ s.history := by simp [heq]
      refine (hpau hpost).request (ne_of_fresh hfresh hmem) ?_ actor reason
      intro hscope
      have hresumes := hnew _ mem_cons_self
      simpa [resumes, hscope] using hresumes
    · rintro ⟨hrequested, hrunn⟩ -
      cases hrequested
      exact h.begins hfresh hrunn actor reason
  · exact h.loaded_append (by simp) fun c q entries => id
  · exact h.answers_append (by simp)

theorem isPausedScope_set (entries : PauseEntries) (changed : PauseScope) (state : PauseState) :
    PauseEntries.isPausedScope (entries.set changed state) scope =
      if scope = changed then state.paused else entries.isPausedScope scope := by
  simp only [PauseEntries.isPausedScope, get?_set]
  split <;> rfl

variable {w : PauseWrite}

/-- A transaction writes the scope of its call; no resume of a scope that is being paused can. -/
theorem Coherent.commitPause (h : Coherent s) (hw : s.writes.get? call = some w) (stored : String)
    (now : Int) : Coherent (s.commitPause call w stored now) := by
  refine ⟨?_, h.queries, ?_, h.loaded, h.answers⟩
  · exact forall_get?_set h.writes (h.writes call w hw)
  · refine h.pausing_append (append_nil _).symm (by simp) fun sc c hpau => ?_
    have hkeeps : s.table.isPausedScope sc = true →
        (s.commitPause call w stored now).table.isPausedScope sc = true := by
      intro hpaused
      simp only [ControlState.commitPause, isPausedScope_set]
      split
      · rename_i hscope
        exact hpau.alone call w hw hscope.symm
      · exact hpaused
    refine ⟨?_, ?_, ?_, fun change hchange => hkeeps (hpau.table change hchange), hpau.cache⟩
    · exact forall_get?_set hpau.alone (hpau.alone call w hw)
    · intro w' hw'
      rcases get?_set_eq_some_iff.1 hw' with ⟨rfl, rfl⟩ | ⟨-, hw'⟩
      · exact hpau.own w hw
      · exact hpau.own w' hw'
    · intro w' hw' hchange
      rcases get?_set_eq_some_iff.1 hw' with ⟨rfl, -⟩ | ⟨-, hw'⟩
      · obtain ⟨hscope, hpaused⟩ := hpau.own w hw
        simp only [ControlState.commitPause, isPausedScope_set, hscope, if_true, hpaused]
      · exact hkeeps (hpau.committed w' hw' hchange)

/-- A call of `setPaused` ends; when it resolves, the table has its pause and nothing is cached. -/
theorem Coherent.ended (h : Coherent s) {cache : Option PauseEntries} (hcall : e.call = call)
    (hrequested : ∀ e' ∈ [e], ∀ c sc, e' ≠ .requested c sc true)
    (hasked : ∀ e' ∈ [e], ∀ c q, e' ≠ .asked c q)
    (hanswered : ∀ e' ∈ [e], ∀ c answer, e' ≠ .answered c answer)
    (hcache : ∀ entries, cache = some entries → s.cache = some entries)
    (hres : ∀ sc c change, Pausing s sc c → .resolved c change = e →
      s.table.isPausedScope sc = true ∧ cache = none) :
    Coherent { s with
      cache
      writes := s.writes.delete call
      history := s.history ++ [e] } := by
  refine ⟨?_, h.queries_append hasked fun c r hr => ⟨r, hr, rfl⟩, ?_,
    h.loaded_append hasked fun c q entries => id, h.answers_append hanswered⟩
  · intro c w hw
    obtain ⟨hne, hw⟩ := get?_delete_eq_some_iff.1 hw
    obtain ⟨hin, hends⟩ := h.writes c w hw
    refine ⟨mem_append_left _ hin, forall_mem_snoc.2 ⟨hends, ends_of_ne ?_⟩⟩
    rw [hcall]
    exact hne.symm
  · refine h.pausing_append rfl hrequested fun sc c hpau => ?_
    have hwrites : ∀ c' w, (s.writes.delete call).get? c' = some w →
        s.writes.get? c' = some w := fun c' w hw => (get?_delete_eq_some_iff.1 hw).2
    refine ⟨fun c' w hw => hpau.alone c' w (hwrites c' w hw),
      fun w hw => hpau.own w (hwrites c w hw),
      fun w hw => hpau.committed w (hwrites c w hw), ?_, ?_⟩
    · intro change hchange
      rcases mem_snoc.1 hchange with hold | hnew
      · exact hpau.table change hold
      · exact (hres sc c change hpau hnew).1
    · intro change hchange entries hents
      rcases mem_snoc.1 hchange with hold | hnew
      · exact hpau.cache change hold entries (hcache entries hents)
      · cases hents.symm.trans (hres sc c change hpau hnew).2

/-! ### Every step -/

theorem Coherent.step (h : Coherent s) {l : ControlLabel} (hfills : FillsCurrent s l)
    (hstep : ControlSteps s l s') : Coherent s' := by
  cases l with
  | ask _ query =>
    obtain ⟨hfresh, ⟨⟩⟩ := Option.ite_none_right_eq_some.1 hstep
    exact h.ask hfresh query
  | cacheGet =>
    simp only [ControlSteps, controlStep] at hstep
    split at hstep
    · rename_i query hr
      split at hstep
      · rename_i entries hcache
        cases hstep
        exact h.hit hr hcache
      · cases hstep
        refine h.setRead hr .missed fun entries hloaded => ?_
        cases hloaded
    · cases hstep
  | readRows =>
    simp only [ControlSteps, controlStep] at hstep
    split at hstep
    · rename_i query hr
      cases hstep
      refine h.setRead hr (.loaded s.table) fun entries hloaded => ?_
      cases hloaded
      rfl
    · cases hstep
  | cacheSet call =>
    simp only [ControlSteps, controlStep] at hstep
    split at hstep
    · rename_i query entries hr
      cases hstep
      have hcurrent : LoadPhase.loaded entries = .loaded s.table := hfills _ hr
      cases hcurrent
      exact h.fill.answer hr (h.loaded call query s.table hr)
    · cases hstep
  | request _ scope paused actor reason =>
    obtain ⟨hfresh, ⟨⟩⟩ := Option.ite_none_right_eq_some.1 hstep
    exact h.request hfresh scope paused actor reason
  | transaction _ now =>
    simp only [ControlSteps, controlStep] at hstep
    split at hstep
    · rename_i w hw
      split at hstep
      · cases hstep
      split at hstep
      · rename_i stored _
        cases hstep
        exact h.commitPause hw stored now
      · rename_i state _
        cases hstep
        exact h.ended rfl (by simp) (by simp) (by simp) (fun _ => id) (by simp)
    · cases hstep
  | cacheDelete =>
    simp only [ControlSteps, controlStep] at hstep
    split at hstep
    · rename_i change hw
      cases hstep
      refine h.ended rfl (by simp) (by simp) (by simp) (by simp) ?_
      rintro sc c change' hpau ⟨⟩
      exact ⟨hpau.committed _ hw rfl, rfl⟩
    · cases hstep
  | expire =>
    cases hstep
    exact h.expire

/-! ## Runs -/

/-- A call of `isPaused` that starts after a pause of the global scope or of its own one has
resolved returns `true`, unless a resume of that scope has been requested. -/
theorem resolved_pause_seen (s : ControlState)
    (hrun : RunWhere ControlSteps FillsCurrent .initial s) (scope : PauseScope) (coverageCode : Nat)
    (hgoverns : Governs scope coverageCode) (before during after : List PauseEvent) (call : Nat)
    (answer : PauseAnswer) (hhistory : s.history = before ++ .asked call (.isPaused coverageCode) ::
      (during ++ .answered call answer :: after))
    (hstands : PauseStands scope before) (hno : NoResume scope during) :
    answer = .paused (.ok true) := by
  have h : Coherent s := RunWhere.invariant Coherent hrun Coherent.initial
    fun _ _ _ ha => ha.step
  have hsplit : s.history = (before ++ .asked call (.isPaused coverageCode) :: during) ++
      .answered call answer :: after := by
    simp [hhistory]
  exact h.answers _ _ after hsplit call answer rfl scope coverageCode hgoverns before _ during rfl
    ⟨rfl, hstands⟩ hno

/-! ### A pause of every coverage type -/

/-- What the pause call below resolves with. -/
def sampleChange : PauseChange := ⟨.global, true, false, "ops", "incident", 5⟩

theorem sampleChange_stands (pre post : List PauseEvent) (hpre : NoResumeRunning .global pre)
    (hpost : NoResume .global post) :
    PauseStands .global (pre ++ .requested 2 .global true :: .resolved 2 sampleChange :: post) :=
  ⟨pre, 2, [], sampleChange, post, rfl, hpre, by simp [NoResume], hpost⟩

/-- A call that misses the cache after the pause, and one that hits what the first has stored. -/
theorem resolved_pause_seen_on_hit :
    ∃ s, RunWhere ControlSteps FillsCurrent .initial s ∧
      ∃ answer, s.history = [requested 2 .global true, .resolved 2 sampleChange,
        .asked 3 (.isPaused 0), .answered 3 (.paused (.ok true)), .asked 4 (.isPaused 1),
        .answered 4 answer] ∧ answer = .paused (.ok true) := by
  have hrun : RunWhere ControlSteps FillsCurrent .initial _ := .performed
    [.request 2 .global true "ops" "incident", .transaction 2 5, .cacheDelete 2,
     .ask 3 (.isPaused 0), .cacheGet 3, .readRows 3, .cacheSet 3, .ask 4 (.isPaused 1),
     .cacheGet 4] (by decide +kernel)
  refine ⟨_, hrun, .paused (.ok true), by decide +kernel, ?_⟩
  exact resolved_pause_seen _ hrun .global 1 (.inl rfl)
    [.requested 2 .global true, .resolved 2 sampleChange, .asked 3 (.isPaused 0),
      .answered 3 (.paused (.ok true))] [] [] 4 _ (by decide +kernel)
    (sampleChange_stands [] _ (by simp [NoResumeRunning]) (by simp [NoResume, resumes]))
    (by simp [NoResume])

/-- A call reads the empty table before the pause and stores it after the pause has resolved: the
next call hits it and returns `false`. -/
theorem pause_hidden_by_late_fill :
    ¬∀ s, RunWhere ControlSteps (fun _ _ => True) .initial s → ∀ scope coverageCode,
      Governs scope coverageCode → ∀ before during after call answer,
        s.history = before ++ .asked call (.isPaused coverageCode) ::
          (during ++ .answered call answer :: after) →
        PauseStands scope before → NoResume scope during → answer = .paused (.ok true) := by
  intro hall
  have hpaused := hall _ (.performed
    [.ask 1 (.isPaused 0), .cacheGet 1, .readRows 1, .request 2 .global true "ops" "incident",
     .transaction 2 5, .cacheDelete 2, .cacheSet 1, .ask 3 (.isPaused 0), .cacheGet 3]
    (by decide +kernel)) .global 0 (.inl rfl)
    [.asked 1 (.isPaused 0), .requested 2 .global true, .resolved 2 sampleChange,
      .answered 1 (.paused (.ok false))] [] [] 3 (.paused (.ok false)) (by decide +kernel)
    (sampleChange_stands [.asked 1 (.isPaused 0)] _ (by simp [NoResumeRunning])
      (by simp [NoResume, resumes]))
    (by simp [NoResume])
  exact absurd hpaused (by decide)

end Refract.Oracle.Control
