import Refract.Lib.Ecma

/-!
# Database tables

A table is the list of its rows. `updateWhere` is an `UPDATE` with a condition, `sumWhere` a `SUM`
with one; `findByKey` and `upsert` read and write the row with a key; `UniqueKey` says that a key
determines its row, as a primary key or a unique index does.
A transaction gives a new state of the database or is rejected, which rolls it back (`commit`).
-/

namespace Refract.Lib

open List

universe u v w

variable {ρ : Type u} {κ : Type v} {p : ρ → Bool} {f : ρ → ρ} {rows : List ρ}

/-! ## Transactions -/

/-- Why the database refuses a statement. -/
inductive SqlState where
  | uniqueViolation
  | checkViolation
  | foreignKeyViolation
  | invalidValue
  deriving DecidableEq, Repr

/-- Why a service refuses a request, with the message its caller sees. -/
inductive Rejection where
  | badRequest (message : String)
  | notFound (message : String)
  | conflict (message : String)
  | failed (message : String)
  | database (state : SqlState)

/-- A constraint that the result of a statement has to meet. -/
def enforce (constraint : Prop) [Decidable constraint] (state : SqlState) : Except SqlState Unit :=
  if constraint then .ok () else .error state

theorem enforce_eq_ok {constraint : Prop} [Decidable constraint] {state : SqlState} :
    enforce constraint state = .ok () ↔ constraint := by
  rw [enforce]
  split
  · rename_i h
    exact iff_of_true rfl h
  · rename_i h
    exact iff_of_false (fun hok => nomatch hok) h

/-- The service turns a violated index into a conflict and passes other errors on. -/
def onViolation {α : Type u} (message : String) : Except SqlState α → Except Rejection α
  | .ok a => .ok a
  | .error .uniqueViolation => .error (.conflict message)
  | .error state => .error (.database state)

theorem onViolation_eq_ok {α : Type u} {message : String} {x : Except SqlState α} {a : α}
    (h : onViolation message x = .ok a) : x = .ok a := by
  simp only [onViolation] at h
  split at h
  · exact congrArg Except.ok (Except.ok.inj h)
  · cases h
  · cases h

/-- What a column of type `VARCHAR(n)` stores: blanks beyond its length are cut off. -/
def varchar (n : Nat) (text : String) : Except SqlState String :=
  if text.toList.length ≤ n then .ok text
  else if (text.toList.drop n).all (· = ' ') then .ok (String.ofList (text.toList.take n))
  else .error .invalidValue

/-- What a column has stored, it stores again unchanged. -/
theorem varchar_idem {n : Nat} {text stored : String} (h : varchar n text = .ok stored) :
    varchar n stored = .ok stored := by
  simp only [varchar] at h
  split at h
  · rename_i hlen
    cases h
    rw [varchar, if_pos hlen]
  split at h
  · cases h
    rw [varchar, if_pos]
    rw [String.toList_ofList, length_take]
    exact Nat.min_le_left _ _
  · cases h

/-- What the database reads for a `BIGINT`: an integer of 64 bits. -/
def bigint : JsNumber → Except SqlState Int
  | .finite q =>
    if q.den = 1 ∧ -2 ^ 63 ≤ q.num ∧ q.num < 2 ^ 63 then .ok q.num else .error .invalidValue
  | _ => .error .invalidValue

theorem bigint_eq_ok {n : JsNumber} {i : Int} (h : bigint n = .ok i) : n = .finite i := by
  cases n with
  | finite q =>
    simp only [bigint] at h
    split at h
    · rename_i hint
      cases h
      rw [(Rat.den_eq_one_iff q).1 hint.1]
    · cases h
  | nan | posInf | negInf => cases h

/-- The state after a transaction: a rejected one is rolled back. -/
def commit {S : Type u} {ε : Type v} {α : Type w} (before : S) : Except ε (S × α) → S
  | .ok (after, _) => after
  | .error _ => before

/-! ## Updates -/

/-- `UPDATE … SET f WHERE p`. -/
def updateWhere (p : ρ → Bool) (f : ρ → ρ) (rows : List ρ) : List ρ :=
  rows.map fun r => if p r then f r else r

theorem mem_updateWhere {r' : ρ} :
    r' ∈ updateWhere p f rows ↔ ∃ r ∈ rows, (p r = true ∧ r' = f r) ∨ (p r = false ∧ r' = r) := by
  rw [updateWhere, mem_map]
  constructor
  · rintro ⟨r, hr, rfl⟩
    refine ⟨r, hr, ?_⟩
    cases p r with
    | true => exact .inl ⟨rfl, rfl⟩
    | false => exact .inr ⟨rfl, rfl⟩
  · rintro ⟨r, hr, ⟨hp, rfl⟩ | ⟨hp, rfl⟩⟩
    · exact ⟨r, hr, by rw [hp]; rfl⟩
    · exact ⟨r', hr, by rw [hp]; rfl⟩

theorem updateWhere_of_none (h : ∀ r ∈ rows, p r = false) : updateWhere p f rows = rows := by
  rw [updateWhere, map_congr_left fun r hr => by rw [h r hr]]
  exact map_id rows

/-- What an update of a row keeps, the update of the table keeps. -/
theorem forall_mem_updateWhere {Q : ρ → Prop} (h : ∀ r ∈ rows, Q r)
    (hf : ∀ r ∈ rows, p r = true → Q r → Q (f r)) : ∀ r ∈ updateWhere p f rows, Q r := by
  intro r' hr'
  obtain ⟨r, hr, ⟨hp, rfl⟩ | ⟨-, rfl⟩⟩ := mem_updateWhere.1 hr'
  · exact hf r hr hp (h r hr)
  · exact h r' hr

theorem exists_mem_updateWhere {Q : ρ → Prop} (hf : ∀ r ∈ rows, p r = true → (Q (f r) ↔ Q r)) :
    (∃ r ∈ updateWhere p f rows, Q r) ↔ ∃ r ∈ rows, Q r := by
  simp only [updateWhere, mem_map, exists_exists_and_eq_and]
  refine exists_congr fun r => and_congr_right fun hr => ?_
  split
  · rename_i hp
    exact hf r hr hp
  · rfl

/-- An update leaves every column alone that it does not set. -/
theorem map_updateWhere {β : Type w} {g : ρ → β} (hg : ∀ r ∈ rows, p r = true → g (f r) = g r) :
    (updateWhere p f rows).map g = rows.map g := by
  rw [updateWhere, map_map]
  refine map_congr_left ?_
  intro r hr
  simp only [Function.comp_apply]
  split
  · rename_i hp
    exact hg r hr hp
  · rfl

/-! ## Rows by their key -/

section ByKey

variable [DecidableEq κ]

/-- `SELECT … WHERE key = k`, for a key of the table. -/
def findByKey (key : ρ → κ) (k : κ) (rows : List ρ) : Option ρ :=
  rows.find? fun r => decide (key r = k)

/-- `INSERT … ON CONFLICT (key) DO UPDATE SET set`. -/
def upsert (key : ρ → κ) (row : ρ) (set : ρ → ρ) (rows : List ρ) : List ρ :=
  if rows.any fun r => decide (key r = key row) then
    updateWhere (fun r => decide (key r = key row)) set rows
  else rows ++ [row]

variable {key : ρ → κ}

theorem findByKey_some {k : κ} {r : ρ} (h : findByKey key k rows = some r) :
    r ∈ rows ∧ key r = k := by
  have hkey := find?_some h
  exact ⟨mem_of_find?_eq_some h, of_decide_eq_true hkey⟩

/-- An update that keeps the keys is applied to the row that is found. -/
theorem findByKey_updateWhere (hkey : ∀ r, key (f r) = key r) (k : κ) :
    findByKey key k (updateWhere p f rows) =
      (findByKey key k rows).map fun r => if p r then f r else r := by
  rw [findByKey, updateWhere, find?_map, findByKey]
  congr 2
  funext r
  simp only [Function.comp_apply]
  split
  · rw [hkey]
  · rfl

/-- After an upsert the row with its key is the updated or the inserted one, and the others are as
before. -/
theorem findByKey_upsert {row : ρ} {set : ρ → ρ} (hkey : ∀ r, key (set r) = key r) (k : κ) :
    findByKey key k (upsert key row set rows) =
      if k = key row then some (((findByKey key k rows).map set).getD row)
      else findByKey key k rows := by
  rw [upsert]
  split
  · rename_i hany
    rw [findByKey_updateWhere hkey]
    split
    · rename_i hk
      subst hk
      obtain ⟨r, hr⟩ := Option.isSome_iff_exists.1 (find?_isSome.2 (any_eq_true.1 hany))
      rw [findByKey, hr]
      simp only [Option.map_some, Option.getD_some, find?_some hr, if_true]
    · rename_i hk
      cases hfind : findByKey key k rows with
      | none => rfl
      | some r =>
        have hr : ¬key r = key row := (findByKey_some hfind).2 ▸ hk
        simp only [Option.map_some, hr, decide_false, Bool.false_eq_true, if_false]
  · rename_i hany
    have hnone : findByKey key (key row) rows = none := by
      rw [findByKey, find?_eq_none]
      intro r hr hrow
      exact hany (any_eq_true.2 ⟨r, hr, hrow⟩)
    rw [findByKey, find?_append]
    split
    · rename_i hk
      subst hk
      rw [findByKey] at hnone
      simp only [findByKey, hnone, find?_singleton, decide_true, if_true, Option.none_or,
        Option.map_none, Option.getD_none]
    · rename_i hk
      rw [find?_singleton, if_neg (by simpa using fun h => hk h.symm), Option.or_none, findByKey]

end ByKey

/-! ## Sums -/

section Sums

variable {K : Type w} [AddCommMonoid K]

/-- `SELECT COALESCE(SUM(g), 0) WHERE p`. -/
def sumWhere (p : ρ → Bool) (g : ρ → K) (rows : List ρ) : K := ((rows.filter p).map g).sum

/-- A sum over the rows that qualify is one over all rows with zeros. -/
theorem sumWhere_eq {g : ρ → K} :
    sumWhere p g rows = (rows.map fun r => if p r then g r else 0).sum := by
  induction rows with
  | nil => rfl
  | cons _ _ ih =>
    rw [sumWhere] at ih ⊢
    rw [filter_cons, map_cons, sum_cons, ← ih]
    split
    · rw [map_cons, sum_cons]
    · rw [zero_add]

theorem sumWhere_append (p : ρ → Bool) (g : ρ → K) (rows added : List ρ) :
    sumWhere p g (rows ++ added) = sumWhere p g rows + sumWhere p g added := by
  rw [sumWhere, filter_append, map_append, sum_append]
  rfl

/-- Two sums over a table and its update, compared row by row. -/
theorem sumWhere_congr {q : ρ → Bool} {g h : ρ → K} {t : ρ → ρ}
    (hrow : ∀ r ∈ rows, (if q (t r) then h (t r) else 0) = if p r then g r else 0) :
    sumWhere q h (rows.map t) = sumWhere p g rows := by
  rw [sumWhere_eq, sumWhere_eq, map_map]
  exact congrArg List.sum (map_congr_left hrow)

end Sums

/-! ## Keys -/

/-- The key determines the row. -/
def UniqueKey (key : ρ → κ) (rows : List ρ) : Prop := (rows.map key).Nodup

instance [DecidableEq κ] (key : ρ → κ) (rows : List ρ) : Decidable (UniqueKey key rows) :=
  inferInstanceAs (Decidable (List.Nodup _))

variable {key : ρ → κ}

namespace UniqueKey

variable (h : UniqueKey key rows)

include h

theorem eq {r r' : ρ} (hr : r ∈ rows) (hr' : r' ∈ rows) (hkey : key r = key r') : r = r' :=
  inj_on_of_nodup_map h hr hr' hkey

/-- Every row is found by its key. -/
theorem findByKey_eq [DecidableEq κ] {r : ρ} (hr : r ∈ rows) :
    findByKey key (key r) rows = some r := by
  cases hfound : findByKey key (key r) rows with
  | none => exact absurd (decide_eq_true rfl) (find?_eq_none.1 hfound r hr)
  | some =>
    obtain ⟨hmem, hkey⟩ := findByKey_some hfound
    rw [h.eq hmem hr hkey]

theorem sublist {rows' : List ρ} (hsub : rows'.Sublist rows) : UniqueKey key rows' :=
  List.Nodup.sublist (hsub.map key) h

/-- A selection has the key, in any order. -/
theorem of_perm_filter {rows' : List ρ}
    (hperm : rows'.Perm (rows.filter p)) : UniqueKey key rows' :=
  (hperm.map key).nodup_iff.2 (h.sublist filter_sublist)

theorem updateWhere (hkey : ∀ r ∈ rows, p r = true → key (f r) = key r) :
    UniqueKey key (updateWhere p f rows) := by
  rw [UniqueKey, map_updateWhere hkey]
  exact h

theorem insert {r : ρ} (hfresh : ∀ r' ∈ rows, key r' ≠ key r) : UniqueKey key (rows ++ [r]) := by
  rw [UniqueKey, map_append, map_singleton, nodup_append]
  refine ⟨h, nodup_singleton _, ?_⟩
  intro k hk k' hk'
  obtain ⟨r', hr', rfl⟩ := mem_map.1 hk
  rw [mem_singleton.1 hk']
  exact hfresh r' hr'

/-- What a key is computed from is a key. -/
theorem of_determines {κ' : Type w} {key' : ρ → κ'} (g : κ' → κ)
    (hkey : ∀ r ∈ rows, key r = g (key' r)) : UniqueKey key' rows := by
  refine List.Nodup.of_map g ?_
  have hmap : rows.map key = rows.map (g ∘ key') := map_congr_left hkey
  rw [map_map, ← hmap]
  exact h

/-- After the update of the row with a key, there is its new version, and the other rows. -/
theorem mem_updateWhere {row : ρ} (hrow : row ∈ rows) (hp : p row = true)
    (honly : ∀ r ∈ rows, p r = true → key r = key row) {r' : ρ} :
    r' ∈ Lib.updateWhere p f rows ↔ r' = f row ∨ (r' ∈ rows ∧ key r' ≠ key row) := by
  rw [Lib.mem_updateWhere]
  constructor
  · rintro ⟨r, hr, ⟨hpr, rfl⟩ | ⟨hpr, rfl⟩⟩
    · exact .inl (by rw [h.eq hr hrow (honly r hr hpr)])
    · refine .inr ⟨hr, ?_⟩
      intro hkey
      rw [h.eq hr hrow hkey, hp] at hpr
      cases hpr
  · rintro (rfl | ⟨hr, hne⟩)
    · exact ⟨row, hrow, .inl ⟨hp, rfl⟩⟩
    · refine ⟨r', hr, .inr ⟨?_, rfl⟩⟩
      cases hpr : p r' with
      | false => rfl
      | true => exact absurd (honly r' hr hpr) hne

end UniqueKey

/-- A partial unique index: of the rows that qualify, the key determines the row. -/
def UniqueWhere (p : ρ → Bool) (key : ρ → κ) (rows : List ρ) : Prop :=
  ∀ r ∈ rows, ∀ r' ∈ rows, p r = true → p r' = true → key r = key r' → r = r'

instance [DecidableEq ρ] [DecidableEq κ] (p : ρ → Bool) (key : ρ → κ) (rows : List ρ) :
    Decidable (UniqueWhere p key rows) :=
  inferInstanceAs (Decidable (∀ r ∈ rows, ∀ r' ∈ rows, _ → _ → _ → _))

theorem UniqueWhere.insert {row : ρ} (h : UniqueWhere p key rows)
    (hnew : p row = true → ∀ r ∈ rows, p r = true → key r ≠ key row) :
    UniqueWhere p key (rows ++ [row]) := by
  intro r hr r' hr' hp hp' heq
  rcases mem_append.1 hr with hr | hr <;> rcases mem_append.1 hr' with hr' | hr'
  · exact h r hr r' hr' hp hp' heq
  · cases mem_singleton.1 hr'
    exact absurd heq (hnew hp' r hr hp)
  · cases mem_singleton.1 hr
    exact absurd heq.symm (hnew hp r' hr' hp')
  · rw [mem_singleton.1 hr, mem_singleton.1 hr']

end Refract.Lib
