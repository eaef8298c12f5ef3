import Refract.Consensus.ConsensusEngine
import Refract.Lib.Sorting

/-!
# What mirror penalties leave independent

`applyPenalties` is one pass over the penalised pairs that shadows the lower ranked source of each.
Which source of a pair ranks lower is a matter of weights and ids alone (`Outranks`), so a source
ends up shadowed exactly when some pair ranks it lower (`independent_applyPenalties`), in whatever
order the pairs come and whether or not its partner is shadowed as well.

Two consequences: no penalised pair of eligible sources stays independent
(`not_both_independent`), and the highest ranked eligible source always does
(`exists_independent`).
-/

namespace Refract.Consensus

open Lib List

/-! ## Ranks -/

/-- What the pass reads of an entry and never changes. -/
structure Standing where
  sourceId : String
  eligible : Bool
  weight : ℚ

def SourceEligibility.standing (e : SourceEligibility) : Standing :=
  ⟨e.sourceId, e.eligible, e.weight⟩

/-- The heavier source ranks higher; of equal weights the earlier id. -/
def Outranks (a b : Standing) : Prop :=
  b.weight < a.weight ∨ a.weight = b.weight ∧ compareUnits a.sourceId b.sourceId = .lt

instance (a b : Standing) : Decidable (Outranks a b) := inferInstanceAs (Decidable (_ ∨ _))

theorem Outranks.trans {a b c : Standing} (hab : Outranks a b) (hbc : Outranks b c) :
    Outranks a c := by
  rcases hab with hab | ⟨hab, hidab⟩ <;> rcases hbc with hbc | ⟨hbc, hidbc⟩
  · exact .inl (hbc.trans hab)
  · exact .inl (hbc ▸ hab)
  · exact .inl (hab ▸ hbc)
  · exact .inr ⟨hab.trans hbc, Std.TransCmp.lt_trans hidab hidbc⟩

theorem Outranks.irrefl (a : Standing) : ¬Outranks a a := by
  rintro (h | ⟨-, h⟩)
  · exact lt_irrefl _ h
  · have hself : compareUnits a.sourceId a.sourceId = .eq := Std.ReflCmp.compare_self
    rw [hself] at h
    cases h

theorem outranks_total {a b : Standing} (hne : a.sourceId ≠ b.sourceId) (h : ¬Outranks a b) :
    Outranks b a := by
  rcases lt_trichotomy a.weight b.weight with hlt | heq | hgt
  · exact .inl hlt
  · refine .inr ⟨heq.symm, ?_⟩
    cases hcmp : compareUnits a.sourceId b.sourceId with
    | lt => exact absurd (.inr ⟨heq, hcmp⟩) h
    | eq => exact absurd (Std.LawfulEqCmp.eq_of_compare hcmp) hne
    | gt => exact Std.OrientedCmp.gt_iff_lt.1 hcmp
  · exact absurd (.inl hgt) h

/-- Some source of a list is outranked by none. -/
theorem exists_highest {l : List Standing} (h : l ≠ []) : ∃ a ∈ l, ∀ b ∈ l, ¬Outranks b a := by
  induction l with
  | nil => exact absurd rfl h
  | cons a rest ih =>
    by_cases hrest : rest = []
    · subst hrest
      exact ⟨a, mem_singleton_self a, by simpa using Outranks.irrefl a⟩
    obtain ⟨m, hm, hhighest⟩ := ih hrest
    by_cases ham : Outranks a m
    · refine ⟨a, mem_cons_self, ?_⟩
      intro b hb hba
      rcases mem_cons.1 hb with rfl | hb
      · exact Outranks.irrefl _ hba
      · exact hhighest b hb (hba.trans ham)
    · refine ⟨m, mem_cons_of_mem _ hm, ?_⟩
      intro b hb hbm
      rcases mem_cons.1 hb with rfl | hb
      · exact ham hbm
      · exact hhighest b hb hbm

/-- A penalty ranks the source `id` lower: both sources of the pair are eligible, and `id` is the
one that does not outrank the other. -/
def Shadows (standings : List Standing) (p : PairPenalty) (id : String) : Prop :=
  ∃ a ∈ standings, ∃ b ∈ standings, a.eligible = true ∧ b.eligible = true ∧
    a.sourceId = p.sourceA ∧ b.sourceId = p.sourceB ∧
    (Outranks a b ∧ b.sourceId = id ∨ ¬Outranks a b ∧ a.sourceId = id)

/-! ## The pass on entries with distinct ids -/

variable {e e' : SourceEligibility} {p : PairPenalty} {l : List SourceEligibility} {id : String}

theorem entryById_eq_some (h : entryById id l = some e) : e ∈ l ∧ e.sourceId = id := by
  have hmem := mem_of_find?_eq_some h
  have hid := find?_some h
  exact ⟨mem_reverse.1 hmem, of_decide_eq_true hid⟩

theorem entryById_eq_none (h : entryById id l = none) : ∀ e ∈ l, e.sourceId ≠ id := by
  intro e he hid
  have hnone := find?_eq_none.1 h e (mem_reverse.2 he)
  exact hnone (decide_eq_true hid)

variable {f : SourceEligibility → SourceEligibility}

theorem updateFirst_eq_map (hnodup : (l.map (·.sourceId)).Nodup) :
    updateFirst id f l = l.map fun e => if e.sourceId = id then f e else e := by
  induction l with
  | nil => rfl
  | cons _ rest ih =>
    rw [map_cons, nodup_cons] at hnodup
    simp only [updateFirst, map_cons]
    split
    · rename_i hid
      -- No later entry has the id.
      have hrest : rest.map (fun e' => if e'.sourceId = id then f e' else e') = rest := by
        conv_rhs => rw [← map_id rest]
        refine map_congr_left ?_
        intro e' he'
        refine if_neg ?_
        intro hid'
        exact hnodup.1 (mem_map.2 ⟨e', he', hid'.trans hid.symm⟩)
      rw [hrest]
    · rw [ih hnodup.2]

theorem updateById_eq_map (hnodup : (l.map (·.sourceId)).Nodup) :
    updateById id f l = l.map fun e => if e.sourceId = id then f e else e := by
  have hreverse : (l.reverse.map (·.sourceId)).Nodup := by
    rw [map_reverse, nodup_reverse]
    exact hnodup
  rw [updateById, updateFirst_eq_map hreverse, map_reverse, reverse_reverse]

variable {a b : SourceEligibility}

theorem keepAndShadow_eq (a b : SourceEligibility) :
    keepAndShadow a b = if Outranks a.standing b.standing then (a, b) else (b, a) := rfl

theorem keepAndShadow_snd (a b : SourceEligibility) :
    (keepAndShadow a b).2 = a ∨ (keepAndShadow a b).2 = b := by
  rw [keepAndShadow_eq]
  split
  · exact .inr rfl
  · exact .inl rfl

/-- A penalty shadows the lower ranked of the two sources it finds. -/
theorem shadows_iff (hnodup : (l.map (·.sourceId)).Nodup) (ha : entryById p.sourceA l = some a)
    (hb : entryById p.sourceB l = some b) :
    Shadows (l.map (·.standing)) p id ↔
      a.eligible = true ∧ b.eligible = true ∧ (keepAndShadow a b).2.sourceId = id := by
  obtain ⟨haMem, haId⟩ := entryById_eq_some ha
  obtain ⟨hbMem, hbId⟩ := entryById_eq_some hb
  constructor
  · rintro ⟨sa, hsa, sb, hsb, haEligible, hbEligible, hsaId, hsbId, hrank⟩
    obtain ⟨a', ha', rfl⟩ := mem_map.1 hsa
    obtain ⟨b', hb', rfl⟩ := mem_map.1 hsb
    obtain rfl := inj_on_of_nodup_map hnodup ha' haMem (hsaId.trans haId.symm)
    obtain rfl := inj_on_of_nodup_map hnodup hb' hbMem (hsbId.trans hbId.symm)
    refine ⟨haEligible, hbEligible, ?_⟩
    rcases hrank with ⟨hrank, hid⟩ | ⟨hrank, hid⟩
    · rw [keepAndShadow_eq, if_pos hrank]
      exact hid
    · rw [keepAndShadow_eq, if_neg hrank]
      exact hid
  · rintro ⟨haEligible, hbEligible, hid⟩
    refine ⟨a.standing, mem_map_of_mem haMem, b.standing, mem_map_of_mem hbMem,
      haEligible, hbEligible, haId, hbId, ?_⟩
    by_cases hrank : Outranks a.standing b.standing
    · rw [keepAndShadow_eq, if_pos hrank] at hid
      exact .inl ⟨hrank, hid⟩
    · rw [keepAndShadow_eq, if_neg hrank] at hid
      exact .inr ⟨hrank, hid⟩

/-- A penalty that names an unknown source shadows nobody. -/
theorem not_shadows_of_unknown (h : entryById p.sourceA l = none ∨ entryById p.sourceB l = none)
    (id : String) : ¬Shadows (l.map (·.standing)) p id := by
  rintro ⟨sa, hsa, sb, hsb, -, -, hsaId, hsbId, -⟩
  obtain ⟨a, ha, rfl⟩ := mem_map.1 hsa
  obtain ⟨b, hb, rfl⟩ := mem_map.1 hsb
  rcases h with h | h
  · exact entryById_eq_none h a ha hsaId
  · exact entryById_eq_none h b hb hsbId

/-- One penalty: an entry stays independent unless the penalty ranks it lower. -/
theorem mem_applyPenalty (hnodup : (l.map (·.sourceId)).Nodup) (he' : e' ∈ applyPenalty l p) :
    ∃ e ∈ l, e'.standing = e.standing ∧ (e'.independent = true ↔
        e.independent = true ∧ ¬Shadows (l.map (·.standing)) p e.sourceId) := by
  -- An entry that is left as it is.
  have hsame : ∀ e ∈ l, (Shadows (l.map (·.standing)) p e.sourceId → e.independent = false) →
      ∃ e₀ ∈ l, e.standing = e₀.standing ∧ (e.independent = true ↔
          e₀.independent = true ∧ ¬Shadows (l.map (·.standing)) p e₀.sourceId) := by
    intro e he hshadow
    refine ⟨e, he, rfl, fun h => ⟨h, fun hs => ?_⟩, fun h => h.1⟩
    rw [hshadow hs] at h
    cases h
  simp only [applyPenalty] at he'
  split at he'
  · rename_i a b ha hb
    split at he'
    · rename_i helig
      split at he'
      · rw [updateById_eq_map hnodup] at he'
        obtain ⟨e, he, rfl⟩ := mem_map.1 he'
        split
        · rename_i hid
          refine ⟨e, he, rfl, ?_⟩
          have hshadow := (shadows_iff hnodup ha hb).2 ⟨helig.1, helig.2, hid.symm⟩
          simp [hshadow]
        · rename_i hid
          refine hsame e he fun hshadow => absurd ?_ hid
          exact ((shadows_iff hnodup ha hb).1 hshadow).2.2.symm
      · rename_i hind
        refine hsame e' he' ?_
        intro hshadow
        -- The entry is the shadowed one, which was not independent before.
        have hid := ((shadows_iff hnodup ha hb).1 hshadow).2.2
        have hmem : (keepAndShadow a b).2 ∈ l := by
          rcases keepAndShadow_snd a b with h | h
          · rw [h]
            exact (entryById_eq_some ha).1
          · rw [h]
            exact (entryById_eq_some hb).1
        rw [← inj_on_of_nodup_map hnodup hmem he' hid]
        simpa using hind
    · rename_i helig
      refine hsame e' he' fun hshadow => absurd ?_ helig
      have h := (shadows_iff hnodup ha hb).1 hshadow
      exact ⟨h.1, h.2.1⟩
  · rename_i hunknown
    refine hsame e' he' fun hshadow => absurd hshadow (not_shadows_of_unknown ?_ _)
    cases ha : entryById p.sourceA l with
    | none => exact .inl rfl
    | some a =>
      cases hb : entryById p.sourceB l with
      | none => exact .inr rfl
      | some b => exact absurd hb (hunknown a b ha)

theorem standing_applyPenalty (p : PairPenalty) :
    (applyPenalty l p).map (·.standing) = l.map (·.standing) :=
  map_applyPenalty (fun _ _ _ _ => rfl) l p

theorem sourceId_applyPenalty (p : PairPenalty) :
    (applyPenalty l p).map (·.sourceId) = l.map (·.sourceId) :=
  map_applyPenalty (fun _ _ _ _ => rfl) l p

/-- A whole pass: an entry stays independent unless some penalty ranks it lower. -/
theorem mem_foldl_applyPenalty (hnodup : (l.map (·.sourceId)).Nodup) {ordered : List PairPenalty}
    (he' : e' ∈ ordered.foldl applyPenalty l) :
    ∃ e ∈ l, e'.standing = e.standing ∧ (e'.independent = true ↔
        e.independent = true ∧ ∀ p ∈ ordered, ¬Shadows (l.map (·.standing)) p e.sourceId) := by
  induction ordered generalizing l with
  | nil => exact ⟨e', he', rfl, by simp⟩
  | cons _ _ ih =>
    obtain ⟨e₁, he₁, hstanding₁, hiff₁⟩ := ih (by rw [sourceId_applyPenalty]; exact hnodup) he'
    obtain ⟨e, he, hstand, hiff⟩ := mem_applyPenalty hnodup he₁
    refine ⟨e, he, hstanding₁.trans hstand, ?_⟩
    have hid : e₁.sourceId = e.sourceId := congrArg Standing.sourceId hstand
    rw [hiff₁, hiff, standing_applyPenalty, hid, forall_mem_cons, and_assoc]

/-! ## Independent sources -/

variable {host : Host} {penalties : List PairPenalty}

section

variable (hnodup : (l.map (·.sourceId)).Nodup) (hall : ∀ e ∈ l, e.independent = true)

include hnodup hall

/-- A source ends up shadowed exactly when some penalty ranks it lower. -/
theorem independent_applyPenalties (he : e ∈ applyPenalties host l penalties) :
    e.standing ∈ l.map (·.standing) ∧ (e.independent = true ↔
        ∀ p ∈ penalties, ¬Shadows (l.map (·.standing)) p e.sourceId) := by
  obtain ⟨e₀, he₀, hstand, hiff⟩ := mem_foldl_applyPenalty hnodup he
  have hid : e.sourceId = e₀.sourceId := congrArg Standing.sourceId hstand
  refine ⟨mem_map.2 ⟨e₀, he₀, hstand.symm⟩, ?_⟩
  rw [hiff, hid]
  simp only [hall e₀ he₀, true_and, mem_sortBy]

/-- No penalised pair of eligible sources stays independent. -/
theorem not_both_independent (he : e ∈ applyPenalties host l penalties)
    (he' : e' ∈ applyPenalties host l penalties) (helig : e.eligible = true)
    (helig' : e'.eligible = true) (hind : e.independent = true) (hind' : e'.independent = true)
    (hp : p ∈ penalties) :
    ¬(p.sourceA = e.sourceId ∧ p.sourceB = e'.sourceId) := by
  rintro ⟨hA, hB⟩
  obtain ⟨hmem, hiff⟩ := independent_applyPenalties hnodup hall he
  obtain ⟨hmem', hiff'⟩ := independent_applyPenalties hnodup hall he'
  by_cases hrank : Outranks e.standing e'.standing
  · exact hiff'.1 hind' p hp ⟨_, hmem, _, hmem', helig, helig', hA.symm, hB.symm,
      .inl ⟨hrank, rfl⟩⟩
  · exact hiff.1 hind p hp ⟨_, hmem, _, hmem', helig, helig', hA.symm, hB.symm, .inr ⟨hrank, rfl⟩⟩

/-- The highest ranked eligible source stays independent. -/
theorem exists_independent (hpairs : ∀ p ∈ penalties, p.sourceA ≠ p.sourceB)
    (hsome : ∃ e ∈ applyPenalties host l penalties, e.eligible = true) :
    ∃ e ∈ applyPenalties host l penalties, e.eligible = true ∧ e.independent = true := by
  have hstandings : (applyPenalties host l penalties).map (·.standing) = l.map (·.standing) :=
    map_applyPenalties (fun _ _ _ _ => rfl)
  obtain ⟨e₀, he₀, heligible₀⟩ := hsome
  have hne : (((applyPenalties host l penalties).map (·.standing)).filter (·.eligible)) ≠ [] :=
    ne_nil_of_mem (mem_filter.2 ⟨mem_map_of_mem he₀, heligible₀⟩)
  obtain ⟨a, ha, hhighest⟩ := exists_highest hne
  obtain ⟨haMem, haEligible⟩ := mem_filter.1 ha
  obtain ⟨e, he, rfl⟩ := mem_map.1 haMem
  refine ⟨e, he, haEligible, (independent_applyPenalties hnodup hall he).2.2 ?_⟩
  rintro p hp ⟨x, hx, y, hy, hxEligible, hyEligible, hxId, hyId, hrank⟩
  rw [← hstandings] at hx hy
  have hsame : ∀ z ∈ (applyPenalties host l penalties).map (·.standing),
      z.sourceId = e.sourceId → z = e.standing := by
    intro z hz hid
    obtain ⟨e', he', rfl⟩ := mem_map.1 hz
    have hnodup' : ((applyPenalties host l penalties).map (·.sourceId)).Nodup := by
      rw [map_applyPenalties (fun _ _ _ _ => rfl)]
      exact hnodup
    rw [inj_on_of_nodup_map hnodup' he' he hid]
  -- The other source of the pair outranks the highest, which none does.
  rcases hrank with ⟨hrank, hid⟩ | ⟨hrank, hid⟩
  · rw [hsame y hy hid] at hrank
    exact hhighest x (mem_filter.2 ⟨hx, hxEligible⟩) hrank
  have hxe := hsame x hx hid
  have hids : x.sourceId ≠ y.sourceId := by
    rw [hxId, hyId]
    exact hpairs p hp
  have hrank' := outranks_total hids hrank
  rw [hxe] at hrank'
  exact hhighest y (mem_filter.2 ⟨hy, hyEligible⟩) hrank'

end

end Refract.Consensus
