import Mathlib.Data.List.Basic

/-!
# Positions in an ordered log

A log whose entries carry stamps that do not decrease can be cut at a stamp or behind an entry, and
what lies before the cut is a prefix. A page of the log is the beginning of what lies behind a cut,
up to a stamp; a page that is not full reaches that stamp (`cut_append_page`).
-/

namespace Refract.Lib

open List

universe u

variable {ε : Type u} {stamp : ε → Nat} {log : List ε}

/-- The stamps do not decrease. -/
def InStampOrder (stamp : ε → Nat) (log : List ε) : Prop :=
  log.Pairwise fun a b => stamp a ≤ stamp b

/-- Cutting at a stamp. -/
theorem filter_lt_append_filter_le (h : InStampOrder stamp log) (n : Nat) :
    (log.filter fun e => stamp e < n) ++ (log.filter fun e => n ≤ stamp e) = log := by
  induction log with
  | nil => rfl
  | cons e log ih =>
    obtain ⟨hhead, htail⟩ := pairwise_cons.1 h
    by_cases hlt : stamp e < n
    · have hnot : ¬n ≤ stamp e := Nat.not_le.2 hlt
      simp only [filter_cons, hlt, hnot, decide_true, decide_false, if_true, if_false,
        cons_append, Bool.false_eq_true]
      rw [ih htail]
    -- Nothing behind the first late entry is early.
    have hle : n ≤ stamp e := Nat.not_lt.1 hlt
    have hnone : log.filter (fun e => stamp e < n) = [] := by
      refine filter_eq_nil_iff.2 fun a ha => ?_
      have hae := hhead a ha
      simp only [decide_eq_true_eq]
      omega
    have hall : log.filter (fun e => n ≤ stamp e) = log := by
      refine filter_eq_self.2 fun a ha => ?_
      exact decide_eq_true (Nat.le_trans hle (hhead a ha))
    simp [hlt, hle, hnone, hall]

/-- The entries up to the first one with a property, that one included. -/
def through (p : ε → Bool) (log : List ε) : List ε :=
  (log.takeWhile fun e => !p e) ++ (log.dropWhile fun e => !p e).take 1

/-- The entries behind the first one with a property. -/
def past (p : ε → Bool) (log : List ε) : List ε := (log.dropWhile fun e => !p e).drop 1

theorem through_append_past (p : ε → Bool) (log : List ε) : through p log ++ past p log = log := by
  rw [through, past, append_assoc, take_append_drop, takeWhile_append_dropWhile]

/-- Cutting behind an entry that is the only one with the property so far. -/
theorem through_eq {p : ε → Bool} {pre post : List ε} {e : ε} (hpre : ∀ x ∈ pre, p x = false)
    (he : p e = true) : through p (pre ++ e :: post) = pre ++ [e] := by
  have htake : (pre ++ e :: post).takeWhile (fun x => !p x) = pre := by
    rw [takeWhile_append_of_pos (by simpa using hpre)]
    simp [he]
  have hdrop : (pre ++ e :: post).dropWhile (fun x => !p x) = e :: post := by
    rw [dropWhile_append_of_pos (by simpa using hpre)]
    simp [he]
  rw [through, htake, hdrop, take_succ_cons, take_zero]

/-- A page of what lies behind a cut. -/
def pageOf (stamp : ε → Nat) (size latest : Nat) (rest : List ε) : List ε :=
  (rest.filter fun e => stamp e < latest + 1).take size

theorem pageOf_prefix {size latest : Nat} {rest : List ε} (h : InStampOrder stamp rest) :
    pageOf stamp size latest rest <+: rest := by
  have hcut : (rest.filter fun e => stamp e < latest + 1) <+: rest :=
    ⟨_, filter_lt_append_filter_le h (latest + 1)⟩
  exact (List.take_prefix _ _).trans hcut

/-- A page that is not full has everything behind the cut up to the latest stamp. -/
theorem cut_append_page {size latest : Nat} {before rest : List ε}
    (hbef : ∀ e ∈ before, stamp e ≤ latest)
    (hshort : (pageOf stamp size latest rest).length < size) :
    before ++ pageOf stamp size latest rest =
      (before ++ rest).filter fun e => stamp e < latest + 1 := by
  have hpage : pageOf stamp size latest rest = rest.filter fun e => stamp e < latest + 1 := by
    refine take_of_length_le ?_
    simp only [pageOf, length_take] at hshort
    omega
  have hall : before.filter (fun e => stamp e < latest + 1) = before := by
    refine filter_eq_self.2 fun e he => ?_
    exact decide_eq_true (Nat.lt_succ_of_le (hbef e he))
  rw [filter_append, hall, hpage]

end Refract.Lib
