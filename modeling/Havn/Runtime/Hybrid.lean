import Havn.Lib.Keyed
import Mathlib.Algebra.Order.Field.Basic
import Mathlib.Tactic.Linarith

/-!
# Scores of the hybrid search

`normalise_and_combine` of the hybrid search over exact rationals.  A text hit's rank is negative,
the lower the better; its raw score `1 / (1 + rank)` has a pole at `-1`.
-/

namespace Havn.Runtime.Hybrid

open Lib

structure HybridParams where
  vecWeight : ℚ
  ftsWeight : ℚ

structure FtsHit where
  id : String
  rank : ℚ

def normalise (raws : List ℚ) (raw : ℚ) : ℚ :=
  let min := raws.min?.getD 0
  let max := raws.max?.getD 0
  (raw - min) / Max.max (max - min) (1 / 10 ^ 9)

def FtsHit.raw (hit : FtsHit) : ℚ := 1 / (1 + hit.rank)

def ftsScore (hits : List FtsHit) (hit : FtsHit) : ℚ := normalise (hits.map FtsHit.raw) hit.raw

def entry (scores : List (String × ℚ)) (id : String) : ℚ :=
  ((scores.reverse.find? (·.1 = id)).map Prod.snd).getD 0

variable (params : HybridParams)

def vecPart (hits : List (String × ℚ)) (id : String) : ℚ :=
  params.vecWeight * entry (hits.map fun hit => (hit.1, normalise (hits.map Prod.snd) hit.2)) id

def ftsPart (hits : List FtsHit) (id : String) : ℚ :=
  params.ftsWeight * entry (hits.map fun hit => (hit.id, ftsScore hits hit)) id

def normaliseAndCombine (vecHits : List (String × ℚ)) (ftsHits : List FtsHit) (id : String) : ℚ :=
  vecPart params vecHits id + ftsPart params ftsHits id

/-! ## Ranks and scores -/

theorem normalise_le_iff {raws : List ℚ} {a b : ℚ} :
    normalise raws a ≤ normalise raws b ↔ a ≤ b := by
  have span : 0 < Max.max (raws.max?.getD 0 - raws.min?.getD 0) (1 / 10 ^ 9 : ℚ) :=
    lt_max_of_lt_right (by norm_num)
  rw [normalise, normalise, div_le_div_iff_of_pos_right span, sub_le_sub_iff_right]

theorem raw_le_iff {better worse : FtsHit} (order : better.rank < worse.rank)
    (pole : better.rank ≠ -1) (pole' : worse.rank ≠ -1) :
    worse.raw ≤ better.raw ↔ ¬ (better.rank < -1 ∧ -1 < worse.rank) := by
  have shifted : 1 + better.rank < 1 + worse.rank := add_lt_add_right order 1
  simp only [FtsHit.raw]
  rcases lt_or_gt_of_ne pole with below | above
  · have neg : 1 + better.rank < 0 := by linarith
    rcases lt_or_gt_of_ne pole' with below' | above'
    · have neg' : 1 + worse.rank < 0 := by linarith
      exact iff_of_true (one_div_le_one_div_of_neg_of_le neg' shifted.le) fun both =>
        below'.not_gt both.2
    · have pos' : 0 < 1 + worse.rank := by linarith
      exact iff_of_false ((one_div_neg.mpr neg).trans (one_div_pos.mpr pos')).not_ge
        (not_not.mpr ⟨below, above'⟩)
  · have pos : 0 < 1 + better.rank := by linarith
    exact iff_of_true (one_div_le_one_div_of_le pos shifted.le) fun both => above.not_gt both.1

theorem entry_of_mem {hits : List FtsHit} (distinct : (hits.map FtsHit.id).Nodup) {hit : FtsHit}
    (mem : hit ∈ hits) (score : FtsHit → ℚ) :
    entry (hits.map fun hit => (hit.id, score hit)) hit.id = score hit := by
  have mapped : ((hits.map fun hit => (hit.id, score hit)).reverse.map Prod.fst).Nodup := by
    rw [List.map_reverse, List.nodup_reverse, List.map_map]
    exact distinct
  have written : (hit.id, score hit) ∈ (hits.map fun hit => (hit.id, score hit)).reverse :=
    List.mem_reverse.mpr (List.mem_map_of_mem mem)
  rw [entry, find?_eq_some_of_unique mapped written (decide_eq_true rfl)
    fun _ => of_decide_eq_true, Option.map_some, Option.getD_some]

/-- **A better rank never scores less, on one side of the pole**: exactly if two ranks are not on
different sides of `-1`, the better one has at least the score of the other, and of the sum.  No hit
is on the pole itself, where the raw score is infinite. -/
theorem better_scores_iff (hits : List FtsHit) (poles : ∀ hit ∈ hits, hit.rank ≠ -1)
    (better worse : FtsHit) (mem : better ∈ hits) (mem' : worse ∈ hits)
    (order : better.rank < worse.rank) :
    (ftsScore hits worse ≤ ftsScore hits better ↔ ¬ (better.rank < -1 ∧ -1 < worse.rank)) ∧
      (¬ (better.rank < -1 ∧ -1 < worse.rank) → (hits.map FtsHit.id).Nodup →
        ∀ (params : HybridParams) (vecHits : List (String × ℚ)),
          0 ≤ params.ftsWeight →
          vecPart params vecHits worse.id ≤ vecPart params vecHits better.id →
          normaliseAndCombine params vecHits hits worse.id ≤
            normaliseAndCombine params vecHits hits better.id) := by
  have scores : ftsScore hits worse ≤ ftsScore hits better ↔
      ¬ (better.rank < -1 ∧ -1 < worse.rank) := by
    rw [ftsScore, ftsScore, normalise_le_iff,
      raw_le_iff order (poles better mem) (poles worse mem')]
  refine ⟨scores, fun oneSide distinct params vecHits weight vectors => ?_⟩
  refine add_le_add vectors ?_
  rw [ftsPart, ftsPart, entry_of_mem distinct mem, entry_of_mem distinct mem']
  exact mul_le_mul_of_nonneg_left (scores.mpr oneSide) weight

theorem weak_hits_scored :
    ftsScore [⟨"a", -1 / 2⟩, ⟨"b", -1 / 4⟩] ⟨"b", -1 / 4⟩ ≤
      ftsScore [⟨"a", -1 / 2⟩, ⟨"b", -1 / 4⟩] ⟨"a", -1 / 2⟩ :=
  (better_scores_iff _ (by norm_num) ⟨"a", -1 / 2⟩ ⟨"b", -1 / 4⟩ (by simp) (by simp)
    (by norm_num)).1.mpr (by norm_num)

theorem across_pole_reversed :
    (-2 : ℚ) < -1 / 2 ∧ ftsScore [⟨"a", -2⟩, ⟨"b", -1 / 2⟩] ⟨"a", -2⟩ = 0 ∧
      ftsScore [⟨"a", -2⟩, ⟨"b", -1 / 2⟩] ⟨"b", -1 / 2⟩ = 1 := by
  decide +kernel

end Havn.Runtime.Hybrid
