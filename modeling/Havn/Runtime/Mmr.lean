import Mathlib.Algebra.Order.Field.Basic
import Mathlib.Data.List.AList
import Mathlib.Data.List.Dedup
import Mathlib.Data.List.FinRange
import Mathlib.Data.List.Perm.Basic
import Mathlib.Tactic.Linarith

/-!
# Ranking the hits of a hybrid search

`normalise_and_combine`, `mmr_rerank` and `search` of `havn-runtime/src/embedding/hybrid.rs`.  Both
kinds of hits are scaled to a score each, an id's two scores are weighted and added, and a loop
picks ids by score and distance from what it has picked.

Scores are `f32`; of their operations nothing is assumed, so that two scores need not compare.
What the standard library leaves open is a parameter (`Std`): the order in which a `HashMap` gives
its entries, and what `sort_by` does with entries that do not compare.
-/

namespace Havn.Runtime.Mmr

open List

/-- The operations of `f32` that the ranking uses; `tiny` is `1e-9`. -/
class Score (F : Type) extends Zero F, One F, Add F, Sub F, Mul F, Div F, Min F, Max F, LT F where
  posInf : F
  negInf : F
  tiny : F
  abs : F → F
  clamp : F → F
  decLt : DecidableLT F

instance decidableLT {F : Type} [Score F] : DecidableLT F := Score.decLt

/-- The tunables.  `per_signal_pool` only caps the hits that a source gives. -/
structure HybridParams (F : Type) where
  vecWeight : F
  ftsWeight : F
  mmrLambda : F
  recallBumpTopK : ℕ := 3

/-- A text hit, with its rank as `f32`. -/
structure FtsHit (F : Type) where
  id : String
  rank : F

variable {F : Type} [Score F]

/-- No two of the values are incomparable: `<` is a strict weak order on them. -/
def Comparable (values : List F) : Prop :=
  ∀ a ∈ values, ∀ b ∈ values, a < b → ¬ b < a ∧ ∀ c ∈ values, a < c ∨ c < b

/-! ## Combining the hits -/

/-- The two scores of an id, where it has them. -/
abbrev Combined (F : Type) := AList fun _ : String => F × F

/-- **What the standard library leaves open**: the order of a `HashMap`'s entries, and that of a
sorted list, which descends as far as the scores compare. -/
structure Std (F : Type) [Score F] where
  intoIter : Combined F → List (Σ _ : String, F × F)
  sortBy : List (String × F) → List (String × F)
  intoIter_perm : ∀ map, (intoIter map).Perm map.entries
  sortBy_perm : ∀ hits, (sortBy hits).Perm hits
  sorted : ∀ hits, Comparable (hits.map Prod.snd) → (sortBy hits).Pairwise fun a b => ¬ a.2 < b.2

/-- `vec_minmax`, for hits that are there. -/
def vecMinmax : List (String × F) → Option (F × F)
  | [] => none
  | hits => some (hits.foldl (fun mn hit => if hit.2 < mn then hit.2 else mn) Score.posInf,
      hits.foldl (fun mx hit => if mx < hit.2 then hit.2 else mx) Score.negInf)

/-- `combined.entry(id).or_insert((0.0, 0.0)).0 = s`. -/
def setVec (map : Combined F) (id : String) (s : F) : Combined F :=
  map.insert id (s, ((map.lookup id).getD (0, 0)).2)

/-- `combined.entry(id).or_insert((0.0, 0.0)).1 = s`. -/
def setFts (map : Combined F) (id : String) (s : F) : Combined F :=
  map.insert id (((map.lookup id).getD (0, 0)).1, s)

/-- The scaled scores of the vector hits. -/
def withVec (vecHits : List (String × F)) : Combined F :=
  match vecMinmax vecHits with
  | none => ∅
  | some (min, max) =>
    let span := Max.max (max - min) Score.tiny
    vecHits.foldl (fun map hit => setVec map hit.1 ((hit.2 - min) / span)) ∅

/-- The scaled scores of the text hits, `1.0 / (1.0 + rank)` before scaling. -/
def withFts (ftsHits : List (FtsHit F)) (map : Combined F) : Combined F :=
  let raws := ftsHits.map fun hit => 1 / (1 + hit.rank)
  let min := raws.foldl Min.min Score.posInf
  let max := raws.foldl Max.max Score.negInf
  let span := Max.max (max - min) Score.tiny
  (ftsHits.zip raws).foldl (fun map hit => setFts map hit.1.id ((hit.2 - min) / span)) map

/-- A score for each id with a hit, the greatest first. -/
def normaliseAndCombine (std : Std F) (params : HybridParams F) (vecHits : List (String × F))
    (ftsHits : List (FtsHit F)) : List (String × F) :=
  std.sortBy ((std.intoIter (withFts ftsHits (withVec vecHits))).map fun entry =>
    (entry.1, params.vecWeight * entry.2.1 + params.ftsWeight * entry.2.2))

/-- The ids with a hit. -/
def hitIds (vecHits : List (String × F)) (ftsHits : List (FtsHit F)) : List String :=
  vecHits.map Prod.fst ++ ftsHits.map FtsHit.id

omit [Score F] in
theorem mem_foldl_insert {α : Type} (key : α → String) {set : Combined F → α → Combined F}
    (sets : ∀ map a id, id ∈ set map a ↔ id = key a ∨ id ∈ map) (as : List α) (map : Combined F)
    (id : String) : id ∈ as.foldl set map ↔ id ∈ as.map key ∨ id ∈ map := by
  induction as generalizing map with
  | nil => simp
  | cons a as ih =>
    rw [foldl_cons, ih, sets, map_cons, mem_cons]
    tauto

theorem mem_withVec (vecHits : List (String × F)) (id : String) :
    id ∈ withVec vecHits ↔ id ∈ vecHits.map Prod.fst := by
  cases vecHits with
  | nil => simp [withVec, vecMinmax]
  | cons hit hits =>
    refine (mem_foldl_insert Prod.fst (fun _ _ _ => AList.mem_insert _) _ _ id).trans ?_
    simp

theorem mem_withFts (ftsHits : List (FtsHit F)) (map : Combined F) (id : String) :
    id ∈ withFts ftsHits map ↔ id ∈ ftsHits.map FtsHit.id ∨ id ∈ map := by
  have ids : ∀ raws : List F, raws.length = ftsHits.length →
      (ftsHits.zip raws).map (fun hit => hit.1.id) = ftsHits.map FtsHit.id := fun raws same => by
    conv_rhs => rw [← map_fst_zip same.ge, map_map]
    rfl
  refine (mem_foldl_insert (fun hit : FtsHit F × F => hit.1.id)
    (fun _ _ _ => AList.mem_insert _) _ _ id).trans ?_
  rw [ids _ (length_map _)]

/-- What is combined: a score for each id with a hit, sorted as far as the scores compare. -/
structure IsCombined (vecHits : List (String × F)) (ftsHits : List (FtsHit F))
    (combined : List (String × F)) : Prop where
  distinct : (combined.map Prod.fst).Nodup
  mem_iff : ∀ id, id ∈ combined.map Prod.fst ↔ id ∈ hitIds vecHits ftsHits
  sorted : Comparable (combined.map Prod.snd) → combined.Pairwise fun a b => ¬ a.2 < b.2

/-- **Each id with a hit is combined once**, whatever the scores and the weights are. -/
theorem isCombined_normaliseAndCombine (std : Std F) (params : HybridParams F)
    (vecHits : List (String × F)) (ftsHits : List (FtsHit F)) :
    IsCombined vecHits ftsHits (normaliseAndCombine std params vecHits ftsHits) := by
  rw [normaliseAndCombine]
  set map := withFts ftsHits (withVec vecHits) with isMap
  set scored := (std.intoIter map).map fun entry =>
    (entry.1, params.vecWeight * entry.2.1 + params.ftsWeight * entry.2.2) with isScored
  have sorted := std.sortBy_perm scored
  have keys : (std.sortBy scored).map Prod.fst ~ map.keys := by
    refine (sorted.map Prod.fst).trans ?_
    rw [isScored, map_map]
    exact (std.intoIter_perm map).map Sigma.fst
  refine ⟨keys.nodup_iff.mpr map.keys_nodup, fun id => ?_, fun comparable => ?_⟩
  · rw [keys.mem_iff, ← AList.mem_keys, isMap, mem_withFts, mem_withVec, hitIds, mem_append,
      or_comm]
  · refine std.sorted scored fun a isA b isB => ?_
    have same : ∀ c, c ∈ (std.sortBy scored).map Prod.snd ↔ c ∈ scored.map Prod.snd :=
      fun c => (sorted.map Prod.snd).mem_iff
    intro less
    obtain ⟨asymmetric, between⟩ := comparable a ((same a).mpr isA) b ((same b).mpr isB) less
    exact ⟨asymmetric, fun c isC => between c ((same c).mpr isC)⟩

/-! ## Picking -/

/-- The score of an id's vector hit, the last one in the list. -/
def vecScore (vecHits : List (String × F)) (id : String) : F :=
  ((vecHits.reverse.find? (·.1 = id)).map Prod.snd).getD 0

/-- How close an id comes to those that are picked, by the scores of their vectors. -/
def maxSimToPicked (vecHits : List (String × F)) (picked : List String) (id : String) : F :=
  (picked.map fun p =>
    Score.clamp (1 - Score.abs (vecScore vecHits id - vecScore vecHits p))).foldl max 0

/-- The value by which a round picks. -/
def mmr (lambda : F) (vecHits : List (String × F)) (picked : List String) (hit : String × F) : F :=
  (1 - lambda) * hit.2 - lambda * maxSimToPicked vecHits picked hit.1

/-- The first index of a greatest score, as the fold with `s > bs` finds it. -/
def bestIdx {n : ℕ} (score : Fin (n + 1) → F) : Fin (n + 1) :=
  ((finRange (n + 1)).foldl (fun best i => if best.2 < score i then (i, score i) else best)
    (0, Score.negInf)).1

/-- `Vec::swap_remove`: the last element takes the place of the one removed. -/
def swapRemove {α : Type} (x : α) (xs : List α) (i : Fin (xs.length + 1)) : List α :=
  ((x :: xs).set i ((x :: xs).getLast (cons_ne_nil x xs))).dropLast

/-- The loop of `mmr_rerank`, with `room` ids to pick. -/
def pick (lambda : F) (vecHits : List (String × F)) :
    ℕ → List String → List (String × F) → List String
  | 0, picked, _ | _, picked, [] => picked
  | room + 1, picked, hit :: hits =>
    let best := bestIdx fun i => mmr lambda vecHits picked ((hit :: hits).get i)
    pick lambda vecHits room (picked ++ [((hit :: hits).get best).1]) (swapRemove hit hits best)

/-- The ranked ids. -/
def mmrRerank (combined vecHits : List (String × F)) (params : HybridParams F) (limit : ℕ) :
    List String :=
  if combined = [] ∨ limit = 0 then [] else pick params.mmrLambda vecHits limit [] combined

/-- The values of the first round compare, and as the scores do. -/
structure Scaled (lambda : F) (scores : List F) : Prop where
  comparable : Comparable (Score.negInf :: scores.map fun a => (1 - lambda) * a - lambda * 0)
  lt_of_lt : ∀ a ∈ scores, ∀ b ∈ scores,
    (1 - lambda) * a - lambda * 0 < (1 - lambda) * b - lambda * 0 → a < b

/-! ## The search -/

/-- `HybridSource` at one query: `vecHits` are its candidates as `score_vectors` scores them. -/
structure HybridSource (F σ Row Error : Type) where
  ftsHits : σ → Except Error (List (FtsHit F))
  vecHits : σ → Except Error (List (String × F))
  fetchById : σ → String → Except Error (Option Row)
  bumpTopK : List String → σ → σ

variable {σ Row Error : Type}

/-- Rows and recall bump of the ranked ids.  An error is returned before the bump. -/
def HybridSource.finalise (source : HybridSource F σ Row Error) (recallBumpTopK : ℕ)
    (ids : List String) (s : σ) : Except Error (List Row) × σ :=
  match ids.mapM (source.fetchById s) with
  | .error e => (.error e, s)
  | .ok rows =>
    (.ok (rows.filterMap id),
      if ids.take recallBumpTopK = [] then s else source.bumpTopK (ids.take recallBumpTopK) s)

/-- `embedded` says that there is an embedder and that it has embedded the query. -/
def search (std : Std F) (source : HybridSource F σ Row Error) (params : HybridParams F)
    (embedded : Bool) (limit : ℕ) (s : σ) : Except Error (List Row) × σ :=
  match source.ftsHits s, embedded with
  | .error e, _ => (.error e, s)
  | .ok fts, false => source.finalise params.recallBumpTopK ((fts.take limit).map FtsHit.id) s
  | .ok fts, true =>
    match source.vecHits s with
    | .error e => (.error e, s)
    | .ok vecHits => source.finalise params.recallBumpTopK
        (mmrRerank (normaliseAndCombine std params vecHits fts) vecHits params limit) s

omit [Score F] in
theorem HybridSource.finalise_eq {source : HybridSource F σ Row Error} {s : σ} {ids : List String}
    {row : String → Row} (active : ∀ id ∈ ids, source.fetchById s id = .ok (some (row id)))
    (k : ℕ) : source.finalise k ids s =
      (.ok (ids.map row), if ids.take k = [] then s else source.bumpTopK (ids.take k) s) := by
  have fetched : ids.mapM (source.fetchById s) = .ok ((ids.map row).map some) := by
    induction ids with
    | nil => rfl
    | cons id ids ih =>
      rw [mapM_cons, active id mem_cons_self, ih fun id mem => active id (mem_cons_of_mem _ mem)]
      rfl
  simp only [finalise, fetched, filterMap_map, Function.comp_def, id_eq, filterMap_eq_map']

/-! ## The loop -/

theorem swapRemove_perm {α : Type} (x : α) (xs : List α) (i : Fin (xs.length + 1)) :
    x :: xs ~ (x :: xs).get i :: swapRemove x xs i := by
  obtain ⟨init, last, split⟩ := (eq_nil_or_concat' (x :: xs)).resolve_left (cons_ne_nil x xs)
  have bound : (i : ℕ) < (init ++ [last]).length := split ▸ i.isLt
  have taken : (x :: xs).get i = (init ++ [last])[(i : ℕ)] := by
    simp only [get_eq_getElem, split]
  have rest : swapRemove x xs i = ((init ++ [last]).set i last).dropLast := by
    simp only [swapRemove, split, getLast_concat]
  rw [taken, rest, split]
  rcases Nat.lt_or_ge i init.length with inner | outer
  · rw [getElem_append_left inner, set_append_left _ _ inner, dropLast_concat]
    calc init ++ [last]
      _ ~ last :: init := perm_append_singleton last init
      _ ~ last :: init[(i : ℕ)] :: init.eraseIdx i := (getElem_cons_eraseIdx_perm inner).symm.cons _
      _ ~ init[(i : ℕ)] :: last :: init.eraseIdx i := .swap _ _ _
      _ ~ init[(i : ℕ)] :: init.set i last := (set_perm_cons_eraseIdx inner last).symm.cons _
  · have isLast : (i : ℕ) = init.length := by
      rw [length_append, length_singleton] at bound
      omega
    simp only [isLast, getElem_concat_length, set_append_right _ _ (Nat.le_refl _), Nat.sub_self,
      set_cons_zero, dropLast_concat]
    exact perm_append_singleton last init

/-- **What the loop picks** is a part of what there is to pick, as much as there is room for. -/
theorem pick_perm (lambda : F) (vecHits : List (String × F)) (room : ℕ) (picked : List String)
    (hits : List (String × F)) : ∃ chosen left,
      pick lambda vecHits room picked hits = picked ++ chosen ∧
      chosen.length = min room hits.length ∧ hits.map Prod.fst ~ chosen ++ left := by
  induction room generalizing picked hits with
  | zero => exact ⟨[], hits.map Prod.fst, by rw [pick, append_nil], by simp, .refl _⟩
  | succ room ih =>
    cases hits with
    | nil => exact ⟨[], [], by rw [pick, append_nil]; nofun, rfl, .refl _⟩
    | cons hit hits =>
      rw [pick]
      generalize bestIdx (fun i => mmr lambda vecHits picked ((hit :: hits).get i)) = best
      have removed := swapRemove_perm hit hits best
      obtain ⟨chosen, left, run, count, perm⟩ :=
        ih (picked ++ [((hit :: hits).get best).1]) (swapRemove hit hits best)
      refine ⟨((hit :: hits).get best).1 :: chosen, left, ?_, ?_, ?_⟩
      · rw [run, append_assoc, singleton_append]
      · have length := removed.length_eq
        simp only [length_cons] at length ⊢
        omega
      · exact (removed.map Prod.fst).trans (perm.cons _)

theorem bestIdx_eq_zero {n : ℕ} {score : Fin (n + 1) → F} (top : ∀ i, ¬ score 0 < score i)
    (above : ∀ i, Score.negInf < score i → Score.negInf < score 0) : bestIdx score = 0 := by
  have stays : ∀ (is : List (Fin (n + 1))) (best : F), (∀ i, ¬ best < score i) →
      is.foldl (fun best i => if best.2 < score i then (i, score i) else best) (0, best) =
        (0, best) := by
    intro is best greatest
    induction is with
    | nil => rfl
    | cons i is ih => rw [foldl_cons, if_neg (greatest i), ih]
  rw [bestIdx, finRange_succ, foldl_cons]
  by_cases finite : Score.negInf < score 0
  · rw [if_pos finite, stays _ _ top]
  · rw [if_neg finite, stays _ _ fun i better => finite (above i better)]

theorem head_pick {lambda : F} {hit : String × F} {hits : List (String × F)}
    (vecHits : List (String × F)) (room : ℕ) (scaled : Scaled lambda ((hit :: hits).map Prod.snd))
    (top : ∀ other ∈ hit :: hits, ¬ hit.2 < other.2) :
    (pick lambda vecHits (room + 1) [] (hit :: hits)).head? = some hit.1 := by
  -- nothing is picked yet, so a value depends on the score alone
  have value : ∀ other : String × F,
      mmr lambda vecHits [] other = (1 - lambda) * other.2 - lambda * 0 := fun _ => rfl
  have mem : ∀ i : Fin (hits.length + 1), ((hit :: hits).get i).2 ∈ (hit :: hits).map Prod.snd :=
    fun i => mem_map_of_mem (get_mem (hit :: hits) i)
  have first : bestIdx (fun i => mmr lambda vecHits [] ((hit :: hits).get i)) = 0 := by
    refine bestIdx_eq_zero (fun i better => ?_) fun i finite => ?_
    · exact top _ (get_mem (hit :: hits) i) (scaled.lt_of_lt _ (mem 0) _ (mem i) better)
    · refine ((scaled.comparable _ mem_cons_self _ (mem_cons_of_mem _ (mem_map_of_mem (mem i)))
        finite).2 _ (mem_cons_of_mem _ (mem_map_of_mem (mem 0)))).resolve_right fun better => ?_
      exact top _ (get_mem (hit :: hits) i) (scaled.lt_of_lt _ (mem 0) _ (mem i) better)
  obtain ⟨chosen, -, run, -⟩ := pick_perm lambda vecHits room [hit.1] (swapRemove hit hits 0)
  rw [pick, first, nil_append, get_cons_zero, run]
  rfl

theorem mmrRerank_eq (combined vecHits : List (String × F)) (params : HybridParams F)
    (limit : ℕ) :
    mmrRerank combined vecHits params limit = pick params.mmrLambda vecHits limit [] combined := by
  rw [mmrRerank]
  split
  · rename_i nothing
    rcases nothing with rfl | rfl
    · cases limit <;> rfl
    · rfl
  · rfl

instance : Score ℚ where
  posInf := 10 ^ 39
  negInf := -10 ^ 39
  tiny := 1 / 10 ^ 9
  abs x := |x|
  clamp x := max 0 (min 1 x)
  decLt := inferInstance

/-- Exact scores compare. -/
theorem comparable_exact (values : List ℚ) : Comparable values := by
  intro a _ b _ less
  refine ⟨less.asymm, fun c _ => ?_⟩
  rcases lt_or_ge a c with above | below
  · exact .inl above
  · exact .inr (below.trans_lt less)

theorem scaled_exact {lambda : ℚ} (le : lambda ≤ 1) (scores : List ℚ) : Scaled lambda scores := by
  refine ⟨comparable_exact _, fun a _ b _ less => ?_⟩
  rw [mul_zero, sub_zero, sub_zero] at less
  exact lt_of_mul_lt_mul_left less (sub_nonneg.mpr le)

/-- Entries in the order of the map, and a merge sort. -/
def exactStd : Std ℚ where
  intoIter map := map.entries
  sortBy hits := hits.mergeSort fun a b => b.2 ≤ a.2
  intoIter_perm _ := .refl _
  sortBy_perm hits := mergeSort_perm hits _
  sorted hits _ := by
    refine (pairwise_mergeSort (fun a b c ab bc => ?_) (fun a b => ?_) hits).imp
      fun le => not_lt.mpr (of_decide_eq_true le)
    · exact decide_eq_true ((of_decide_eq_true bc).trans (of_decide_eq_true ab))
    · simpa using le_total b.2 a.2

def usualParams : HybridParams ℚ :=
  { vecWeight := 7 / 10, ftsWeight := 3 / 10, mmrLambda := 3 / 10 }

end Havn.Runtime.Mmr
