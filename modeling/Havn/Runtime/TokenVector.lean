import Mathlib.Data.Nat.Find
import Mathlib.Logic.Function.Iterate

/-!
# Token vectors

`token_vector` of `havn-runtime/src/embedding/hrr.rs` reads the signs of a token's vector from the
low bits of a state that starts as the token's hash and is rotated at each step.  It is meant to be
re-mixed every 64 bits, and is re-mixed whenever it ends in six zeros.
-/

namespace Havn.Runtime.Hrr

def defaultSeed : BitVec 64 := 0x4841564e5f485252

/-- The bytes of the token, and then the finalizer of SplitMix64. -/
def hashToken (seed : BitVec 64) (token : List UInt8) : BitVec 64 :=
  let h := token.foldl (fun h b => h * 0x517cc1b727220a95 + b.toBitVec.setWidth 64) seed
  let z := h + 0x9e3779b97f4a7c15
  let z := (z ^^^ z >>> 30) * 0xbf58476d1ce4e5b9
  let z := (z ^^^ z >>> 27) * 0x94d049bb133111eb
  z ^^^ z >>> 31

def trailingZeros (h : BitVec 64) : ℕ := (List.range 64).findIdx (h.getLsbD ·)

def Remixes (h : BitVec 64) : Prop := 6 ≤ trailingZeros (h.rotateLeft 1)

instance (h : BitVec 64) : Decidable (Remixes h) := Nat.decLe _ _

def next (h : BitVec 64) : BitVec 64 :=
  if Remixes h then h.rotateLeft 1 * 0x9e3779b97f4a7c15 else h.rotateLeft 1

def sign {α : Type} [Neg α] (invSqrtDim : α) (h : BitVec 64) : α :=
  if h &&& 1 = 0 then invSqrtDim else -invSqrtDim

/-- The loop of `token_vector` over `dim` slots. -/
def signs {α : Type} [Neg α] (invSqrtDim : α) : ℕ → BitVec 64 → List α
  | 0, _ => []
  | dim + 1, h => sign invSqrtDim h :: signs invSqrtDim dim (next h)

def tokenVector {α : Type} [Neg α] (invSqrtDim : α) (seed : BitVec 64) (dim : ℕ)
    (token : List UInt8) : List α :=
  signs invSqrtDim dim (hashToken seed token)

/-- The state after `n` steps. -/
def state (h : BitVec 64) (n : ℕ) : BitVec 64 := next^[n] h

/-- Six zeros in a row, around the end of the word. -/
def HasRun (h : BitVec 64) : Prop := ∃ p < 64, ∀ j < 6, h.getLsbD ((p + j) % 64) = false

instance (h : BitVec 64) : Decidable (HasRun h) :=
  inferInstanceAs (Decidable (∃ p < 64, ∀ j < 6, _))

/-! ## Until the state is re-mixed -/

variable {h : BitVec 64} {n : ℕ}

theorem getLsbD_rotateLeft_one {j : ℕ} (lt : j < 64) :
    (h.rotateLeft 1).getLsbD j = h.getLsbD ((j + 63) % 64) := by
  rw [BitVec.getLsbD_rotateLeft]
  cases j with
  | zero => rfl
  | succ j =>
    have wrapped : (j + 1 + 63) % 64 = j := by omega
    rw [wrapped]
    simp [lt]

theorem le_trailingZeros_iff (lt : n < 64) :
    n ≤ trailingZeros h ↔ ∀ j < n, h.getLsbD j = false := by
  constructor
  · intro le j less
    have zero := List.not_of_lt_findIdx (Nat.lt_of_lt_of_le less le)
    rwa [List.getElem_range] at zero
  · intro zeros
    refine List.le_findIdx_of_not (by rwa [List.length_range]) fun j less => ?_
    rw [List.getElem_range]
    exact zeros j less

theorem remixes_iff : Remixes h ↔ ∀ j < 6, h.getLsbD ((j + 63) % 64) = false := by
  rw [Remixes, le_trailingZeros_iff (by decide)]
  refine forall₂_congr fun j small => ?_
  rw [getLsbD_rotateLeft_one (by omega)]

/-- **A state that is not re-mixed is rotated.** -/
theorem getLsbD_state (unmixed : ∀ m < n, ¬ Remixes (state h m)) :
    ∀ j < 64, (state h n).getLsbD j = h.getLsbD ((j + 63 * n) % 64) := by
  induction n with
  | zero =>
    intro j lt
    rw [Nat.mul_zero, Nat.add_zero, Nat.mod_eq_of_lt lt]
    rfl
  | succ n ih =>
    intro j lt
    have earlier := ih fun m less => unmixed m (Nat.lt_succ_of_lt less)
    have step : state h (n + 1) = (state h n).rotateLeft 1 := by
      rw [state, Function.iterate_succ_apply']
      exact if_neg (unmixed n n.lt_succ_self)
    rw [step, getLsbD_rotateLeft_one lt, earlier _ (Nat.mod_lt _ (by decide))]
    congr 1
    omega

theorem remixes_state_iff (unmixed : ∀ m < n, ¬ Remixes (state h m)) :
    Remixes (state h n) ↔ ∀ j < 6, h.getLsbD ((63 * (n + 1) % 64 + j) % 64) = false := by
  rw [remixes_iff]
  refine forall₂_congr fun j small => ?_
  rw [getLsbD_state unmixed _ (Nat.mod_lt _ (by decide))]
  have same : ((j + 63) % 64 + 63 * n) % 64 = (63 * (n + 1) % 64 + j) % 64 := by omega
  rw [same]

theorem hasRun_of_remixes (remixed : Remixes (state h n)) : HasRun h := by
  -- at the first re-mix the state is still a rotation of the hash
  have found : ∃ n, Remixes (state h n) := ⟨n, remixed⟩
  have unmixed : ∀ m < Nat.find found, ¬ Remixes (state h m) := fun m => Nat.find_min found
  exact ⟨_, Nat.mod_lt _ (by decide), (remixes_state_iff unmixed).mp (Nat.find_spec found)⟩

theorem exists_remix_iff : (∃ i < 64, Remixes (state h i)) ↔ HasRun h := by
  constructor
  · rintro ⟨i, -, remixed⟩
    exact hasRun_of_remixes remixed
  · rintro ⟨p, small, zeros⟩
    by_contra never
    push Not at never
    have last : 63 * (63 - p + 1) % 64 = p := by omega
    refine never (63 - p) (by omega) ((remixes_state_iff fun m less => never m (by omega)).mpr ?_)
    rw [last]
    exact zeros

theorem state_period (noRun : ¬ HasRun h) : state h 64 = h := by
  refine BitVec.eq_of_getLsbD_eq fun j lt => ?_
  rw [getLsbD_state (fun m _ remixed => noRun (hasRun_of_remixes remixed)) j lt]
  congr 1
  omega

theorem getElem?_signs {α : Type} [Neg α] (invSqrtDim : α) {dim i : ℕ} (lt : i < dim) :
    (signs invSqrtDim dim h)[i]? = some (sign invSqrtDim (state h i)) := by
  induction dim generalizing h i with
  | zero => exact absurd lt (Nat.not_lt_zero i)
  | succ dim ih =>
    cases i with
    | zero => rfl
    | succ i =>
      rw [signs, List.getElem?_cons_succ, ih (Nat.lt_of_succ_lt_succ lt)]
      rfl

theorem signs_period {α : Type} [Neg α] (invSqrtDim : α) {dim i : ℕ} (noRun : ¬ HasRun h)
    (lt : i + 64 < dim) : (signs invSqrtDim dim h)[i + 64]? = (signs invSqrtDim dim h)[i]? := by
  have again : state h (i + 64) = state h i := by
    rw [state, Function.iterate_add_apply]
    exact congrArg next^[i] (state_period noRun)
  rw [getElem?_signs invSqrtDim lt, getElem?_signs invSqrtDim (by omega), again]

/-- **When 64 steps re-mix the state**: exactly when it has six zeros in a row at their start.  A
hash without six zeros in a row is never re-mixed, and its first 64 signs are repeated. -/
theorem remixed_iff (h : BitVec 64) (dim : ℕ) :
    ((∀ start, start + 64 ≤ dim → ∃ i < 64, Remixes (state h (start + i))) ↔
      ∀ start, start + 64 ≤ dim → HasRun (state h start)) ∧
    (¬ HasRun h → (∀ n, ¬ Remixes (state h n)) ∧
      ∀ (α : Type) [Neg α] (invSqrtDim : α) (i : ℕ), i + 64 < dim →
        (signs invSqrtDim dim h)[i + 64]? = (signs invSqrtDim dim h)[i]?) := by
  constructor
  · refine forall₂_congr fun start _ => ?_
    rw [← exists_remix_iff]
    refine exists_congr fun i => and_congr_right fun _ => ?_
    rw [state, Nat.add_comm, Function.iterate_add_apply]
    rfl
  · intro noRun
    exact ⟨fun n remixed => noRun (hasRun_of_remixes remixed),
      fun α _ invSqrtDim i lt => signs_period invSqrtDim noRun lt⟩

/-- **The vector of `hello` repeats its first 64 signs** under the default seed. -/
theorem hello_unmixed :
    hashToken defaultSeed [104, 101, 108, 108, 111] = 0x138d4b77ae0c6221 ∧
      (¬ ∀ start, start + 64 ≤ 1024 → ∃ i < 64,
        Remixes (state (hashToken defaultSeed [104, 101, 108, 108, 111]) (start + i))) ∧
      ∀ i, i + 64 < 1024 →
        (tokenVector (1 : ℤ) defaultSeed 1024 [104, 101, 108, 108, 111])[i + 64]? =
          (tokenVector (1 : ℤ) defaultSeed 1024 [104, 101, 108, 108, 111])[i]? := by
  have hash : hashToken defaultSeed [104, 101, 108, 108, 111] = 0x138d4b77ae0c6221 := by decide
  have noRun : ¬ HasRun (hashToken defaultSeed [104, 101, 108, 108, 111]) := by decide +kernel
  refine ⟨hash, fun remixed => ?_, fun i => signs_period 1 noRun⟩
  obtain ⟨i, -, remixes⟩ := remixed 0 (by decide)
  exact noRun (hasRun_of_remixes remixes)

end Havn.Runtime.Hrr
