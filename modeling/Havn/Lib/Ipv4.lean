import Mathlib.Algebra.Order.Ring.Nat
import Havn.Lib.Decimal
import Havn.Lib.Delimited

/-!
# IPv4 networks

An address is a number below `2 ^ 32`.  A network is the set of the addresses that agree with its
own in some leading bits.  Two networks overlap exactly when the shorter one contains the address of
the longer one (`overlaps_iff_contains`).
-/

namespace Havn.Lib.Ipv4

open List

def octet (shift address : ℕ) : ℕ := address / 2 ^ shift % 256

def ofOctets (first second third fourth : UInt8) : ℕ :=
  first.toNat * 2 ^ 24 + second.toNat * 2 ^ 16 + third.toNat * 2 ^ 8 + fourth.toNat

@[ext]
structure Net where
  address : ℕ
  length : ℕ
  address_lt : address < 2 ^ 32
  length_le : length ≤ 32
  aligned : 2 ^ (32 - length) ∣ address
  deriving DecidableEq

namespace Net

variable {net net' : Net} {address address' : ℕ}

def Contains (net : Net) (address : ℕ) : Prop :=
  address / 2 ^ (32 - net.length) = net.address / 2 ^ (32 - net.length)
  deriving Decidable

def Overlaps (net net' : Net) : Prop :=
  ∃ address < 2 ^ 32, net.Contains address ∧ net'.Contains address

theorem contains_address (net : Net) : net.Contains net.address := rfl

theorem contains_congr (shorter : net.length ≤ net'.length) (mem : net'.Contains address)
    (mem' : net'.Contains address') : net.Contains address ↔ net.Contains address' := by
  have sizes : 2 ^ (32 - net.length) =
      2 ^ (32 - net'.length) * 2 ^ (net'.length - net.length) := by
    rw [← pow_add]
    congr 1
    have := net'.length_le
    omega
  have same : address / 2 ^ (32 - net.length) = address' / 2 ^ (32 - net.length) := by
    rw [sizes, ← Nat.div_div_eq_div_mul, ← Nat.div_div_eq_div_mul, mem, mem']
  rw [Contains, Contains, same]

theorem overlaps_iff_contains (shorter : net.length ≤ net'.length) :
    net.Overlaps net' ↔ net.Contains net'.address := by
  constructor
  · rintro ⟨address, -, mem, mem'⟩
    exact (contains_congr shorter mem' net'.contains_address).mp mem
  · intro mem
    exact ⟨net'.address, net'.address_lt, mem, net'.contains_address⟩

theorem overlaps_comm : net.Overlaps net' ↔ net'.Overlaps net := by
  simp only [Overlaps, and_comm]

instance (net net' : Net) : Decidable (net.Overlaps net') :=
  if shorter : net.length ≤ net'.length then
    decidable_of_iff _ (overlaps_iff_contains shorter).symm
  else
    decidable_of_iff _
      ((overlaps_iff_contains (Nat.le_of_not_le shorter)).symm.trans overlaps_comm)

/-! ## Text -/

def dotted (address : ℕ) : List Char :=
  Nat.toDigits 10 (octet 24 address) ++ '.' :: (Nat.toDigits 10 (octet 16 address) ++
    '.' :: (Nat.toDigits 10 (octet 8 address) ++ '.' :: Nat.toDigits 10 (octet 0 address)))

/-- All addresses are called `default`, and a network of one address is printed as that address. -/
def text (net : Net) : List Char :=
  if net.length = 0 then "default".toList
  else if net.length = 32 then dotted net.address
  else dotted net.address ++ '/' :: Nat.toDigits 10 net.length

theorem address_eq_octets (lt : address < 2 ^ 32) :
    address = octet 24 address * 2 ^ 24 + octet 16 address * 2 ^ 16 + octet 8 address * 2 ^ 8 +
      octet 0 address := by
  simp only [octet]
  omega

theorem dotted_inj (lt : address < 2 ^ 32) (lt' : address' < 2 ^ 32) :
    dotted address = dotted address' ↔ address = address' := by
  refine ⟨fun same => ?_, congrArg dotted⟩
  have free : ∀ n, '.' ∉ Nat.toDigits 10 n := not_mem_toDigits rfl
  rw [dotted, dotted, append_delimiter_inj (free _) (free _),
    append_delimiter_inj (free _) (free _), append_delimiter_inj (free _) (free _),
    toDigits_inj, toDigits_inj, toDigits_inj, toDigits_inj] at same
  obtain ⟨first, second, third, fourth⟩ := same
  rw [address_eq_octets lt, address_eq_octets lt', first, second, third, fourth]

theorem mem_dotted {c : Char} (mem : c ∈ dotted address) : c = '.' ∨ c.isDigit = true := by
  have digit : ∀ n, c ∈ Nat.toDigits 10 n → c.isDigit = true := fun n mem =>
    Nat.isDigit_of_mem_toDigits (by decide) (by decide) mem
  simp only [dotted, mem_append, mem_cons] at mem
  rcases mem with mem | rfl | mem | rfl | mem | rfl | mem
  · exact .inr (digit _ mem)
  · exact .inl rfl
  · exact .inr (digit _ mem)
  · exact .inl rfl
  · exact .inr (digit _ mem)
  · exact .inl rfl
  · exact .inr (digit _ mem)

theorem slash_not_mem_dotted (address : ℕ) : '/' ∉ dotted address := by
  intro mem
  rcases mem_dotted mem with dot | digit
  · exact absurd dot (by decide)
  · exact absurd digit (by decide)

theorem text_of_all (all : net.length = 0) : net.text = "default".toList := by
  rw [text, if_pos all]

theorem text_of_one (one : net.length = 32) : net.text = dotted net.address := by
  rw [text, if_neg (by omega), if_pos one]

theorem text_of_inside (proper : net.length ≠ 0) (more : net.length ≠ 32) :
    net.text = dotted net.address ++ '/' :: Nat.toDigits 10 net.length := by
  rw [text, if_neg proper, if_neg more]

theorem exists_text (proper : net.length ≠ 0) : ∃ tail, net.text =
    Nat.toDigits 10 (octet 24 net.address) ++
      '.' :: (Nat.toDigits 10 (octet 16 net.address) ++ '.' :: tail) := by
  by_cases one : net.length = 32
  · exact ⟨_, text_of_one one⟩
  · refine ⟨Nat.toDigits 10 (octet 8 net.address) ++ '.' ::
      (Nat.toDigits 10 (octet 0 net.address) ++ '/' :: Nat.toDigits 10 net.length), ?_⟩
    rw [text_of_inside proper one, dotted]
    simp only [append_assoc, cons_append]

theorem slash_mem_text_iff : '/' ∈ net.text ↔ net.length ≠ 0 ∧ net.length ≠ 32 := by
  constructor
  · intro mem
    refine ⟨fun all => ?_, fun one => ?_⟩
    · rw [text_of_all all] at mem
      exact absurd mem (by decide)
    · rw [text_of_one one] at mem
      exact slash_not_mem_dotted _ mem
  · rintro ⟨proper, more⟩
    rw [text_of_inside proper more]
    exact mem_append_right _ mem_cons_self

theorem address_of_all (all : net.length = 0) : net.address = 0 := by
  have aligned := net.aligned
  rw [all] at aligned
  exact Nat.eq_zero_of_dvd_of_lt aligned net.address_lt

theorem default_ne_dotted (address : ℕ) : "default".toList ≠ dotted address := by
  intro same
  have letter : 'd' ∈ dotted address := same ▸ by decide
  rcases mem_dotted letter with dot | digit
  · exact absurd dot (by decide)
  · exact absurd digit (by decide)

theorem text_ne_nil (net : Net) : net.text ≠ [] := by
  by_cases all : net.length = 0
  · rw [text_of_all all]
    decide
  · obtain ⟨tail, text⟩ := exists_text all
    rw [text]
    exact append_ne_nil_of_right_ne_nil _ (cons_ne_nil _ _)

theorem mem_text {c : Char} (mem : c ∈ net.text) :
    c ∈ "default".toList ∨ c = '.' ∨ c = '/' ∨ c.isDigit = true := by
  by_cases all : net.length = 0
  · rw [text_of_all all] at mem
    exact .inl mem
  · by_cases one : net.length = 32
    · rw [text_of_one one] at mem
      rcases mem_dotted mem with dot | digit
      · exact .inr (.inl dot)
      · exact .inr (.inr (.inr digit))
    · rw [text_of_inside all one, mem_append, mem_cons] at mem
      rcases mem with mem | slash | mem
      · rcases mem_dotted mem with dot | digit
        · exact .inr (.inl dot)
        · exact .inr (.inr (.inr digit))
      · exact .inr (.inr (.inl slash))
      · exact .inr (.inr (.inr (Nat.isDigit_of_mem_toDigits (by decide) (by decide) mem)))

theorem text_inj : net.text = net'.text ↔ net = net' := by
  refine ⟨fun same => ?_, congrArg text⟩
  have inside : (net.length ≠ 0 ∧ net.length ≠ 32) ↔ net'.length ≠ 0 ∧ net'.length ≠ 32 := by
    rw [← slash_mem_text_iff, ← slash_mem_text_iff, same]
  by_cases bounds : net.length ≠ 0 ∧ net.length ≠ 32
  · obtain ⟨proper', more'⟩ := inside.mp bounds
    rw [text_of_inside bounds.1 bounds.2, text_of_inside proper' more',
      append_delimiter_inj (slash_not_mem_dotted _) (slash_not_mem_dotted _),
      dotted_inj net.address_lt net'.address_lt, toDigits_inj] at same
    exact Net.ext same.1 same.2
  · have bounds' := mt inside.mpr bounds
    rw [not_and_or, not_not, not_not] at bounds bounds'
    -- the two texts without a length are told apart by their first letter
    rcases bounds with all | one <;> rcases bounds' with all' | one'
    · exact Net.ext ((address_of_all all).trans (address_of_all all').symm) (all.trans all'.symm)
    · rw [text_of_all all, text_of_one one'] at same
      exact absurd same (default_ne_dotted _)
    · rw [text_of_one one, text_of_all all'] at same
      exact absurd same.symm (default_ne_dotted _)
    · rw [text_of_one one, text_of_one one', dotted_inj net.address_lt net'.address_lt] at same
      exact Net.ext same (one.trans one'.symm)

end Net

end Havn.Lib.Ipv4
