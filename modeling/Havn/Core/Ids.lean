import Mathlib.Algebra.Ring.Nat
import Mathlib.Data.List.Basic

/-!
# Identifiers

`havn-core`, `ids.rs`: every entity is named by a UUID in a newtype of its own, and written as its
hyphenated lower-case text.  `UuidReader` is what is assumed of `Uuid::parse_str`.
-/

namespace Havn.Core

open List

structure Uuid where
  bits : BitVec 128
deriving DecidableEq

variable (uuid : Uuid)

def Uuid.hexDigits : List Char :=
  (List.range 32).map fun i => Nat.digitChar (uuid.bits.toNat / 16 ^ (31 - i) % 16)

def Uuid.byte (i : ℕ) : UInt8 :=
  UInt8.ofNat (uuid.bits.toNat / 256 ^ (15 - i))

/-- Version 7, in the upper half of byte 6, and the variant in the upper two bits of byte 8. -/
def Uuid.IsV7 : Prop :=
  (uuid.byte 6).toNat / 16 = 7 ∧ (uuid.byte 8).toNat / 64 = 2

def Uuid.toString : String :=
  let d := uuid.hexDigits
  let group (start len : Nat) := (d.drop start).take len
  String.ofList (group 0 8 ++ '-' :: group 8 4 ++ '-' :: group 12 4 ++
    '-' :: group 16 4 ++ '-' :: group 20 12)

structure AgentId where
  uuid : Uuid
deriving DecidableEq

structure UserId where
  uuid : Uuid
deriving DecidableEq

structure TeamId where
  uuid : Uuid
deriving DecidableEq

structure RoleId where
  uuid : Uuid
deriving DecidableEq

structure CredentialId where
  uuid : Uuid
deriving DecidableEq

structure CronJobId where
  uuid : Uuid
deriving DecidableEq

def AgentId.toString (id : AgentId) : String := id.uuid.toString
def UserId.toString (id : UserId) : String := id.uuid.toString
def TeamId.toString (id : TeamId) : String := id.uuid.toString
def RoleId.toString (id : RoleId) : String := id.uuid.toString
def CronJobId.toString (id : CronJobId) : String := id.uuid.toString

def uuidOf (n : Nat) : Uuid := ⟨BitVec.ofNat 128 n⟩

example : (uuidOf 0x0190a0b0c0d07e0f8a1b2c3d4e5f6071).toString =
    "0190a0b0-c0d0-7e0f-8a1b-2c3d4e5f6071" := by decide +kernel

/-! ## Reading a UUID -/

theorem digitChar_ne : ∀ d < 16, Nat.digitChar d ∉ ['-', '|', '/'] := by
  decide

namespace Uuid

theorem ne_of_mem_hexDigits {uuid : Uuid} {c : Char} (mem : c ∈ uuid.hexDigits) :
    c ∉ ['-', '|', '/'] := by
  obtain ⟨i, -, rfl⟩ := mem_map.mp mem
  exact digitChar_ne _ (Nat.mod_lt _ (by decide))

theorem toList_toString (uuid : Uuid) : ∃ a b c d e, uuid.hexDigits = a ++ b ++ c ++ d ++ e ∧
    uuid.toString.toList = a ++ '-' :: b ++ '-' :: c ++ '-' :: d ++ '-' :: e := by
  refine ⟨_, _, _, _, _, ?_, String.toList_ofList⟩
  rfl

theorem not_mem_toString (uuid : Uuid) {c : Char} (separator : c ∈ ['|', '/']) :
    c ∉ uuid.toString.toList := by
  obtain ⟨d₁, d₂, d₃, d₄, d₅, digits, text⟩ := uuid.toList_toString
  have free : c ∉ uuid.hexDigits := fun mem =>
    ne_of_mem_hexDigits mem (mem_cons_of_mem _ separator)
  have noHyphen : c ≠ '-' := by
    rintro rfl
    exact absurd separator (by decide)
  rw [digits] at free
  rw [text]
  simpa [noHyphen] using free

theorem hyphen_mem_toString (uuid : Uuid) : '-' ∈ uuid.toString.toList := by
  obtain ⟨a, b, c, d, e, -, text⟩ := uuid.toList_toString
  rw [text]
  exact mem_append_right _ mem_cons_self

end Uuid

/-- Whatever else it accepts, it reads a printed UUID as the UUID that was printed. -/
structure UuidReader where
  parseStr : String → Option Uuid
  parseStr_toString : ∀ uuid, parseStr uuid.toString = some uuid

variable (reader : UuidReader) (s : String)

def UuidReader.agentId : Option AgentId :=
  (reader.parseStr s).map AgentId.mk

def UuidReader.teamId : Option TeamId :=
  (reader.parseStr s).map TeamId.mk

def UuidReader.userId : Option UserId :=
  (reader.parseStr s).map UserId.mk

def UuidReader.roleId : Option RoleId :=
  (reader.parseStr s).map RoleId.mk

def isHexDigit (c : Char) : Bool :=
  c.isDigit ∨ ('a' ≤ c ∧ c ≤ 'f') ∨ ('A' ≤ c ∧ c ≤ 'F')

def isHyphenated (cs : List Char) : Bool :=
  cs.length = 36 ∧ cs.zipIdx.all fun (c, i) =>
    if i ∈ [8, 13, 18, 23] then c = '-' else isHexDigit c

/-- The texts `Uuid::parse_str` reads: 32 digits, or the hyphenated form, bare, in braces or after
`urn:uuid:`. -/
def isUuidText : Bool :=
  let cs := s.toList
  (cs.length = 32 ∧ cs.all isHexDigit) ∨ isHyphenated cs ∨
    (cs.head? = some '\x7b' ∧ cs.getLast? = some '\x7d' ∧ isHyphenated cs.tail.dropLast) ∨
    ("urn:uuid:".toList.isPrefixOf cs ∧ isHyphenated (cs.drop 9))

section Hyphenated

def hexValue (c : Char) : Nat :=
  if c.isDigit then c.toNat - 48 else c.toNat - 87

theorem hexValue_digitChar : ∀ d < 16, hexValue (Nat.digitChar d) = d := by
  decide

theorem foldl_hex (w n : Nat) :
    ((List.range w).map fun i => n / 16 ^ (w - 1 - i) % 16).foldl (fun a d => 16 * a + d) 0 =
      n % 16 ^ w := by
  induction w generalizing n with
  | zero => simp [Nat.mod_one]
  | succ w ih =>
    have tail : ((List.range w).map fun i => n / 16 ^ (w + 1 - 1 - i) % 16) =
        (List.range w).map fun i => n / 16 / 16 ^ (w - 1 - i) % 16 := by
      refine map_congr_left fun i mem => ?_
      have : w + 1 - 1 - i = w - 1 - i + 1 := by have := mem_range.mp mem; omega
      rw [this, pow_succ', Nat.div_div_eq_div_mul]
    rw [range_succ, map_append, foldl_append, tail, ih, pow_succ', Nat.mod_mul]
    simp [Nat.add_comm]

def Uuid.ofHex (digits : List Char) : Uuid :=
  ⟨BitVec.ofNat 128 ((digits.map hexValue).foldl (fun a d => 16 * a + d) 0)⟩

theorem Uuid.ofHex_hexDigits (uuid : Uuid) : Uuid.ofHex uuid.hexDigits = uuid := by
  have values : uuid.hexDigits.map hexValue =
      (List.range 32).map fun i => uuid.bits.toNat / 16 ^ (32 - 1 - i) % 16 := by
    rw [hexDigits, map_map]
    exact map_congr_left fun i _ => hexValue_digitChar _ (Nat.mod_lt _ (by decide))
  have fits : uuid.bits.toNat < 16 ^ 32 := uuid.bits.isLt
  rw [ofHex, values, foldl_hex, Nat.mod_eq_of_lt fits, BitVec.ofNat_toNat, BitVec.setWidth_eq]

def UuidReader.hyphenated : UuidReader where
  parseStr s :=
    let uuid := Uuid.ofHex (s.toList.filter (· ≠ '-'))
    if uuid.toString = s then some uuid else none
  parseStr_toString uuid := by
    have digits : uuid.toString.toList.filter (· ≠ '-') = uuid.hexDigits := by
      obtain ⟨a, b, c, d, e, digits, text⟩ := uuid.toList_toString
      have clean : uuid.hexDigits.filter (· ≠ '-') = uuid.hexDigits :=
        filter_eq_self.mpr fun c mem => by
          have := Uuid.ne_of_mem_hexDigits mem
          simp_all
      rw [digits] at clean ⊢
      rw [text]
      simpa [filter_append] using clean
    simp only [digits, Uuid.ofHex_hexDigits, if_true]

theorem UuidReader.toString_of_hyphenated {s : String} {uuid : Uuid}
    (read : UuidReader.hyphenated.parseStr s = some uuid) : uuid.toString = s := by
  simp only [hyphenated] at read
  split at read
  · rename_i printed
    cases read
    exact printed
  · cases read

theorem Uuid.toString_injective {a b : Uuid} (same : a.toString = b.toString) : a = b := by
  have read := UuidReader.hyphenated.parseStr_toString a
  rw [same, UuidReader.hyphenated.parseStr_toString b] at read
  exact (Option.some.inj read).symm

theorem TeamId.toString_injective {a b : TeamId} (same : a.toString = b.toString) : a = b := by
  cases a
  cases b
  exact congrArg TeamId.mk (Uuid.toString_injective same)

theorem UserId.toString_injective {a b : UserId} (same : a.toString = b.toString) : a = b := by
  cases a
  cases b
  exact congrArg UserId.mk (Uuid.toString_injective same)

end Hyphenated

end Havn.Core
