import Mathlib.Order.Interval.Finset.Nat
import Havn.Core.Ids
import Havn.Spawner.Network

/-!
# The network of an agent

`network_for` of `havn-spawner/src/network.rs`: an agent's `/30` is computed from fourteen bits of
its id, so two agents share a subnet exactly if these bits agree.
-/

namespace Havn.Spawner

open Havn.Core Lib Ipv4 List

structure AgentNetwork where
  hostIface : String
  nsIface : String
  hostIp : ℕ
  nsIp : ℕ
  network : ℕ

def tryFromU32 (n : UInt32) : Option UInt8 :=
  if n.toNat < 256 then some n.toUInt8 else none

def hex06 (n : ℕ) : String :=
  String.ofList ((List.range 6).map fun i => Nat.digitChar (n / 16 ^ (5 - i) % 16))

def subnetIndex (agentId : AgentId) : UInt32 :=
  ((agentId.uuid.byte 6).toUInt32 <<< 8 ||| (agentId.uuid.byte 7).toUInt32) &&& 0x3FFF

def networkFor (agentId : AgentId) (pool : AgentSubnetPool) : AgentNetwork :=
  let idx := subnetIndex agentId
  let base := idx * 4
  let third := (tryFromU32 (base >>> 8 &&& 0xFF)).getD 0
  let fourth := (tryFromU32 (base &&& 0xFF)).getD 0
  { hostIface := "veth-h-" ++ hex06 idx.toNat
    nsIface := "veth-a-" ++ hex06 idx.toNat
    hostIp := ofOctets pool.firstOctet pool.secondOctet third (fourth + 1)
    nsIp := ofOctets pool.firstOctet pool.secondOctet third (fourth + 2)
    network := ofOctets pool.firstOctet pool.secondOctet third fourth }

/-! ## The subnets of a pool -/

theorem subnet_address_lt (pool : AgentSubnetPool) (i : Fin 16384) :
    pool.range.address + 4 * (i : ℕ) < 2 ^ 32 := by
  have first := pool.firstOctet.toNat_lt
  have second := pool.secondOctet.toNat_lt
  have bound := i.isLt
  simp only [AgentSubnetPool.range]
  omega

theorem subnet_aligned (pool : AgentSubnetPool) (i : Fin 16384) :
    2 ^ (32 - 30) ∣ pool.range.address + 4 * (i : ℕ) := by
  have four : 2 ^ (32 - 30) = 4 := rfl
  simp only [AgentSubnetPool.range, four]
  omega

def AgentSubnetPool.subnet (pool : AgentSubnetPool) (i : Fin 16384) : Net where
  address := pool.range.address + 4 * i
  length := 30
  address_lt := subnet_address_lt pool i
  length_le := Nat.le_of_ble_eq_true rfl
  aligned := subnet_aligned pool i

section Subnets

variable (pool : AgentSubnetPool) {i j : Fin 16384}

theorem subnet_overlaps_iff : (pool.subnet i).Overlaps (pool.subnet j) ↔ i = j := by
  rw [Net.overlaps_iff_contains (le_refl 30), Fin.ext_iff]
  have four : 2 ^ (32 - 30) = 4 := rfl
  simp only [Net.Contains, AgentSubnetPool.subnet, AgentSubnetPool.range, four]
  omega

end Subnets

/-! ## The index -/

section Index

variable {agentId : AgentId}

theorem toNat_subnetIndex (agentId : AgentId) : (subnetIndex agentId).toNat =
    ((agentId.uuid.byte 6).toNat * 256 + (agentId.uuid.byte 7).toNat) % 16384 := by
  have high := (agentId.uuid.byte 6).toNat_lt
  have low : (agentId.uuid.byte 7).toNat < 2 ^ 8 := (agentId.uuid.byte 7).toNat_lt
  have shifted : ((agentId.uuid.byte 6).toUInt32 <<< 8).toNat =
      (agentId.uuid.byte 6).toNat <<< 8 := by
    rw [UInt32.toNat_shiftLeft, UInt8.toNat_toUInt32]
    show (agentId.uuid.byte 6).toNat <<< 8 % 2 ^ 32 = _
    rw [Nat.shiftLeft_eq]
    omega
  rw [subnetIndex, UInt32.toNat_and, UInt32.toNat_or, shifted, UInt8.toNat_toUInt32,
    ← Nat.shiftLeft_add_eq_or_of_lt low, Nat.shiftLeft_eq]
  exact Nat.and_two_pow_sub_one_eq_mod _ 14

def index (agentId : AgentId) : Fin 16384 :=
  ⟨(subnetIndex agentId).toNat, by
    rw [toNat_subnetIndex]
    exact Nat.mod_lt _ (by decide)⟩

theorem tryFromU32_of_lt {n : UInt32} (lt : n.toNat < 256) :
    tryFromU32 n = some (UInt8.ofNat n.toNat) := by
  rw [tryFromU32, if_pos lt, UInt8.ofNat_uInt32ToNat]

/-- The product and the conversions are exact. -/
theorem octets_eq (agentId : AgentId) :
    (subnetIndex agentId * 4).toNat = index agentId * 4 ∧
      tryFromU32 ((subnetIndex agentId * 4) >>> 8 &&& 0xFF) =
        some (UInt8.ofNat (index agentId * 4 / 256)) ∧
      tryFromU32 (subnetIndex agentId * 4 &&& 0xFF) =
        some (UInt8.ofNat (index agentId * 4 % 256)) := by
  have bound := (index agentId).isLt
  have base : (subnetIndex agentId * 4).toNat = index agentId * 4 := by
    rw [UInt32.toNat_mul]
    show (index agentId : ℕ) * 4 % 2 ^ 32 = _
    omega
  have mask : ∀ n : ℕ, n &&& 0xFF = n % 256 := fun n => Nat.and_two_pow_sub_one_eq_mod n 8
  have third : ((subnetIndex agentId * 4) >>> 8 &&& 0xFF).toNat = index agentId * 4 / 256 := by
    rw [UInt32.toNat_and, UInt32.toNat_shiftRight, base]
    show ((index agentId : ℕ) * 4) >>> 8 &&& 0xFF = _
    rw [mask, Nat.shiftRight_eq_div_pow]
    omega
  have fourth : (subnetIndex agentId * 4 &&& 0xFF).toNat = index agentId * 4 % 256 := by
    rw [UInt32.toNat_and, base]
    exact mask _
  refine ⟨base, ?_, ?_⟩
  · rw [tryFromU32_of_lt (by omega), third]
  · rw [tryFromU32_of_lt (by omega), fourth]

/-- **An agent's network is the subnet of its index**, and the ends of its link are the two usable
addresses in it. -/
theorem networkFor_eq (agentId : AgentId) (pool : AgentSubnetPool) :
    (networkFor agentId pool).network = (pool.subnet (index agentId)).address ∧
      (networkFor agentId pool).hostIp = (pool.subnet (index agentId)).address + 1 ∧
      (networkFor agentId pool).nsIp = (pool.subnet (index agentId)).address + 2 := by
  have bound := (index agentId).isLt
  obtain ⟨-, third, fourth⟩ := octets_eq agentId
  have one : (1 : UInt8).toNat = 1 := rfl
  have two : (2 : UInt8).toNat = 2 := rfl
  -- the last octet is a multiple of four, so adding to it does not wrap
  simp only [networkFor, ofOctets, UInt8.toNat_add, third, fourth, Option.getD_some,
    UInt8.toNat_ofNat', one, two, AgentSubnetPool.subnet, AgentSubnetPool.range]
  omega

theorem network_eq_iff_overlaps (pool : AgentSubnetPool) {a b : AgentId} :
    (networkFor a pool).network = (networkFor b pool).network ↔
      (pool.subnet (index a)).Overlaps (pool.subnet (index b)) := by
  rw [subnet_overlaps_iff, (networkFor_eq a pool).1, (networkFor_eq b pool).1, Fin.ext_iff]
  simp only [AgentSubnetPool.subnet]
  omega

/-! ## Two agents -/

theorem hex06_inj {m n : ℕ} (lt : m < 16384) (lt' : n < 16384) (same : hex06 m = hex06 n) :
    m = n := by
  have inj : ∀ d < 16, ∀ e < 16, Nat.digitChar d = Nat.digitChar e → d = e := by decide
  have digits : ∀ i < 6, m / 16 ^ (5 - i) % 16 = n / 16 ^ (5 - i) % 16 := by
    intro i place
    refine inj _ (Nat.mod_lt _ (by decide)) _ (Nat.mod_lt _ (by decide)) ?_
    exact map_inj_left.mp (String.ofList_injective same) i (mem_range.mpr place)
  have first := digits 2 (by decide)
  have second := digits 3 (by decide)
  have third := digits 4 (by decide)
  have fourth := digits 5 (by decide)
  simp only [Nat.reduceSub, Nat.reducePow] at first second third fourth
  omega

theorem iface_eq_iff (kind : String) {a b : AgentId} :
    kind ++ hex06 (subnetIndex a).toNat = kind ++ hex06 (subnetIndex b).toNat ↔
      index a = index b := by
  constructor
  · intro same
    exact Fin.ext (hex06_inj (index a).isLt (index b).isLt
      (String.append_right_inj kind |>.mp same))
  · intro same
    have value : ∀ c, (subnetIndex c).toNat = index c := fun _ => rfl
    rw [value, value, same]

/-- The agent's link lies in the `/30`, between its network and its broadcast address, and is
computed without an overflow. -/
structure LaidOut (pool : AgentSubnetPool) (agentId : AgentId) (net : Net) : Prop where
  length : net.length = 30
  network : (networkFor agentId pool).network = net.address
  hostIp : (networkFor agentId pool).hostIp = net.address + 1
  nsIp : (networkFor agentId pool).nsIp = net.address + 2
  contains : ∀ address, net.Contains address ↔
    net.address ≤ address ∧ address ≤ net.address + 3
  inside : ∀ address, net.Contains address → pool.range.Contains address
  named : (networkFor agentId pool).hostIface.length ≤ 15 ∧
    (networkFor agentId pool).nsIface.length ≤ 15
  fits : (subnetIndex agentId).toNat * 4 < 2 ^ 32
  octets : ∃ third fourth, tryFromU32 ((subnetIndex agentId * 4) >>> 8 &&& 0xFF) = some third ∧
    tryFromU32 (subnetIndex agentId * 4 &&& 0xFF) = some fourth ∧ fourth.toNat + 2 < 256

theorem laidOut_subnet (pool : AgentSubnetPool) (agentId : AgentId) :
    LaidOut pool agentId (pool.subnet (index agentId)) := by
  have bound := (index agentId).isLt
  have value : (subnetIndex agentId).toNat = index agentId := rfl
  obtain ⟨network, hostIp, nsIp⟩ := networkFor_eq agentId pool
  obtain ⟨-, third, fourth⟩ := octets_eq agentId
  have four : 2 ^ (32 - 30) = 4 := rfl
  have wide : 2 ^ (32 - 16) = 65536 := rfl
  have contains : ∀ address, (pool.subnet (index agentId)).Contains address ↔
      (pool.subnet (index agentId)).address ≤ address ∧
        address ≤ (pool.subnet (index agentId)).address + 3 := by
    intro address
    simp only [Net.Contains, AgentSubnetPool.subnet, AgentSubnetPool.range, four]
    omega
  refine ⟨rfl, network, hostIp, nsIp, contains, fun address mem => ?_, ?_, by omega,
    _, _, third, fourth, ?_⟩
  · have between := (contains address).mp mem
    simp only [AgentSubnetPool.subnet, AgentSubnetPool.range] at between
    simp only [Net.Contains, AgentSubnetPool.range, wide]
    omega
  · simp only [networkFor, hex06, String.length_append, String.length_ofList, length_map,
      length_range]
    decide
  · rw [UInt8.toNat_ofNat']
    omega

/-- **Two agents have one `/30` or disjoint ones**, in the pool, each with the two usable addresses
for its link; the names of their interfaces are equal exactly if the subnets are. -/
theorem networks_laidOut (pool : AgentSubnetPool) (a b : AgentId) :
    ∃ net net', LaidOut pool a net ∧ LaidOut pool b net' ∧ (net = net' ∨ ¬ net.Overlaps net') ∧
      ((networkFor a pool).hostIface = (networkFor b pool).hostIface ↔ net = net') ∧
      ((networkFor a pool).nsIface = (networkFor b pool).nsIface ↔ net = net') := by
  have same : pool.subnet (index a) = pool.subnet (index b) ↔ index a = index b := by
    refine ⟨fun same => (subnet_overlaps_iff pool).mp ?_, congrArg pool.subnet⟩
    rw [same]
    exact (subnet_overlaps_iff pool).mpr rfl
  refine ⟨_, _, laidOut_subnet pool a, laidOut_subnet pool b, ?_, ?_, ?_⟩
  · rw [same, subnet_overlaps_iff]
    exact em _
  · rw [same]
    exact iface_eq_iff "veth-h-"
  · rw [same]
    exact iface_eq_iff "veth-a-"

/-! ## Ids of version 7 -/

/-- **Two bits of the index are the version.** -/
theorem index_of_isV7 (v7 : agentId.uuid.IsV7) : 12288 ≤ (index agentId : ℕ) := by
  have version := v7.1
  have low := (agentId.uuid.byte 7).toNat_lt
  have value : (index agentId : ℕ) =
      ((agentId.uuid.byte 6).toNat * 256 + (agentId.uuid.byte 7).toNat) % 16384 :=
    toNat_subnetIndex agentId
  omega

def v7With (n : ℕ) : AgentId :=
  ⟨uuidOf ((0x7000 + n) * 2 ^ 64 + 0x8 * 2 ^ 60)⟩

theorem byte_v7With {n : ℕ} (lt : n < 4096) : ((v7With n).uuid.byte 6).toNat = 0x70 + n / 256 ∧
    ((v7With n).uuid.byte 7).toNat = n % 256 ∧ ((v7With n).uuid.byte 8).toNat = 0x80 := by
  have bits : (v7With n).uuid.bits.toNat = (0x7000 + n) * 2 ^ 64 + 0x8 * 2 ^ 60 := by
    rw [v7With, uuidOf, BitVec.toNat_ofNat]
    exact Nat.mod_eq_of_lt (by omega)
  simp only [Uuid.byte, bits, UInt8.toNat_ofNat']
  omega

theorem isV7_v7With {n : ℕ} (lt : n < 4096) : (v7With n).uuid.IsV7 := by
  obtain ⟨six, -, eight⟩ := byte_v7With lt
  constructor
  · rw [six]
    omega
  · rw [eight]

theorem index_v7With {n : ℕ} (lt : n < 4096) : (index (v7With n) : ℕ) = 12288 + n := by
  obtain ⟨six, seven, -⟩ := byte_v7With lt
  have value : (index (v7With n) : ℕ) = (((v7With n).uuid.byte 6).toNat * 256 +
      ((v7With n).uuid.byte 7).toNat) % 16384 := toNat_subnetIndex _
  rw [six, seven] at value
  omega

end Index

def Reached (pool : AgentSubnetPool) (i : Fin 16384) : Prop :=
  ∃ agentId : AgentId, agentId.uuid.IsV7 ∧
    (networkFor agentId pool).network = (pool.subnet i).address

/-- The agents can run side by side: their ids are of version 7 and no two of them
share a network. -/
def SideBySide (pool : AgentSubnetPool) (agents : List AgentId) : Prop :=
  (∀ agentId ∈ agents, agentId.uuid.IsV7) ∧
    agents.Pairwise fun a b => (networkFor a pool).network ≠ (networkFor b pool).network

variable {pool : AgentSubnetPool}

theorem reached_iff_index {i : Fin 16384} :
    Reached pool i ↔ ∃ agentId : AgentId, agentId.uuid.IsV7 ∧ index agentId = i := by
  refine exists_congr fun agentId => and_congr_right fun _ => ?_
  rw [(networkFor_eq agentId pool).1, Fin.ext_iff]
  simp only [AgentSubnetPool.subnet]
  omega

theorem reached_iff {i : Fin 16384} : Reached pool i ↔ 12288 ≤ (i : ℕ) := by
  rw [reached_iff_index]
  constructor
  · rintro ⟨agentId, v7, rfl⟩
    exact index_of_isV7 v7
  · intro upper
    have lt : (i : ℕ) - 12288 < 4096 := by
      have := i.isLt
      omega
    refine ⟨v7With (i - 12288), isV7_v7With lt, Fin.ext ?_⟩
    rw [index_v7With lt]
    omega

theorem length_le_of_sideBySide {agents : List AgentId} (sideBySide : SideBySide pool agents) :
    agents.length ≤ 4096 := by
  have distinct : (agents.map fun a => (index a : ℕ)).Nodup := by
    refine pairwise_map.mpr (sideBySide.2.imp fun {a b} differ same => differ ?_)
    exact (network_eq_iff_overlaps pool).mpr ((subnet_overlaps_iff pool).mpr (Fin.ext same))
  have within : (agents.map fun a => (index a : ℕ)).toFinset ⊆ Finset.Ico 12288 16384 := by
    intro n mem
    obtain ⟨agentId, isAgent, rfl⟩ := mem_map.mp (mem_toFinset.mp mem)
    exact Finset.mem_Ico.mpr ⟨index_of_isV7 (sideBySide.1 agentId isAgent), (index agentId).isLt⟩
  have card := Finset.card_le_card within
  rwa [toFinset_card_of_nodup distinct, length_map, Nat.card_Ico] at card

theorem sideBySide_v7With (pool : AgentSubnetPool) :
    SideBySide pool ((List.range 4096).map v7With) := by
  constructor
  · intro agentId mem
    obtain ⟨n, lt, rfl⟩ := mem_map.mp mem
    exact isV7_v7With (mem_range.mp lt)
  · refine pairwise_map.mpr (nodup_range.imp_of_mem fun {m n} first second differ => ?_)
    rw [Ne, network_eq_iff_overlaps, subnet_overlaps_iff, Fin.ext_iff,
      index_v7With (mem_range.mp first),
      index_v7With (mem_range.mp second)]
    omega

/-- **A quarter of every pool is reached**: the subnets from the 12288th on.  So up to 4096 agents
can run side by side, and no more. -/
theorem upper_quarter_reached (pool : AgentSubnetPool) :
    (∀ i : Fin 16384, Reached pool i ↔ 12288 ≤ (i : ℕ)) ∧
      (∀ agents, SideBySide pool agents → agents.length ≤ 4096) ∧
      ∃ agents, SideBySide pool agents ∧ agents.length = 4096 := by
  refine ⟨fun i => reached_iff, fun agents => length_le_of_sideBySide, _,
    sideBySide_v7With pool, ?_⟩
  rw [length_map, length_range]

theorem last_subnet_reached : Reached {} 16383 :=
  ((upper_quarter_reached {}).1 16383).mpr (by decide)

/-- **The first subnet of the default pool is that of no agent**, and 16384 agents cannot run side
by side. -/
theorem first_subnet_unreached :
    ¬ Reached {} 0 ∧ ¬ ∃ agents, SideBySide {} agents ∧ agents.length = 16384 := by
  constructor
  · rw [reached_iff]
    decide
  · rintro ⟨agents, sideBySide, all⟩
    have := length_le_of_sideBySide sideBySide
    omega

end Havn.Spawner
