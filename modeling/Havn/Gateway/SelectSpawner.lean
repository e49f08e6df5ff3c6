import Havn.Spawner.Network

/-!
# Choosing the spawner at start-up

`select_spawner` of `havn-gateway/src/main.rs`: the pool is checked against the host's routes before
the interfaces that a killed gateway left behind, with their routes, are removed.
-/

namespace Havn.Gateway.SelectSpawner

open Lib Spawner Ipv4 List

/-- A virtual interface, as `ip -o link show type veth` lists it. -/
structure Veth where
  index : ℕ
  name : List Char
  rest : List Char
  named : ∀ c ∈ name, isWhitespace c = false ∧ c ≠ '@' := by
    exact all_iff_forall_prop.mp (by decide)

def Veth.line (veth : Veth) : List Char :=
  Nat.toDigits 10 veth.index ++ ':' :: ' ' :: (veth.name ++ '@' :: veth.rest)

structure Host where
  veths : List Veth := []
  /-- The routes, each with its device. -/
  routes : List (List Char × Route) := []

def isOrphan (name : List Char) : Bool := "veth-h-".toList.isPrefixOf name

def afterIndex : List Char → Option (List Char)
  | ':' :: ' ' :: rest => some rest
  | _ :: rest => afterIndex rest
  | [] => none

def vethName (line : List Char) : Option (List Char) :=
  (afterIndex line).map fun rest => trimEnd (trimStart (rest.takeWhile (· ≠ '@')))

def orphans (host : Host) : List (List Char) :=
  ((host.veths.map Veth.line).filterMap vethName).filter isOrphan

/-- Deleting an interface takes its routes along. -/
def gcOrphanedVeth (host : Host) : Host where
  veths := host.veths.filter fun veth => (orphans host).all (· ≠ veth.name)
  routes := host.routes.filter fun route => (orphans host).all (· ≠ route.1)

inductive Startup
  | exits (message : String)
  | subprocess
  | isolated (pool : AgentSubnetPool) (host : Host)

/-- `forced` asks for the other spawner; without `cgroups` there is no isolation.  The NAT rules are
left out. -/
def selectSpawner (debug : String → String) (cidr : String) (forced cgroups : Bool)
    (host : Host) : Startup :=
  let pool := (AgentSubnetPool.parse debug cidr).toOption.getD {}
  if forced then .subprocess
  else
    match pool.refuseOnRouteConflict (.printed (Route.printed (host.routes.map Prod.snd))) with
    | .error message => .exits message
    | .ok () => if cgroups then .isolated pool (gcOrphanedVeth host) else .subprocess

/-! ## What the clean-up removes -/

theorem afterIndex_append {digits : List Char} (free : ':' ∉ digits) (rest : List Char) :
    afterIndex (digits ++ ':' :: ' ' :: rest) = some rest := by
  induction digits with
  | nil => rfl
  | cons c digits ih =>
    obtain ⟨other, free⟩ := not_or.mp (mt mem_cons.mpr free)
    rw [cons_append, afterIndex, ih free]
    exact fun _ same _ => other same.symm

theorem vethName_line (veth : Veth) : vethName veth.line = some veth.name := by
  have name : (veth.name ++ '@' :: veth.rest).takeWhile (· ≠ '@') = veth.name := by
    rw [takeWhile_append_of_pos (by simpa using fun c mem => (veth.named c mem).2)]
    simp
  rw [vethName, Veth.line, afterIndex_append (not_mem_toDigits rfl _), Option.map_some, name,
    trimmed_of_ends]
  exact fun c ends => (veth.named c (ends.elim mem_of_mem_head? mem_of_getLast?)).1

theorem not_isOrphan_of_gc {host : Host} {veth : Veth} (left : veth ∈ (gcOrphanedVeth host).veths) :
    isOrphan veth.name = false := by
  obtain ⟨listed, kept⟩ := mem_filter.mp left
  by_contra orphan
  refine of_decide_eq_true (all_eq_true.mp kept _ (mem_filter.mpr
    ⟨?_, Bool.eq_true_of_not_eq_false orphan⟩)) rfl
  exact mem_filterMap.mpr ⟨_, mem_map_of_mem listed, vethName_line veth⟩

/-! ## Starting after a crash -/

/-- The connected route of an interface that an earlier run left behind. -/
def Leftover (pool : AgentSubnetPool) (host : Host) (entry : List Char × Route) : Prop :=
  (isOrphan entry.1 = true ∧ ∃ veth ∈ host.veths, veth.name = entry.1) ∧
    entry.2.type = none ∧ entry.2.dest.length = 30 ∧ pool.range.Contains entry.2.dest.address

def Recovers (pool : AgentSubnetPool) (startup : Startup) : Prop :=
  ∃ host, startup = .isolated pool host ∧ ∀ veth ∈ host.veths, isOrphan veth.name = false

variable {pool : AgentSubnetPool} {host : Host} {entry : List Char × Route}

theorem Leftover.conflicts (leftover : Leftover pool host entry) :
    pool.Conflicts entry.2.dest ∧ ¬ entry.2.Misjudged pool := by
  obtain ⟨-, usual, thirty, inside⟩ := leftover
  have longer : pool.range.length ≤ entry.2.dest.length := by
    rw [thirty]
    exact (by decide : 16 ≤ 30)
  refine ⟨⟨?_, by omega, ?_⟩, ?_⟩
  · intro same
    rw [same] at thirty
    exact absurd thirty (by decide : 16 ≠ 30)
  · rwa [Net.overlaps_comm, Net.overlaps_iff_contains longer]
  · rintro (⟨-, -, short, -⟩ | ⟨typed, -⟩)
    · omega
    · exact typed usual

theorem check_entry_iff (known : Leftover pool host entry ∨ ¬ pool.Conflicts entry.2.dest) :
    pool.checkDestination (firstWord entry.2.line) = .ok () ↔
      ¬ Leftover pool host entry ∧ ¬ entry.2.Misjudged pool := by
  rw [Route.check_line_iff]
  constructor
  · intro passes
    have judged : ¬ entry.2.Misjudged pool := fun misjudged =>
      known.elim (fun leftover => leftover.conflicts.2 misjudged) (· (passes.mpr misjudged))
    exact ⟨fun leftover => judged (passes.mp leftover.conflicts.1), judged⟩
  · exact fun spared => iff_of_false (known.resolve_left spared.1) spared.2

/-- **A gateway that was killed does not start again**: on a host with leftovers and without
conflicting routes, start-up removes the leftovers exactly when none of them has a route and the
check misjudges no other one. -/
theorem selectSpawner_recovers_iff (debug : String → String) (pool : AgentSubnetPool) (host : Host)
    (known : ∀ entry ∈ host.routes, Leftover pool host entry ∨ ¬ pool.Conflicts entry.2.dest) :
    Recovers pool (selectSpawner debug pool.cidr false true host) ↔
      ∀ entry ∈ host.routes, ¬ Leftover pool host entry ∧ ¬ entry.2.Misjudged pool := by
  have passes : pool.refuseOnRouteConflict (.printed (Route.printed (host.routes.map Prod.snd))) =
      .ok () ↔ ∀ entry ∈ host.routes, ¬ Leftover pool host entry ∧ ¬ entry.2.Misjudged pool := by
    rw [AgentSubnetPool.refuse_printed_eq_ok_iff, forall_mem_map]
    exact forall₂_congr fun entry mem => check_entry_iff (known entry mem)
  rw [← passes, selectSpawner, AgentSubnetPool.parse_cidr]
  constructor
  · rintro ⟨after, started, -⟩
    split at started
    · cases started
    · cases checked : pool.refuseOnRouteConflict _ with
      | error => simp [Except.toOption, checked] at started
      | ok => rfl
  · intro checked
    exact ⟨gcOrphanedVeth host, by simp [Except.toOption, checked], fun veth => not_isOrphan_of_gc⟩

def orphan : Veth where
  index := 25
  name := "veth-h-0034e1".toList
  rest := "if24: <NO-CARRIER> mtu 1500".toList

def cleanHost : Host where
  veths := [orphan]
  routes := AgentSubnetPool.dockerHost.map fun route => ("eth0".toList, route)

theorem selectSpawner_recovers_cleanHost :
    Recovers {} (selectSpawner id (AgentSubnetPool.cidr {}) false true cleanHost) := by
  have free : ∀ route ∈ AgentSubnetPool.dockerHost, ¬ AgentSubnetPool.Conflicts {} route.dest ∧
      ¬ route.Misjudged {} := by decide
  rw [selectSpawner_recovers_iff id {} cleanHost
    (forall_mem_map.mpr fun route mem => .inr (free route mem).1)]
  exact forall_mem_map.mpr fun route mem =>
    ⟨fun leftover => (free route mem).1 leftover.conflicts.1, (free route mem).2⟩

def crashedHost : Host where
  veths := [orphan]
  routes := [(orphan.name,
    { dest := ⟨10 * 2 ^ 24 + 42 * 2 ^ 16 + 0xd384, 30, by decide, by decide, by decide⟩
      attributes := " dev veth-h-0034e1 scope link ".toList })]

/-- **The leftover of one agent is enough**: the gateway refuses to start. -/
theorem selectSpawner_exits_crashedHost :
    (∀ entry ∈ crashedHost.routes, Leftover {} crashedHost entry) ∧
      ∃ message, selectSpawner id (AgentSubnetPool.cidr {}) false true crashedHost =
        .exits message := by
  have leftover : ∀ entry ∈ crashedHost.routes, Leftover {} crashedHost entry := by
    intro entry mem
    obtain rfl := mem_singleton.mp mem
    exact ⟨⟨rfl, orphan, mem_cons_self, rfl⟩, rfl, rfl, by decide⟩
  refine ⟨leftover, ?_⟩
  cases checked : AgentSubnetPool.refuseOnRouteConflict {}
      (.printed (Route.printed (crashedHost.routes.map Prod.snd))) with
  | error message =>
    exact ⟨message, by simp [selectSpawner, AgentSubnetPool.parse_cidr, Except.toOption, checked]⟩
  | ok =>
    rw [AgentSubnetPool.refuse_printed_eq_ok_iff, forall_mem_map] at checked
    have own := leftover _ mem_cons_self
    exact absurd own ((check_entry_iff (.inl own)).mp (checked _ mem_cons_self)).1

end Havn.Gateway.SelectSpawner
