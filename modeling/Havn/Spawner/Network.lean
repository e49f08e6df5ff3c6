import Mathlib.Data.Bool.AllAny
import Havn.Lib.Except
import Havn.Lib.Ipv4
import Havn.Lib.Lines

/-!
# The agents' address pool

`havn-spawner/src/network.rs`: each agent gets a `/30` out of a `/16` pool.  At startup the spawner
refuses a pool that another route of the host already uses.
-/

namespace Havn.Spawner

open Lib Ipv4 List

structure AgentSubnetPool where
  firstOctet : UInt8 := 10
  secondOctet : UInt8 := 42
  deriving DecidableEq

namespace AgentSubnetPool

/-! ## The configured text -/

variable (debug : String → String)

def parseOctet (cidr : String) (index : ℕ) (part : List Char) : Except String UInt8 :=
  match readUnsigned 256 part with
  | .ok value => .ok (UInt8.ofNat value)
  | .error e => .error ("agent_pool_cidr " ++ debug cidr ++ " octet " ++ toString index ++ ": " ++
      e.display)

def parseZeroOctet (cidr : String) (index : ℕ) (part : List Char) : Except String Unit := do
  let value ← parseOctet debug cidr index part
  if value = 0 then .ok ()
  else .error ("agent_pool_cidr " ++ debug cidr ++
    " must end in .0.0/16 (operator confused about /16 semantics)")

def parse (cidr : String) : Except String AgentSubnetPool :=
  match splitOnce '/' cidr.toList with
  | none => .error ("agent_pool_cidr " ++ debug cidr ++ " missing /<prefix>")
  | some (addr, length) =>
    if trim (String.ofList length) ≠ "16" then
      .error ("agent_pool_cidr " ++ debug cidr ++
        " prefix must be /16 (per-agent /30 allocation needs 14 bits of host space)")
    else
      match addr.splitOn '.' with
      | [first, second, third, fourth] => do
          let a ← parseOctet debug cidr 0 first
          let b ← parseOctet debug cidr 1 second
          parseZeroOctet debug cidr 2 third
          parseZeroOctet debug cidr 3 fourth
          .ok ⟨a, b⟩
      | _ => .error ("agent_pool_cidr " ++ debug cidr ++ " not a valid IPv4 address")

def cidr (pool : AgentSubnetPool) : String :=
  toString pool.firstOctet.toNat ++ "." ++ toString pool.secondOctet.toNat ++ ".0.0/16"

/-! ## The check of the routing table -/

inductive RouteShow where
  | notRun (error : String)
  | failed (status stderr : String)
  | printed (stdout : String)

def startsInPool (pool : AgentSubnetPool) (dest : List Char) : Bool :=
  (toString pool.firstOctet.toNat ++ "."
    ++ toString pool.secondOctet.toNat ++ ".").toList.isPrefixOf dest

def coversPool (pool : AgentSubnetPool) (dest : List Char) : Bool :=
  match splitOnce '/' dest with
  | none => false
  | some (addr, length) =>
    match (addr.splitOn '.').head?.map (readUnsigned 256), readUnsigned 256 length with
    | some (.ok octet), .ok length => octet = pool.firstOctet.toNat ∧ length < 16
    | _, _ => false

def checkDestination (pool : AgentSubnetPool) (dest : List Char) : Except String Unit :=
  if dest = pool.cidr.toList then .ok ()
  else if startsInPool pool dest then
    .error ("host already has route " ++ String.ofList dest ++ " which overlaps havn pool " ++
      pool.cidr ++ "; change `[network] agent_pool_cidr` in gateway config to a free range")
  else if coversPool pool dest then
    .error ("host route " ++ String.ofList dest ++ " covers havn pool " ++ pool.cidr ++
      "; agent egress would clash with that interface")
  else .ok ()

def refuseOnRouteConflict (pool : AgentSubnetPool) : RouteShow → Except String Unit
  | .notRun e => .error ("ip route show: " ++ e)
  | .failed status stderr =>
    .error ("ip route show exited " ++ status ++ ": " ++ trim stderr)
  | .printed stdout =>
    (lines stdout.toList).forM fun line => pool.checkDestination (firstWord line)

/-! ## The pool as a network -/

def range (pool : AgentSubnetPool) : Net where
  address := pool.firstOctet.toNat * 2 ^ 24 + pool.secondOctet.toNat * 2 ^ 16
  length := 16
  address_lt := by
    have := pool.firstOctet.toNat_lt
    have := pool.secondOctet.toNat_lt
    omega
  length_le := by decide
  aligned := by
    have : 2 ^ (32 - 16) = 2 ^ 16 := rfl
    omega

variable {pool : AgentSubnetPool} {net : Net}

theorem octet_range (pool : AgentSubnetPool) :
    octet 24 pool.range.address = pool.firstOctet.toNat ∧
      octet 16 pool.range.address = pool.secondOctet.toNat ∧
      octet 8 pool.range.address = 0 ∧ octet 0 pool.range.address = 0 := by
  have := pool.firstOctet.toNat_lt
  have := pool.secondOctet.toNat_lt
  simp only [octet, range]
  omega

theorem text_range (pool : AgentSubnetPool) :
    pool.range.text = Net.dotted pool.range.address ++ ['/', '1', '6'] := by
  have proper : pool.range.length ≠ 0 := Nat.succ_ne_zero 15
  have more : pool.range.length ≠ 32 := Nat.ne_of_lt (by decide : 16 < 32)
  have sixteen : Nat.toDigits 10 16 = ['1', '6'] := by decide
  rw [Net.text_of_inside proper more]
  exact congrArg (fun digits => Net.dotted pool.range.address ++ '/' :: digits) sixteen

theorem toList_cidr (pool : AgentSubnetPool) : pool.cidr.toList = pool.range.text := by
  obtain ⟨first, second, third, fourth⟩ := octet_range pool
  rw [text_range, Net.dotted, first, second, third, fourth]
  simp only [cidr, String.toList_append, Nat.toString_eq_repr, Nat.toList_repr,
    append_assoc, cons_append]
  rfl

theorem parse_cidr (pool : AgentSubnetPool) : parse debug pool.cidr = .ok pool := by
  obtain ⟨first, second, third, fourth⟩ := octet_range pool
  have free : ∀ n, '.' ∉ Nat.toDigits 10 n := not_mem_toDigits rfl
  have parts : (Net.dotted pool.range.address).splitOn '.' =
      [Nat.toDigits 10 pool.firstOctet.toNat, Nat.toDigits 10 pool.secondOctet.toNat, ['0'],
        ['0']] := by
    rw [Net.dotted, first, second, third, fourth, splitOn_append_cons_self,
      splitOn_append_cons_self, splitOn_eq_singleton (free _),
      splitOn_eq_singleton (free _)]
    rfl
  have read : ∀ index (octet : UInt8),
      parseOctet debug pool.cidr index (Nat.toDigits 10 octet.toNat) = .ok octet := by
    intro index octet
    rw [parseOctet, readUnsigned_toDigits octet.toNat_lt]
    exact congrArg _ UInt8.ofNat_toNat
  have zero : ∀ index, parseZeroOctet debug pool.cidr index ['0'] = .ok () := by
    intro index
    rw [parseZeroOctet]
    exact bind_eq_ok.mpr ⟨0, read index 0, rfl⟩
  have split : splitOnce '/' pool.cidr.toList =
      some (Net.dotted pool.range.address, ['1', '6']) := by
    rw [toList_cidr, text_range]
    exact splitOnce_append (Net.slash_not_mem_dotted _) _
  have sixteen : trim (String.ofList ['1', '6']) = "16" := by decide +kernel
  rw [parse, split]
  simp only [sixteen, ne_eq, not_true_eq_false, if_false, parts, read, zero]
  rfl

/-! ## What the tests on the text say of the addresses -/

theorem range_contains_iff {address : ℕ} (lt : address < 2 ^ 32) :
    pool.range.Contains address ↔
      octet 24 address = pool.firstOctet.toNat ∧ octet 16 address = pool.secondOctet.toNat := by
  have := pool.firstOctet.toNat_lt
  have := pool.secondOctet.toNat_lt
  show address / 2 ^ 16 = pool.range.address / 2 ^ 16 ↔ _
  simp only [octet, range]
  omega

theorem startsInPool_text_iff :
    startsInPool pool net.text = true ↔ net.length ≠ 0 ∧ pool.range.Contains net.address := by
  have free : ∀ n, '.' ∉ Nat.toDigits 10 n := not_mem_toDigits rfl
  have opening : (toString pool.firstOctet.toNat ++ "." ++ toString pool.secondOctet.toNat ++
      ".").toList = Nat.toDigits 10 pool.firstOctet.toNat ++
        '.' :: (Nat.toDigits 10 pool.secondOctet.toNat ++ ['.']) := by
    simp only [String.toList_append, Nat.toString_eq_repr, Nat.toList_repr, append_assoc]
    rfl
  rw [startsInPool, opening, isPrefixOf_iff_prefix]
  by_cases all : net.length = 0
  · rw [Net.text_of_all all]
    refine ⟨fun ⟨rest, starts⟩ => ?_, fun inside => absurd all inside.1⟩
    have dot : '.' ∈ "default".toList := by
      rw [← starts]
      simp
    exact absurd dot (by decide)
  · obtain ⟨tail, text⟩ := Net.exists_text all
    rw [range_contains_iff net.address_lt, text]
    constructor
    · rintro ⟨rest, starts⟩
      simp only [append_assoc, cons_append, nil_append] at starts
      rw [append_delimiter_inj (free _) (free _), append_delimiter_inj (free _) (free _),
        toDigits_inj, toDigits_inj] at starts
      exact ⟨all, starts.1.symm, starts.2.1.symm⟩
    · rintro ⟨-, first, second⟩
      rw [first, second]
      exact ⟨tail, by simp⟩

theorem coversPool_text_iff :
    coversPool pool net.text = true ↔
      net.length ≠ 0 ∧ net.length < 16 ∧ octet 24 net.address = pool.firstOctet.toNat := by
  by_cases inside : net.length ≠ 0 ∧ net.length ≠ 32
  · have free : ∀ n, '.' ∉ Nat.toDigits 10 n := not_mem_toDigits rfl
    have octetLt : octet 24 net.address < 256 := Nat.mod_lt _ (by decide)
    have lengthLt : net.length < 256 := Nat.lt_of_le_of_lt net.length_le (by decide)
    have first : ((Net.dotted net.address).splitOn '.').head? =
        some (Nat.toDigits 10 (octet 24 net.address)) := by
      rw [Net.dotted, splitOn_append_cons_self, splitOn_eq_singleton (free _)]
      rfl
    rw [coversPool, Net.text_of_inside inside.1 inside.2,
      splitOnce_append (Net.slash_not_mem_dotted _)]
    simp only [first, Option.map_some, readUnsigned_toDigits octetLt,
      readUnsigned_toDigits lengthLt, decide_eq_true_eq]
    constructor
    · rintro ⟨same, short⟩
      exact ⟨inside.1, short, same⟩
    · rintro ⟨-, short, same⟩
      exact ⟨same, short⟩
  · rw [coversPool, splitOnce_of_free (mt Net.slash_mem_text_iff.mp inside)]
    constructor
    · intro covers
      cases covers
    · rintro ⟨proper, short, -⟩
      refine absurd ⟨proper, ?_⟩ inside
      omega

/-- The destination is judged by its first octet, and that is not the answer. -/
def Misjudged (pool : AgentSubnetPool) (net : Net) : Prop :=
  net.length ≠ 0 ∧ net.length < 16 ∧
    ¬ (octet 24 net.address = pool.firstOctet.toNat ↔ net.Contains pool.range.address)
  deriving Decidable

/-- The destination is another network than the pool and the default route, and
it overlaps the pool. -/
def Conflicts (pool : AgentSubnetPool) (net : Net) : Prop :=
  net ≠ pool.range ∧ net.length ≠ 0 ∧ net.Overlaps pool.range
  deriving Decidable

theorem checkDestination_eq_ok_iff :
    pool.checkDestination net.text = .ok () ↔ net = pool.range ∨
      ¬ (startsInPool pool net.text = true ∨ coversPool pool net.text = true) := by
  have same : net.text = pool.cidr.toList ↔ net = pool.range := by
    rw [toList_cidr, Net.text_inj]
  rw [checkDestination]
  by_cases own : net = pool.range
  · rw [if_pos (same.mpr own)]
    exact ⟨fun _ => .inl own, fun _ => rfl⟩
  · rw [if_neg (mt same.mp own)]
    by_cases starts : startsInPool pool net.text = true
    · simp [starts, own]
    · by_cases covers : coversPool pool net.text = true
      · simp [starts, covers, own]
      · simp [starts, covers]

theorem check_agrees_iff :
    (pool.checkDestination net.text = .ok () ↔ ¬ Conflicts pool net) ↔ ¬ Misjudged pool net := by
  rw [checkDestination_eq_ok_iff, startsInPool_text_iff, coversPool_text_iff, Conflicts, Misjudged]
  by_cases all : net.length = 0
  · simp [all]
  · by_cases short : net.length < 16
    · -- a destination that starts in the pool has the pool's first octet
      have starts : pool.range.Contains net.address →
          octet 24 net.address = pool.firstOctet.toNat :=
        fun inside => ((range_contains_iff net.address_lt).mp inside).1
      have other : net ≠ pool.range := by
        rintro rfl
        exact Nat.lt_irrefl 16 short
      have contains : net.Overlaps pool.range ↔ net.Contains pool.range.address :=
        Net.overlaps_iff_contains (Nat.le_of_lt short)
      simp [all, short, other, contains, or_iff_right_of_imp starts, not_iff_not]
    · have longer : pool.range.length ≤ net.length := Nat.not_lt.mp short
      rw [Net.overlaps_comm, Net.overlaps_iff_contains longer]
      simp [all, short, or_iff_not_imp_left]

end AgentSubnetPool

/-! ## The routing table -/

inductive RouteType where
  | local'
  | broadcast
  | anycast
  | multicast
  | blackhole
  | unreachable
  | prohibit
  | throw
  deriving DecidableEq

def RouteType.name : RouteType → List Char
  | .local' => "local".toList
  | .broadcast => "broadcast".toList
  | .anycast => "anycast".toList
  | .multicast => "multicast".toList
  | .blackhole => "blackhole".toList
  | .unreachable => "unreachable".toList
  | .prohibit => "prohibit".toList
  | .throw => "throw".toList

/-- A destination and what is printed after it; routes of the usual type have no type in front. -/
structure Route where
  type : Option RouteType := none
  dest : Net
  attributes : List Char := []
  separated : ∀ c ∈ attributes.head?, isWhitespace c = true := by rintro c ⟨⟩ <;> rfl
  oneLine : ∀ c ∈ attributes, c ≠ '\n' ∧ c ≠ '\r' := by
    exact all_iff_forall_prop.mp (by decide)

namespace Route

def line (route : Route) : List Char :=
  match route.type with
  | none => route.dest.text ++ route.attributes
  | some type => type.name ++ ' ' :: (route.dest.text ++ route.attributes)

def printed (table : List Route) : String :=
  String.ofList (table.map (·.line ++ ['\n'])).flatten

/-- Its destination is misjudged, or it is not looked at because it stands behind a type. -/
def Misjudged (pool : AgentSubnetPool) (route : Route) : Prop :=
  (route.type = none ∧ pool.Misjudged route.dest) ∨
    (route.type ≠ none ∧ pool.Conflicts route.dest)
  deriving Decidable

variable {pool : AgentSubnetPool} {route : Route}

theorem letter_of_mem_name {type : RouteType} {c : Char} (mem : c ∈ type.name) :
    isWhitespace c = false ∧ c ≠ '.' ∧ c ≠ '/' := by
  have letters : ∀ c ∈ type.name, isWhitespace c = false ∧ c ≠ '.' ∧ c ≠ '/' := by
    cases type <;> exact all_iff_forall_prop.mp (by decide)
  exact letters c mem

theorem visible_of_mem_text {net : Net} {c : Char} (mem : c ∈ net.text) :
    isWhitespace c = false := by
  rcases Net.mem_text mem with letter | rfl | rfl | digit
  · have letters : ∀ c ∈ "default".toList, isWhitespace c = false :=
      all_iff_forall_prop.mp (by decide)
    exact letters c letter
  · rfl
  · rfl
  · exact isWhitespace_of_isDigit digit

theorem firstWord_line_none (usual : route.type = none) :
    firstWord route.line = route.dest.text := by
  simp only [line, usual]
  exact firstWord_append (fun c => visible_of_mem_text) route.dest.text_ne_nil route.separated

theorem firstWord_line_some {type : RouteType} (typed : route.type = some type) :
    firstWord route.line = type.name := by
  simp only [line, typed]
  refine firstWord_append (fun c mem => (letter_of_mem_name mem).1) ?_ ?_
  · cases type <;> decide
  · intro c first
    obtain rfl := Option.some.inj first
    rfl

theorem line_plain (route : Route) : '\n' ∉ route.line ∧ route.line.getLast? ≠ some '\r' := by
  have text : ∀ c ∈ route.dest.text ++ route.attributes, c ≠ '\n' ∧ c ≠ '\r' := by
    intro c mem
    rcases mem_append.mp mem with mem | mem
    · have visible := visible_of_mem_text mem
      constructor <;> rintro rfl <;> exact absurd visible (by decide)
    · exact route.oneLine c mem
  have whole : ∀ c ∈ route.line, c ≠ '\n' ∧ c ≠ '\r' := by
    intro c mem
    rw [line] at mem
    split at mem
    · exact text c mem
    · rcases mem_append.mp mem with mem | mem
      · have visible := (letter_of_mem_name mem).1
        constructor <;> rintro rfl <;> exact absurd visible (by decide)
      · rcases mem_cons.mp mem with rfl | mem
        · decide
        · exact text c mem
  exact ⟨fun mem => (whole _ mem).1 rfl, fun last => (whole _ (mem_of_getLast? last)).2 rfl⟩

theorem checkDestination_word {word : List Char} (dots : '.' ∉ word) (slashes : '/' ∉ word) :
    pool.checkDestination word = .ok () := by
  have starts : pool.startsInPool word ≠ true := by
    rw [AgentSubnetPool.startsInPool, Ne, isPrefixOf_iff_prefix]
    rintro ⟨rest, rfl⟩
    exact dots (by simp)
  have covers : pool.coversPool word ≠ true := by
    rw [AgentSubnetPool.coversPool, splitOnce_of_free slashes]
    exact Bool.false_ne_true
  rw [AgentSubnetPool.checkDestination, if_neg starts, if_neg covers, ite_self]

/-- A line passes if it has no conflict and is judged right, or has one and is misjudged. -/
theorem check_line_iff : pool.checkDestination (firstWord route.line) = .ok () ↔
    (pool.Conflicts route.dest ↔ route.Misjudged pool) := by
  cases typed : route.type with
  | none =>
    have agrees : (pool.checkDestination route.dest.text = .ok () ↔ ¬ pool.Conflicts route.dest) ↔
        ¬ pool.Misjudged route.dest := AgentSubnetPool.check_agrees_iff
    have judged : route.Misjudged pool ↔ pool.Misjudged route.dest := by simp [Misjudged, typed]
    rw [firstWord_line_none typed, judged]
    tauto
  | some type =>
    have judged : route.Misjudged pool ↔ pool.Conflicts route.dest := by simp [Misjudged, typed]
    rw [firstWord_line_some typed, judged]
    refine ⟨fun _ => Iff.rfl, fun _ => checkDestination_word ?_ ?_⟩
    · exact fun mem => (letter_of_mem_name mem).2.1 rfl
    · exact fun mem => (letter_of_mem_name mem).2.2 rfl

end Route

namespace AgentSubnetPool

variable {pool : AgentSubnetPool} {table : List Route}

theorem refuse_printed_eq_ok_iff :
    pool.refuseOnRouteConflict (.printed (Route.printed table)) = .ok () ↔
      ∀ route ∈ table, pool.checkDestination (firstWord route.line) = .ok () := by
  have plain : ∀ text ∈ table.map Route.line, '\n' ∉ text ∧ text.getLast? ≠ some '\r' :=
    forall_mem_map.mpr fun route _ => route.line_plain
  have split : lines (table.map (·.line ++ ['\n'])).flatten = table.map Route.line := by
    rw [← lines_flatten plain, map_map]
    rfl
  rw [refuseOnRouteConflict, Route.printed, String.toList_ofList, split, forM_eq_ok,
    forall_mem_map]

theorem refused_iff (pool : AgentSubnetPool) (table : List Route) :
    (∃ message, pool.refuseOnRouteConflict (.printed (Route.printed table)) = .error message) ↔
      ∃ route ∈ table, ¬ (pool.Conflicts route.dest ↔ route.Misjudged pool) := by
  have passes : pool.refuseOnRouteConflict (.printed (Route.printed table)) = .ok () ↔
      ¬ ∃ route ∈ table, ¬ (pool.Conflicts route.dest ↔ route.Misjudged pool) := by
    rw [refuse_printed_eq_ok_iff]
    push Not
    exact forall₂_congr fun route mem => Route.check_line_iff
  cases outcome : pool.refuseOnRouteConflict (.printed (Route.printed table)) with
  | error message =>
    rw [outcome] at passes
    exact ⟨fun _ => not_not.mp (mt passes.mpr nofun), fun _ => ⟨message, rfl⟩⟩
  | ok =>
    exact ⟨nofun, fun conflict => absurd conflict (passes.mp outcome)⟩

/-- **When the check finds the conflicts.**  Startup is refused exactly when a destination other
than the pool and the default route overlaps the pool, if and only if one that does is judged
right, or the table has an overlooked conflict just when it has a false alarm: so on every table
without a misjudged route. -/
theorem refuses_conflicts_iff (pool : AgentSubnetPool) (table : List Route) :
    ((∃ message, pool.refuseOnRouteConflict (.printed (Route.printed table)) = .error message) ↔
        ∃ route ∈ table, pool.Conflicts route.dest) ↔
      (∃ route ∈ table, pool.Conflicts route.dest ∧ ¬ route.Misjudged pool) ∨
        ((∃ route ∈ table, route.Misjudged pool ∧ pool.Conflicts route.dest) ↔
          ∃ route ∈ table, route.Misjudged pool ∧ ¬ pool.Conflicts route.dest) := by
  have refused : (∃ route ∈ table, ¬ (pool.Conflicts route.dest ↔ route.Misjudged pool)) ↔
      (∃ route ∈ table, pool.Conflicts route.dest ∧ ¬ route.Misjudged pool) ∨
        ∃ route ∈ table, route.Misjudged pool ∧ ¬ pool.Conflicts route.dest := by
    simp only [← exists_or, ← and_or_left]
    refine exists_congr fun route => and_congr_right fun _ => ?_
    by_cases misjudged : route.Misjudged pool <;> simp [misjudged]
  have conflicts : (∃ route ∈ table, pool.Conflicts route.dest) ↔
      (∃ route ∈ table, pool.Conflicts route.dest ∧ ¬ route.Misjudged pool) ∨
        ∃ route ∈ table, route.Misjudged pool ∧ pool.Conflicts route.dest := by
    simp only [← exists_or, ← and_or_left]
    refine exists_congr fun route => and_congr_right fun _ => ?_
    by_cases misjudged : route.Misjudged pool <;> simp [misjudged]
  rw [refused_iff, refused, conflicts]
  by_cases found : ∃ route ∈ table, pool.Conflicts route.dest ∧ ¬ route.Misjudged pool
  · simp only [found, true_or]
  · simp only [found, false_or]
    exact iff_comm

def dockerHost : List Route :=
  [{ dest := ⟨0, 0, by decide, by decide, by decide⟩
     attributes := " via 192.168.1.1 dev eth0 ".toList },
   { dest := ⟨10 * 2 ^ 24 + 42 * 2 ^ 16, 16, by decide, by decide, by decide⟩
     attributes := " dev veth-h-1 scope link ".toList },
   { dest := ⟨172 * 2 ^ 24 + 17 * 2 ^ 16, 16, by decide, by decide, by decide⟩
     attributes := " dev docker0 scope link ".toList }]

/-- A VPN takes over the default route with two halves; the half with the pool in it starts with
another octet. -/
def halfRoute : Route where
  dest := ⟨0, 1, by decide, by decide, by decide⟩
  attributes := " via 10.8.0.1 dev tun0 ".toList

def besideRoute : Route where
  dest := ⟨10 * 2 ^ 24 + 64 * 2 ^ 16, 10, by decide, by decide, by decide⟩
  attributes := " dev wg0 scope link ".toList

/-- The check lets a destination through that contains the pool, and refuses one
that does not overlap it. -/
theorem octet_misjudges :
    (Conflicts {} halfRoute.dest ∧
      refuseOnRouteConflict {} (.printed (Route.printed [halfRoute])) = .ok ()) ∧
    (¬ Conflicts {} besideRoute.dest ∧
      ∃ message, refuseOnRouteConflict {} (.printed (Route.printed [besideRoute])) =
        .error message) := by
  refine ⟨⟨by decide, ?_⟩, by decide, ?_⟩
  · rw [refuse_printed_eq_ok_iff]
    decide +kernel
  · cases outcome : refuseOnRouteConflict {} (.printed (Route.printed [besideRoute])) with
    | error message => exact ⟨message, rfl⟩
    | ok => exact absurd (refuse_printed_eq_ok_iff.mp outcome) (by decide +kernel)

end AgentSubnetPool

end Havn.Spawner
