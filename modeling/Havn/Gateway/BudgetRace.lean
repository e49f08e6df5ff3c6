import Havn.Lib.Machine
import Havn.Lib.Window
import Havn.Gateway.CredentialUsage

/-!
# Completions side by side

`complete_with_provider` (`llm_proxy/mod.rs`) reads a credential's usage before it calls the
provider and writes a row after the call.  Here any number of completions do so on one credential,
in any order.
-/

namespace Havn.Gateway.BudgetRace

open Havn.Core Lib Lib.Rfc3339 Db LlmProxy CredentialUsage List

inductive Phase
  | checking (pending : List Check)
  | querying (check : Check) (read : ℕ) (pending : List Check)
  | calling
  | answered (response : AnthropicResponse)
  | over

def Phase.isOver : Phase → Bool
  | .over => true
  | _ => false

structure Visit where
  user : UserId
  phase : Phase

structure State where
  world : UsageWorld
  visits : List Visit := []
  sent : List (ℕ × UserId) := []

inductive Action
  | readClock
  | query (fails : Bool)
  | send (usable : Bool)
  | answer (response : Option AnthropicResponse)
  | record (fails : Bool)

inductive Label
  | arrive (user : UserId)
  | act (n : ℕ) (action : Action)
  | wait (pause : ℕ)

section Step

variable (cred : Credential) (providerName : String)

def advance (world : UsageWorld) (visit : Visit) : Action → Option (Phase × List UsageRow × Bool)
  | .readClock =>
    match visit.phase with
    | .checking (check :: pending) => some (.querying check world.clock pending, [], false)
    | _ => none
  | .query fails =>
    match visit.phase with
    | .querying check read pending =>
      if fails = false ∧
          check.passes cred.id visit.user (check.since read) world.usages = true then
        some (.checking pending, [], false)
      else some (.over, [], false)
    | _ => none
  | .send usable =>
    match visit.phase with
    | .checking [] => some (if usable then (.calling, [], true) else (.over, [], false))
    | _ => none
  | .answer response =>
    match visit.phase with
    | .calling => some (response.elim .over .answered, [], false)
    | _ => none
  | .record fails =>
    match visit.phase with
    | .answered response =>
      let row : UsageRow := ⟨usageOf visit.user providerName cred response, world.clock⟩
      some (.over, if fails then [] else [row], false)
    | _ => none

def step (s : State) : Label → Option State
  | .arrive user => some { s with visits := s.visits ++ [⟨user, .checking (checks cred)⟩] }
  | .wait pause => some { s with world := { s.world with clock := s.world.clock + pause } }
  | .act n action =>
    s.visits[n]?.bind fun visit =>
      (advance cred providerName s.world visit action).map fun (phase, rows, sends) =>
        { world := { s.world with usages := s.world.usages ++ rows }
          visits := s.visits.set n { visit with phase }
          sent := s.sent ++ if sends then [(s.world.clock, visit.user)] else [] }

end Step

def start (clock : ℕ) : State := { world := { clock } }

/-! ## What is asked of a run -/

def Serial (s : State) : Label → Prop
  | .arrive _ => ∀ visit ∈ s.visits, visit.phase.isOver = true
  | _ => True

instance (s : State) (a : Label) : Decidable (Serial s a) := by
  unfold Serial
  split <;> infer_instance

def Action.records : Action → Bool
  | .answer none | .record true => false
  | _ => true

def Recorded : Label → Bool
  | .act _ action => action.records
  | _ => true

/-! ## The two limits -/

def onDay (day : ℕ) (usages : List UsageRow) : List UsageRow :=
  usages.filter fun row => dayOf row.recordedAt = day

def tokensOn (day : ℕ) (usages : List UsageRow) : Int :=
  ((onDay day usages).map (·.tokens)).sum

/-- A day's tokens exceed the cap by at most one of the day's requests. -/
def DayBound (cap : Int) (s : State) : Prop :=
  ∀ day, tokensOn day s.world.usages ≤ cap ∨
    ∃ row ∈ onDay day s.world.usages, tokensOn day s.world.usages ≤ cap + row.tokens

def sentWithin (user : UserId) (time : ℕ) (s : State) : List (ℕ × UserId) :=
  s.sent.filter fun sent => sent.2 = user ∧ time ≤ sent.1 ∧ sent.1 ≤ time + 60000

def RateBound (rate : Int) (s : State) : Prop :=
  ∀ user time, ((sentWithin user time s).length : Int) ≤ rate

/-! ## What a completion has seen -/

def rowsFrom (user : UserId) (time : ℕ) (usages : List UsageRow) : List UsageRow :=
  usages.filter fun row => row.usage.userId = user ∧ time ≤ row.recordedAt

def Holds (world : UsageWorld) (user : UserId) : Check → Prop
  | .dailyTokens cap => ∃ read ≤ world.clock, ∀ day, dayOf read ≤ day →
      tokensOn day world.usages < cap
  | .userTokens _ => True
  | .userRequests cap => ∃ read ≤ world.clock,
      ((rowsFrom user (read - 60000) world.usages).length : Int) < cap

variable {world : UsageWorld} {user : UserId} {cap rate : Int} {row : UsageRow}

theorem Holds.later {check : Check} (holds : Holds world user check) (pause : ℕ) :
    Holds { world with clock := world.clock + pause } user check := by
  cases check with
  | dailyTokens | userRequests =>
    obtain ⟨read, le, below⟩ := holds
    exact ⟨read, le.trans (Nat.le_add_right _ _), below⟩
  | userTokens => trivial

theorem total_eq_ok {n used : Int} (read : total n = .ok used) :
    used = n ∧ -(2 ^ 63) ≤ n ∧ n < 2 ^ 63 := by
  unfold total at read
  split at read
  · rename_i fits
    exact ⟨(Except.ok.inj read).symm, fits⟩
  · cases read

theorem lt_of_wrapI64_pos {used : Int} (positive : 0 < cap) (fits : used < 2 ^ 63)
    (left : ¬ wrapI64 (cap - used) ≤ 0) : used < cap := by
  by_contra spent
  have same : wrapI64 (cap - used) = cap - used := by
    unfold wrapI64
    exact Int.bmod_eq_of_le (by omega) (by omega)
  rw [same] at left
  omega

section Checks

variable {cred : Credential} {user : UserId} {world : UsageWorld} {read : ℕ}

theorem mem_checks_dailyTokens : .dailyTokens cap ∈ checks cred ↔ dailyCap cred = some cap := by
  simp [checks]

theorem mem_checks_userRequests :
    .userRequests rate ∈ checks cred ↔ userCap cred "max_requests_per_minute" = some rate := by
  simp [checks]

theorem dailyCap_pos (isCap : dailyCap cred = some cap) : 0 < cap :=
  of_decide_eq_true (Option.filter_eq_some_iff.mp isCap).2

def InRange (clock : ℕ) : Prop := clock < 253402300800000
  deriving Decidable

theorem fourDigitMillis_of_inRange {clock : ℕ} (inRange : InRange clock) :
    FourDigitMillis clock ∧ FourDigitMillis ((clock : ℤ) - 60000) := by
  unfold InRange at inRange
  constructor <;> constructor <;> omega

section Query

variable (inRange : InRange read) (past : ∀ row ∈ world.usages, row.recordedAt ≤ read)
  (own : ∀ row ∈ world.usages, row.usage.credentialId = cred.id)

include inRange past in
theorem today_le_createdAt_iff (mem : row ∈ world.usages) :
    todayStartUtcRfc3339 read ≤ row.createdAt ↔ dayOf row.recordedAt = dayOf read := by
  have before := past row mem
  have early : dayOf read * dayMillis ≤ read := Nat.div_mul_le_self read dayMillis
  have inRange' : InRange (dayOf read * dayMillis) := lt_of_le_of_lt early inRange
  rw [todayStartUtcRfc3339, UsageRow.createdAt,
    stamp_le_stamp_iff (fourDigitMillis_of_inRange inRange').1
      (fourDigitMillis_of_inRange (lt_of_le_of_lt before inRange)).1, Nat.cast_le]
  unfold dayOf dayMillis at *
  omega

include inRange past in
theorem minute_le_createdAt_iff (mem : row ∈ world.usages) :
    minuteAgoUtcRfc3339 read ≤ row.createdAt ↔ read - 60000 ≤ row.recordedAt := by
  have before := past row mem
  rw [minuteAgoUtcRfc3339, UsageRow.createdAt,
    stamp_le_stamp_iff (fourDigitMillis_of_inRange inRange).2
      (fourDigitMillis_of_inRange (lt_of_le_of_lt before inRange)).1]
  omega

include inRange past own in
/-- **What a passed check has seen.** -/
theorem holds_of_passes {check : Check} (le : read ≤ world.clock) (mem : check ∈ checks cred)
    (passes : check.passes cred.id user (check.since read) world.usages = true) :
    Holds world user check := by
  cases check with
  | userTokens => trivial
  | dailyTokens =>
    rw [Check.passes, lets_eq_true] at passes
    obtain ⟨used, queried, left⟩ := passes
    have positive := dailyCap_pos (mem_checks_dailyTokens.mp mem)
    have rows : world.usages.filter (fun row => row.usage.credentialId = cred.id ∧
        todayStartUtcRfc3339 read ≤ row.createdAt) = onDay (dayOf read) world.usages := by
      refine filter_congr fun row isRow => ?_
      rw [decide_eq_decide, today_le_createdAt_iff inRange past isRow]
      exact and_iff_right (own row isRow)
    obtain ⟨rfl, -, fits⟩ := total_eq_ok queried
    have below := lt_of_wrapI64_pos positive fits (by simpa using left)
    refine ⟨read, le, fun day later => ?_⟩
    rcases later.eq_or_lt with rfl | later
    · rw [Check.since, rows] at below
      exact below
    · have unused : onDay day world.usages = [] := by
        refine filter_eq_nil_iff.mpr fun row isRow onDay => ?_
        have early : dayOf row.recordedAt ≤ dayOf read := Nat.div_le_div_right (past row isRow)
        rw [of_decide_eq_true onDay] at early
        omega
      rw [tokensOn, unused]
      exact positive
  | userRequests =>
    rw [Check.passes, lets_eq_true] at passes
    obtain ⟨used, queried, left⟩ := passes
    have rows : world.usages.filter (fun row => row.usage.credentialId = cred.id ∧
        row.usage.userId = user ∧ minuteAgoUtcRfc3339 read ≤ row.createdAt) =
        rowsFrom user (read - 60000) world.usages := by
      refine filter_congr fun row isRow => ?_
      rw [decide_eq_decide, minute_le_createdAt_iff inRange past isRow]
      exact and_iff_right (own row isRow)
    obtain ⟨rfl, -, -⟩ := total_eq_ok queried
    refine ⟨read, le, ?_⟩
    rw [Check.since, rows] at left
    simpa using left

end Query

end Checks

/-! ## The steps of a completion -/

def Phase.inFlight : Phase → Bool
  | .calling | .answered _ => true
  | _ => false

inductive Moves (cred : Credential) (providerName : String) (world : UsageWorld) (user : UserId) :
    Phase → Action → Phase → List UsageRow → Bool → Prop
  | reads (check : Check) (pending : List Check) : Moves cred providerName world user
      (.checking (check :: pending)) .readClock (.querying check world.clock pending) [] false
  | passes (check : Check) (read : ℕ) (pending : List Check)
      (passes : check.passes cred.id user (check.since read) world.usages = true) :
      Moves cred providerName world user (.querying check read pending) (.query false)
        (.checking pending) [] false
  | sends : Moves cred providerName world user (.checking []) (.send true) .calling [] true
  | answers (response : AnthropicResponse) : Moves cred providerName world user .calling
      (.answer (some response)) (.answered response) [] false
  | records (response : AnthropicResponse) : Moves cred providerName world user
      (.answered response) (.record false) .over
      [⟨usageOf user providerName cred response, world.clock⟩] false
  | leaves (phase : Phase) (action : Action) (active : phase.isOver = false)
      (lost : phase.inFlight = true → action.records = false) :
      Moves cred providerName world user phase action .over [] false

variable {before : Phase} {action : Action} {rows : List UsageRow} {after : Phase} {sends : Bool}

section Moves

variable {cred : Credential} {providerName : String} {world : UsageWorld} {user : UserId}

theorem moves_of_advance {visit : Visit} {phase : Phase}
    (next : advance cred providerName world visit action = some (phase, rows, sends)) :
    Moves cred providerName world visit.user visit.phase action phase rows sends := by
  obtain ⟨user, before⟩ := visit
  unfold advance at next
  cases action with
  | readClock =>
    dsimp only at next
    split at next
    · cases next
      exact .reads _ _
    · cases next
  | query =>
    dsimp only at next
    split at next
    · split at next
      · rename_i pass
        obtain ⟨rfl, pass⟩ := pass
        cases next
        exact .passes _ _ _ pass
      · cases next
        exact .leaves _ _ rfl nofun
    · cases next
  | send usable =>
    dsimp only at next
    split at next
    · cases usable with
      | true =>
        cases next
        exact .sends
      | false =>
        cases next
        exact .leaves _ _ rfl nofun
    · cases next
  | answer response =>
    dsimp only at next
    split at next
    · cases response with
      | some response =>
        cases next
        exact .answers response
      | none =>
        cases next
        exact .leaves _ _ rfl fun _ => rfl
    · cases next
  | record fails =>
    dsimp only at next
    split at next
    · cases fails with
      | false =>
        cases next
        exact .records _
      | true =>
        cases next
        exact .leaves _ _ rfl fun _ => rfl
    · cases next

theorem Moves.active (moves : Moves cred providerName world user before action after rows sends) :
    before.isOver = false := by
  cases moves with
  | leaves phase action active => exact active
  | reads | passes | sends | answers | records => rfl

theorem Moves.rows_cases
    (moves : Moves cred providerName world user before action after rows sends) :
    rows = [] ∨ ∃ response, before = .answered response ∧ after = .over ∧
      rows = [⟨usageOf user providerName cred response, world.clock⟩] := by
  cases moves with
  | records response => exact .inr ⟨response, rfl, rfl, rfl⟩
  | reads | passes | sends | answers | leaves => exact .inl rfl

end Moves

variable {n : ℕ} {cred : Credential}

theorem step_act {providerName : String} {s s' : State}
    (next : step cred providerName s (.act n action) = some s') :
    ∃ visit phase rows sends, s.visits[n]? = some visit ∧
      Moves cred providerName s.world visit.user visit.phase action phase rows sends ∧
      s' = { world := { s.world with usages := s.world.usages ++ rows }
             visits := s.visits.set n { visit with phase }
             sent := s.sent ++ if sends then [(s.world.clock, visit.user)] else [] } := by
  obtain ⟨visit, found, next⟩ := Option.bind_eq_some_iff.mp next
  obtain ⟨⟨phase, rows, sends⟩, advanced, rfl⟩ := Option.map_eq_some_iff.mp next
  exact ⟨visit, phase, rows, sends, found, moves_of_advance advanced, rfl⟩

/-! ## One after the other -/

def Cleared (cred : Credential) (world : UsageWorld) (user : UserId) : Phase → Prop
  | .checking pending => ∃ done, checks cred = done ++ pending ∧
      ∀ check ∈ done, Holds world user check
  | .querying check read pending => read ≤ world.clock ∧
      (∀ row ∈ world.usages, row.recordedAt ≤ read) ∧
      ∃ done, checks cred = done ++ check :: pending ∧ ∀ check ∈ done, Holds world user check
  | .calling | .answered _ => ∀ check ∈ checks cred, Holds world user check
  | .over => True

structure OneByOne (cred : Credential) (s : State) : Prop where
  past : ∀ row ∈ s.world.usages, row.recordedAt ≤ s.world.clock
  own : ∀ row ∈ s.world.usages, row.usage.credentialId = cred.id
  last : ∀ n visit, s.visits[n]? = some visit → visit.phase.isOver = false →
    n + 1 = s.visits.length
  cleared : ∀ visit ∈ s.visits, Cleared cred s.world visit.user visit.phase

theorem Cleared.later {phase : Phase} (cleared : Cleared cred world user phase) (pause : ℕ) :
    Cleared cred { world with clock := world.clock + pause } user phase := by
  cases phase with
  | checking =>
    obtain ⟨done, parts, hold⟩ := cleared
    exact ⟨done, parts, fun check mem => (hold check mem).later pause⟩
  | querying check =>
    obtain ⟨le, past, done, parts, hold⟩ := cleared
    exact ⟨le.trans (Nat.le_add_right _ _), past, done, parts,
      fun check mem => (hold check mem).later pause⟩
  | calling | answered => exact fun check mem => (cleared check mem).later pause
  | _ => trivial

/-- **A step of a completion** that is alone with the table. -/
theorem Cleared.moves {providerName : String} (cleared : Cleared cred world user before)
    (inRange : InRange world.clock) (past : ∀ row ∈ world.usages, row.recordedAt ≤ world.clock)
    (own : ∀ row ∈ world.usages, row.usage.credentialId = cred.id)
    (moves : Moves cred providerName world user before action after rows sends) :
    Cleared cred { world with usages := world.usages ++ rows } user after := by
  cases moves with
  | reads =>
    obtain ⟨done, parts, hold⟩ := cleared
    rw [append_nil]
    exact ⟨le_rfl, past, done, parts, hold⟩
  | passes check read pending passes =>
    obtain ⟨le, before, done, parts, hold⟩ := cleared
    rw [append_nil]
    have mem : check ∈ checks cred := by
      rw [parts]
      exact mem_append_right done mem_cons_self
    have holds : Holds world user check :=
      holds_of_passes (lt_of_le_of_lt le inRange) before own le mem passes
    refine ⟨done ++ [check], by rw [parts, append_assoc]; rfl, ?_⟩
    intro other mem'
    rcases mem_snoc.mp mem' with earlier | rfl
    · exact hold other earlier
    · exact holds
  | sends =>
    obtain ⟨done, parts, hold⟩ := cleared
    rw [append_nil] at parts ⊢
    rw [← parts] at hold
    exact hold
  | answers =>
    rw [append_nil]
    exact cleared
  | records => trivial
  | leaves => trivial

section OneByOne

variable {cred : Credential} {providerName : String} {s s' : State} {a : Label}

theorem oneByOne_start (clock : ℕ) : OneByOne cred (start clock) where
  past := by simp [start]
  own := by simp [start]
  last := by simp [start]
  cleared := by simp [start]

/-- **Every step of completions one by one.** -/
theorem OneByOne.step (inv : OneByOne cred s) (serial : Serial s a)
    (inRange : InRange s.world.clock) (next : step cred providerName s a = some s') :
    OneByOne cred s' := by
  cases a with
  | arrive =>
    obtain rfl := Option.some.inj next
    refine ⟨inv.past, inv.own, fun n visit found active => ?_, fun visit mem => ?_⟩
    · rcases Nat.lt_or_ge n s.visits.length with before | after
      · rw [getElem?_append_left before] at found
        rw [serial visit (mem_of_getElem? found)] at active
        cases active
      · have inside := (List.getElem?_eq_some_iff.mp found).1
        rw [List.length_append, List.length_singleton] at inside ⊢
        omega
    · rcases mem_snoc.mp mem with earlier | rfl
      · exact inv.cleared visit earlier
      · exact ⟨[], rfl, forall_mem_nil _⟩
  | wait pause =>
    obtain rfl := Option.some.inj next
    exact ⟨fun row mem => (inv.past row mem).trans (Nat.le_add_right _ _), inv.own, inv.last,
      fun visit mem => (inv.cleared visit mem).later pause⟩
  | act n =>
    obtain ⟨visit, phase, rows, sends, found, moves, rfl⟩ := step_act next
    have isVisit : visit ∈ s.visits := mem_of_getElem? found
    have isLast := inv.last n visit found moves.active
    have newRows : ∀ row ∈ rows, row.recordedAt = s.world.clock ∧
        row.usage.credentialId = cred.id := by
      rcases moves.rows_cases with rfl | ⟨response, -, -, rfl⟩
      · exact forall_mem_nil _
      · intro row mem
        obtain rfl := mem_singleton.mp mem
        exact ⟨rfl, rfl⟩
    refine ⟨fun row mem => ?_, fun row mem => ?_, fun m other found' active => ?_,
      fun other mem => ?_⟩
    · rcases mem_append.mp mem with before | new
      · exact inv.past row before
      · exact (newRows row new).1.le
    · rcases mem_append.mp mem with before | new
      · exact inv.own row before
      · exact (newRows row new).2
    · rw [length_set]
      rcases eq_or_ne n m with rfl | differ
      · exact isLast
      · rw [getElem?_set_ne differ] at found'
        exact inv.last m other found' active
    · -- the others are over
      rcases mem_or_eq_of_mem_set mem with old | rfl
      · obtain ⟨m, at'⟩ := mem_iff_getElem?.mp mem
        rcases eq_or_ne n m with rfl | differ
        · rw [getElem?_set_self (by omega)] at at'
          obtain rfl := Option.some.inj at'
          exact (inv.cleared visit isVisit).moves inRange inv.past inv.own moves
        · rw [getElem?_set_ne differ] at at'
          have finished : other.phase.isOver = true := by
            by_contra active
            have := inv.last m other at' (Bool.eq_false_of_not_eq_true active)
            omega
          cases isOver : other.phase with
          | checking | querying | calling | answered =>
            rw [isOver] at finished
            cases finished
          | _ => trivial
      · exact (inv.cleared visit isVisit).moves inRange inv.past inv.own moves

theorem dayOf_mono {a b : ℕ} (le : a ≤ b) : dayOf a ≤ dayOf b := Nat.div_le_div_right le

theorem DayBound.step (bound : DayBound cap s) (inv : OneByOne cred s)
    (isCap : dailyCap cred = some cap) (next : step cred providerName s a = some s') :
    DayBound cap s' := by
  cases a with
  | arrive | wait =>
    obtain rfl := Option.some.inj next
    exact bound
  | act =>
    obtain ⟨visit, phase, rows, sends, found, moves, rfl⟩ := step_act next
    have cleared := inv.cleared visit (mem_of_getElem? found)
    rcases moves.rows_cases with rfl | ⟨response, answered, -, rfl⟩
    · unfold DayBound
      dsimp only
      rw [append_nil]
      exact bound
    rw [answered] at cleared
    obtain ⟨read, le, below⟩ := cleared _ (mem_checks_dailyTokens.mpr isCap)
    intro day
    dsimp only
    generalize isRow : UsageRow.mk (usageOf visit.user providerName cred response)
      s.world.clock = row
    have now : row.recordedAt = s.world.clock := by rw [← isRow]
    rw [tokensOn, onDay, filter_concat, now]
    by_cases today : dayOf s.world.clock = day
    · rw [if_pos (decide_eq_true today)]
      refine .inr ⟨row, mem_append_right _ (mem_singleton_self _), ?_⟩
      have room := below day (today ▸ dayOf_mono le)
      rw [tokensOn, onDay] at room
      rw [map_append, sum_append, map_singleton, sum_singleton]
      omega
    · rw [if_neg (by simpa using today), append_nil]
      exact bound day

/-! ## Requests and rows -/

def sentFrom (user : UserId) (time : ℕ) (sent : List (ℕ × UserId)) : List (ℕ × UserId) :=
  sent.filter fun request => request.2 = user ∧ time ≤ request.1

theorem rowsFrom_length_le (user : UserId) {time time' : ℕ} (le : time ≤ time')
    (usages : List UsageRow) :
    (rowsFrom user time' usages).length ≤ (rowsFrom user time usages).length := by
  refine (monotone_filter_right _ fun row later => ?_).length_le
  obtain ⟨isUser, from'⟩ := of_decide_eq_true later
  exact decide_eq_true ⟨isUser, le.trans from'⟩

theorem sentFrom_length_le (user : UserId) {time time' : ℕ} (le : time ≤ time')
    (sent : List (ℕ × UserId)) :
    (sentFrom user time' sent).length ≤ (sentFrom user time sent).length := by
  refine (monotone_filter_right _ fun request later => ?_).length_le
  obtain ⟨isUser, from'⟩ := of_decide_eq_true later
  exact decide_eq_true ⟨isUser, le.trans from'⟩

theorem sentWithin_length_le (user : UserId) (time : ℕ) (s : State) :
    (sentWithin user time s).length ≤ (sentFrom user time s.sent).length := by
  refine (monotone_filter_right _ fun request within => ?_).length_le
  obtain ⟨isUser, from', -⟩ := of_decide_eq_true within
  exact decide_eq_true ⟨isUser, from'⟩

def Quiet (user : UserId) (visits : List Visit) : Prop :=
  ∀ visit ∈ visits, visit.user = user → visit.phase.inFlight = false

structure Paced (rate : Int) (s : State) : Prop where
  past : ∀ request ∈ s.sent, request.1 ≤ s.world.clock
  counted : ∀ user time,
    (sentFrom user time s.sent).length ≤ (rowsFrom user time s.world.usages).length + 1
  settled : ∀ user, Quiet user s.visits → ∀ time,
    (sentFrom user time s.sent).length ≤ (rowsFrom user time s.world.usages).length
  bound : RateBound rate s

theorem paced_start (nonneg : 0 ≤ rate) (clock : ℕ) : Paced rate (start clock) where
  past := by simp [start]
  counted := by simp [start, sentFrom]
  settled := by simp [start, sentFrom]
  bound := fun user time => by simpa [start, sentWithin] using nonneg

theorem quiet_of_set {visits : List Visit} {n : ℕ} {visit visit' : Visit}
    (found : visits[n]? = some visit)
    (kept : visit.user = user → visit.phase.inFlight = true →
      visit'.user = user ∧ visit'.phase.inFlight = true)
    (quiet : Quiet user (visits.set n visit')) : Quiet user visits := by
  intro other mem isUser
  obtain ⟨m, at'⟩ := mem_iff_getElem?.mp mem
  rcases eq_or_ne n m with rfl | differ
  · cases found.symm.trans at'
    by_contra busy
    obtain ⟨isUser', busy'⟩ := kept isUser (Bool.eq_true_of_not_eq_false busy)
    have inside := (List.getElem?_eq_some_iff.mp found).1
    have new : visit' ∈ visits.set n visit' :=
      mem_of_getElem? (getElem?_set_self inside)
    rw [quiet visit' new isUser'] at busy'
    cases busy'
  · refine quiet other (mem_of_getElem? (i := m) ?_) isUser
    rw [getElem?_set_ne differ]
    exact at'

theorem OneByOne.quiet (inv : OneByOne cred s) {n : ℕ} {visit : Visit}
    (found : s.visits[n]? = some visit) (active : visit.phase.isOver = false)
    (checking : visit.phase.inFlight = false) (user : UserId) : Quiet user s.visits := by
  intro other mem _
  obtain ⟨m, at'⟩ := mem_iff_getElem?.mp mem
  by_contra busy
  have isActive : other.phase.isOver = false := by
    cases isPhase : other.phase with
    | checking | querying | calling | answered => rfl
    | _ =>
      rw [isPhase] at busy
      exact absurd rfl busy
  have := inv.last n visit found active
  have := inv.last m other at' isActive
  obtain rfl : n = m := by omega
  cases found.symm.trans at'
  exact busy checking

/-- **A request is sent** after the check of the rate has passed. -/
theorem RateBound.send (bound : RateBound rate s) (holds : Holds s.world user (.userRequests rate))
    (settled : ∀ time, (sentFrom user time s.sent).length ≤
      (rowsFrom user time s.world.usages).length) {visits : List Visit} :
    RateBound rate { s with visits, sent := s.sent ++ [(s.world.clock, user)] } := by
  obtain ⟨read, le, below⟩ := holds
  have room : ((sentFrom user (s.world.clock - 60000) s.sent).length : Int) < rate := by
    have fewer := rowsFrom_length_le user (Nat.sub_le_sub_right le 60000) s.world.usages
    have := settled (s.world.clock - 60000)
    omega
  intro other time
  rw [sentWithin, filter_concat]
  split
  · rename_i inside
    simp only [decide_eq_true_eq] at inside
    obtain ⟨rfl, from', upTo⟩ := inside
    have early : s.world.clock - 60000 ≤ time := by omega
    have fewer : (sentWithin user time s).length ≤
        (sentFrom user (s.world.clock - 60000) s.sent).length :=
      (sentWithin_length_le user time s).trans (sentFrom_length_le user early s.sent)
    rw [sentWithin] at fewer
    rw [List.length_append, List.length_singleton]
    omega
  · rw [append_nil]
    exact bound other time

section

variable (paced : Paced rate s)

include paced

section

variable (found : s.visits[n]? = some ⟨user, before⟩)

include found

theorem Paced.move (kept : before.inFlight = true → after.inFlight = true) :
    Paced rate { s with visits := s.visits.set n ⟨user, after⟩ } :=
  { paced with
    settled := by
      intro other quiet
      refine paced.settled other (quiet_of_set found ?_ quiet)
      exact fun isUser busy => ⟨isUser, kept busy⟩ }

theorem Paced.send (quiet : ∀ user, Quiet user s.visits)
    (holds : Holds s.world user (.userRequests rate)) :
    Paced rate { s with
      visits := s.visits.set n ⟨user, .calling⟩
      sent := s.sent ++ [(s.world.clock, user)] } where
  past := by
    intro request mem
    rcases mem_snoc.mp mem with old | rfl
    · exact paced.past request old
    · exact le_rfl
  counted := by
    intro other time
    have before := paced.settled other (quiet other) time
    dsimp only
    rw [sentFrom, filter_concat, List.length_append]
    rw [sentFrom] at before
    split
    · exact Nat.add_le_add_right before 1
    · exact before.trans (Nat.le_succ _)
  settled := by
    intro other quiet' time
    have inside := (List.getElem?_eq_some_iff.mp found).1
    have differ : user ≠ other := by
      intro same
      have busy := quiet' ⟨user, .calling⟩
        (mem_of_getElem? (getElem?_set_self inside)) same
      cases busy
    have before := paced.settled other (quiet other) time
    dsimp only
    rw [sentFrom, filter_concat, if_neg (by simp [differ]), append_nil]
    exact before
  bound := paced.bound.send holds (paced.settled user (quiet user))

theorem Paced.record (isUser : row.usage.userId = user) (now : row.recordedAt = s.world.clock) :
    Paced rate { s with
      world := { s.world with usages := s.world.usages ++ [row] }
      visits := s.visits.set n ⟨user, .over⟩ } where
  __ := paced
  counted := by
    intro other time
    have before := paced.counted other time
    dsimp only
    rw [rowsFrom, filter_append, List.length_append]
    rw [rowsFrom] at before
    omega
  settled := by
    intro other quiet time
    dsimp only
    rw [rowsFrom, filter_concat, List.length_append]
    by_cases own : user = other
    · subst own
      rcases Nat.lt_or_ge s.world.clock time with later | upTo
      · have unsent : sentFrom user time s.sent = [] := by
          refine filter_eq_nil_iff.mpr fun request mem inTime => ?_
          have := paced.past request mem
          have := (of_decide_eq_true inTime).2
          omega
        rw [unsent]
        exact Nat.zero_le _
      · rw [if_pos (decide_eq_true ⟨isUser, now ▸ upTo⟩)]
        exact paced.counted user time
    · have before := paced.settled other
        (quiet_of_set found (fun isOther _ => absurd isOther own) quiet) time
      exact before.trans (Nat.le_add_right _ _)

end

/-- **Every step, when what is sent gets its row.** -/
theorem Paced.step (inv : OneByOne cred s)
    (isRate : userCap cred "max_requests_per_minute" = some rate) (recorded : Recorded a = true)
    (next : step cred providerName s a = some s') : Paced rate s' := by
  cases a with
  | arrive user =>
    obtain rfl := Option.some.inj next
    exact { paced with
      settled := fun user quiet => paced.settled user fun visit mem =>
        quiet visit (mem_append_left _ mem) }
  | wait =>
    obtain rfl := Option.some.inj next
    exact { paced with
      past := fun request mem => (paced.past request mem).trans (Nat.le_add_right _ _) }
  | act n action =>
    obtain ⟨⟨user, before⟩, phase, rows, sends, found, moves, rfl⟩ := step_act next
    have cleared := inv.cleared ⟨user, before⟩ (mem_of_getElem? found)
    dsimp only at moves cleared ⊢
    cases moves with
    | reads | passes =>
      simp only [append_nil, Bool.false_eq_true, if_false]
      exact paced.move found nofun
    | answers =>
      simp only [append_nil, Bool.false_eq_true, if_false]
      exact paced.move found fun _ => rfl
    | leaves _ _ _ lost =>
      simp only [append_nil, Bool.false_eq_true, if_false]
      refine paced.move found fun busy => ?_
      rw [show action.records = true from recorded] at lost
      cases lost busy
    | sends =>
      simp only [append_nil, if_true]
      obtain ⟨done, parts, hold⟩ := cleared
      rw [append_nil] at parts
      refine paced.send found (inv.quiet found rfl rfl) ?_
      refine hold _ ?_
      rw [← parts]
      exact mem_checks_userRequests.mpr isRate
    | records =>
      simp only [append_nil, Bool.false_eq_true, if_false]
      exact paced.record found rfl rfl

end

theorem clock_le_of_step (next : step cred providerName s a = some s') :
    s.world.clock ≤ s'.world.clock := by
  cases a with
  | arrive =>
    obtain rfl := Option.some.inj next
    exact le_rfl
  | wait =>
    obtain rfl := Option.some.inj next
    exact Nat.le_add_right _ _
  | act =>
    obtain ⟨visit, phase, rows, sends, -, -, rfl⟩ := step_act next
    exact le_rfl

theorem userCap_pos {key : String} {limit : Int} (isLimit : userCap cred key = some limit) :
    0 < limit := by
  obtain ⟨perUser, -, read⟩ := Option.bind_eq_some_iff.mp isLimit
  exact of_decide_eq_true (Option.filter_eq_some_iff.mp read).2

/-- **Budgets hold for completions one by one**: a day's tokens exceed the cap by at most one
request; and when whatever is sent gets its row, no user sends more than the rate in sixty
seconds. -/
theorem budgets_hold {clock : ℕ} {labels : List Label}
    (run : Run (step cred providerName) Serial (start clock) labels s)
    (inRange : InRange s.world.clock) :
    (∀ cap, dailyCap cred = some cap → DayBound cap s) ∧
      ∀ rate, userCap cred "max_requests_per_minute" = some rate →
        (∀ a ∈ labels, Recorded a = true) → RateBound rate s := by
  have safe := run.history (fun labels s => InRange s.world.clock → OneByOne cred s ∧
      (∀ cap, dailyCap cred = some cap → DayBound cap s) ∧
      ∀ rate, userCap cred "max_requests_per_minute" = some rate →
        (∀ a ∈ labels, Recorded a = true) → Paced rate s)
    (fun labels s a s' inv _ serial next inRange => by
      have inRange' : InRange s.world.clock := lt_of_le_of_lt (clock_le_of_step next) inRange
      obtain ⟨one, day, rate⟩ := inv inRange'
      refine ⟨one.step serial inRange' next, fun cap isCap => (day cap isCap).step one isCap next,
        fun limit isRate recorded => ?_⟩
      obtain ⟨before, isRecorded⟩ := forall_mem_append.mp recorded
      exact (rate limit isRate before).step one isRate
        (isRecorded a (mem_singleton_self a)) next)
    (fun _ => ⟨oneByOne_start clock, fun cap isCap day => .inl (dailyCap_pos isCap).le,
      fun rate isRate _ => paced_start (userCap_pos isRate).le clock⟩)
  obtain ⟨-, day, rate⟩ := safe inRange
  exact ⟨day, fun limit isRate recorded => (rate limit isRate recorded).bound⟩

end OneByOne

/-! ### A small shared key -/

def member : UserId := ⟨uuidOf 1⟩

def sharedKey : Credential where
  id := ⟨uuidOf 2⟩
  scope := .team
  scopeId := ""
  provider := "llm:anthropic"
  apiKeyCiphertext := []
  limits := .object
    [("max_tokens_per_day", .number (.posInt 100)),
      ("per_user", .object [("max_requests_per_minute", .number (.posInt 1))])]
  createdAt := ""

def reply : AnthropicResponse :=
  ⟨"", "claude", "assistant", .null, none, ⟨60, 40⟩⟩

def check (n : ℕ) : List Label :=
  [.act n .readClock, .act n (.query false), .act n .readClock, .act n (.query false)]

def call (n : ℕ) : List Label :=
  [.act n (.send true), .act n (.answer (some reply)), .act n (.record false)]

def inTurn : List Label :=
  [.arrive member] ++ check 0 ++ call 0 ++
    [.wait 1000, .arrive member, .act 1 .readClock, .act 1 (.query false), .wait 86400000,
      .arrive member] ++ check 2 ++ call 2

def someDay : ℕ := 1700000000000

theorem inTurn_holds : ∃ s, Run (step sharedKey "anthropic") Serial (start someDay) inTurn s ∧
    InRange s.world.clock ∧ s.sent.length = 2 ∧ DayBound 100 s ∧ RateBound 1 s := by
  obtain ⟨s, run, inRange, two⟩ : ∃ s, Run (step sharedKey "anthropic") Serial (start someDay)
      inTurn s ∧ s.world.clock < 253402300800000 ∧ s.sent.length = 2 :=
    exists_run (by decide +kernel)
  have holds := budgets_hold run inRange
  exact ⟨s, run, inRange, two, holds.1 100 rfl, holds.2 1 rfl (by decide)⟩

def sideBySide : List Label :=
  [.arrive member, .arrive member, .arrive member] ++ check 0 ++ check 1 ++ check 2 ++
    call 0 ++ call 1 ++ call 2

/-- **Side by side all go ahead**: three hundred tokens of a hundred, three requests in a minute
that allows one. -/
theorem budgets_overrun : ∃ s,
    Run (step sharedKey "anthropic") anyStep (start someDay) sideBySide s ∧
      (∀ a ∈ sideBySide, Recorded a = true) ∧ InRange s.world.clock ∧
      dailyCap sharedKey = some 100 ∧ ¬ DayBound 100 s ∧
      userCap sharedKey "max_requests_per_minute" = some 1 ∧ ¬ RateBound 1 s := by
  obtain ⟨s, ran, inRange, tokens, each, requests⟩ :
      ∃ s, Run (step sharedKey "anthropic") anyStep (start someDay) sideBySide s ∧
        s.world.clock < 253402300800000 ∧ tokensOn (dayOf someDay) s.world.usages = 300 ∧
        (∀ row ∈ s.world.usages, row.tokens = 100) ∧ (sentWithin member someDay s).length = 3 :=
    exists_run (by decide +kernel)
  refine ⟨s, ran, by decide, inRange, rfl, fun bound => ?_, rfl, fun bound => ?_⟩
  · rcases bound (dayOf someDay) with within | ⟨row, mem, within⟩
    · rw [tokens] at within
      exact absurd within (by decide)
    · rw [tokens, each row (mem_of_mem_filter mem)] at within
      exact absurd within (by decide)
  · have within := bound member someDay
    rw [requests] at within
    exact absurd within (by decide)

end Havn.Gateway.BudgetRace
