import Havn.Lib.Rfc3339
import Havn.Gateway.LlmProxy

/-!
# The usage table

`havn-db/src/repo/credential_usage.rs`: one row for each successful call, stamped by the database,
and the three sums of the budget gates, which compare that text with one the gateway printed.
-/

namespace Havn.Gateway.CredentialUsage

open Havn.Core Lib Lib.Rfc3339 Db LlmProxy

structure UsageRow where
  usage : NewUsage
  recordedAt : ℕ

def UsageRow.createdAt (row : UsageRow) : String := stamp row.recordedAt

def UsageRow.tokens (row : UsageRow) : Int := row.usage.tokensIn + row.usage.tokensOut

def total (n : Int) : Except DbError Int :=
  if -(2 ^ 63) ≤ n ∧ n < 2 ^ 63 then .ok n else .error (.sqlx "integer overflow")

variable (table : List UsageRow) (credential : CredentialId) (user : UserId) (clock : ℕ)

def tokensSince (since : String) : Except DbError Int :=
  total ((table.filter fun row => row.usage.credentialId = credential ∧ since ≤ row.createdAt).map
    (·.tokens)).sum

def tokensSinceForUser (since : String) : Except DbError Int :=
  total ((table.filter fun row => row.usage.credentialId = credential ∧
    row.usage.userId = user ∧ since ≤ row.createdAt).map (·.tokens)).sum

def requestsSinceForUser (since : String) : Except DbError Int :=
  total (table.filter fun row => row.usage.credentialId = credential ∧
    row.usage.userId = user ∧ since ≤ row.createdAt).length

structure UsageWorld where
  clock : ℕ
  usages : List UsageRow := []

def dayMillis : ℕ := 86400000

def dayOf : ℕ := clock / dayMillis

def todayStartUtcRfc3339 : String := stamp (dayOf clock * dayMillis : ℕ)

def minuteAgoUtcRfc3339 : String := stamp ((clock : ℤ) - 60000)

def tableReads : UsageReads UsageWorld where
  todayStart world := (todayStartUtcRfc3339 world.clock, world)
  minuteAgo world := (minuteAgoUtcRfc3339 world.clock, world)
  tokensSince credential since world := (tokensSince world.usages credential since, world)
  tokensSinceForUser credential user since world :=
    (tokensSinceForUser world.usages credential user since, world)
  requestsSinceForUser credential user since world :=
    (requestsSinceForUser world.usages credential user since, world)

/-! ## The checks of a gate -/

inductive Check
  | dailyTokens (cap : Int)
  | userTokens (cap : Int)
  | userRequests (cap : Int)

def Check.since : Check → String
  | .dailyTokens _ | .userTokens _ => todayStartUtcRfc3339 clock
  | .userRequests _ => minuteAgoUtcRfc3339 clock

def lets (pass : Int → Bool) : Except DbError Int → Bool
  | .ok used => pass used
  | .error _ => false

def Check.passes (since : String) (table : List UsageRow) : Check → Bool
  | .dailyTokens cap =>
    lets (fun used => !decide (wrapI64 (cap - used) ≤ 0)) (tokensSince table credential since)
  | .userTokens cap =>
    lets (fun used => !decide (cap ≤ used)) (tokensSinceForUser table credential user since)
  | .userRequests cap =>
    lets (fun used => !decide (cap ≤ used)) (requestsSinceForUser table credential user since)

variable (cred : Credential)

def dailyCap : Option Int :=
  ((cred.limits.get "max_tokens_per_day").bind Json.asI64).filter (0 < ·)

def userCap (key : String) : Option Int :=
  ((cred.limits.get "per_user").bind Json.asObject).bind (perUserLimit · key)

def checks : List Check :=
  (dailyCap cred).toList.map .dailyTokens ++
    ((userCap cred "max_tokens_per_day").toList.map .userTokens ++
      (userCap cred "max_requests_per_minute").toList.map .userRequests)

section Gate

variable {result : Except DbError Int} (cred : Credential) (user : UserId) (world : UsageWorld)

theorem ceilingReached_of_count {σ : Type} (count : σ → Except DbError Int × σ) (world : σ)
    (counted : count world = (result, world)) (cap : Option Int) :
    ∃ verdict, ceilingReached count cap world = (verdict, world) ∧
      (verdict = .ok false ↔
        ∀ limit ∈ cap, lets (fun used => !decide (limit ≤ used)) result = true) := by
  cases cap with
  | none => exact ⟨.ok false, rfl, fun _ => nofun, fun _ => rfl⟩
  | some cap =>
    simp only [ceilingReached, counted]
    cases result with
    | error e => exact ⟨.error e, rfl, by simp [lets]⟩
    | ok used => exact ⟨.ok (decide (cap ≤ used)), rfl, by simp [lets]⟩

def allPass (checks : List Check) : Bool :=
  checks.all fun check => check.passes cred.id user (check.since world.clock) world.usages

theorem lets_eq_true {pass : Int → Bool} :
    lets pass result = true ↔ ∃ used, result = .ok used ∧ pass used = true := by
  cases result with
  | error | ok => simp [lets]

theorem allPass_toList {cap : Option Int} {check : Int → Check} :
    allPass cred user world (cap.toList.map check) = true ↔ ∀ limit ∈ cap,
      (check limit).passes cred.id user ((check limit).since world.clock) world.usages = true := by
  cases cap with
  | none | some => simp [allPass]

theorem dailyTokensRemaining_tableReads :
    ∃ verdict, dailyTokensRemaining tableReads cred world = (verdict, world) ∧
      ((∃ remaining, verdict = .ok remaining ∧ remaining.any (· ≤ 0) = false) ↔
        allPass cred user world ((dailyCap cred).toList.map .dailyTokens) = true) := by
  rw [allPass_toList]
  unfold dailyTokensRemaining dailyCap
  cases (cred.limits.get "max_tokens_per_day").bind Json.asI64 with
  | none => exact ⟨.ok none, rfl, by simp⟩
  | some cap =>
    by_cases positive : 0 < cap
    · have kept : (some cap).filter (fun n => decide (0 < n)) = some cap :=
        Option.filter_some_pos (decide_eq_true positive)
      simp only [kept, Option.getD_some, if_neg (not_le.mpr positive), tableReads,
        Option.mem_def, Option.some.injEq, forall_eq', Check.passes, Check.since]
      cases tokensSince world.usages cred.id (todayStartUtcRfc3339 world.clock) with
      | error e => exact ⟨.error e, rfl, by simp [lets]⟩
      | ok used => exact ⟨.ok (some (wrapI64 (cap - used))), rfl, by simp [lets]⟩
    · have dropped : (some cap).filter (fun n => decide (0 < n)) = none :=
        Option.filter_some_neg (by simpa using positive)
      simp only [dropped, Option.getD_some, if_pos (not_lt.mp positive)]
      exact ⟨.ok none, rfl, by simp⟩

theorem perUserCeilingsRemaining_tableReads :
    ∃ verdict, perUserCeilingsRemaining tableReads cred user world = (verdict, world) ∧
      (verdict = .ok .allowed ↔
        allPass cred user world
          ((userCap cred "max_tokens_per_day").toList.map .userTokens) = true ∧
        allPass cred user world
          ((userCap cred "max_requests_per_minute").toList.map .userRequests) = true) := by
  rw [allPass_toList, allPass_toList]
  unfold perUserCeilingsRemaining userCap
  cases (cred.limits.get "per_user").bind Json.asObject with
  | none => exact ⟨.ok .allowed, rfl, by simp⟩
  | some perUser =>
    obtain ⟨tokens, tokensRead, tokensBelow⟩ := ceilingReached_of_count
      (fun world : UsageWorld => (tokensSinceForUser world.usages cred.id user
        (todayStartUtcRfc3339 world.clock), world)) world rfl
      (perUserLimit perUser "max_tokens_per_day")
    obtain ⟨requests, requestsRead, requestsBelow⟩ := ceilingReached_of_count
      (fun world : UsageWorld => (requestsSinceForUser world.usages cred.id user
        (minuteAgoUtcRfc3339 world.clock), world)) world rfl
      (perUserLimit perUser "max_requests_per_minute")
    simp only [tableReads, Option.bind_some, Check.passes, Check.since, tokensRead,
      ← tokensBelow, ← requestsBelow]
    cases tokens with
    | error e => exact ⟨.error e, rfl, by simp⟩
    | ok reached =>
      cases reached with
      | true => exact ⟨.ok .denyTokens, rfl, by simp⟩
      | false =>
        cases requests with
        | error e => exact ⟨.error e, by simp only [requestsRead], by simp⟩
        | ok reached =>
          cases reached with
          | true => exact ⟨.ok .denyRequests, by simp only [requestsRead], by simp⟩
          | false => exact ⟨.ok .allowed, by simp only [requestsRead], by simp⟩

/-- **The gate is its checks.** -/
theorem budgetGate_tableReads :
    budgetGate tableReads user cred world = (allPass cred user world (checks cred), world) := by
  obtain ⟨daily, dailyRead, dailyPass⟩ := dailyTokensRemaining_tableReads cred user world
  obtain ⟨perUser, perUserRead, perUserPass⟩ := perUserCeilingsRemaining_tableReads cred user world
  have parts : allPass cred user world (checks cred) =
      (allPass cred user world ((dailyCap cred).toList.map .dailyTokens) &&
        (allPass cred user world ((userCap cred "max_tokens_per_day").toList.map .userTokens) &&
          allPass cred user world
            ((userCap cred "max_requests_per_minute").toList.map .userRequests))) := by
    simp only [allPass, checks, List.all_append]
  rw [budgetGate, dailyRead, parts]
  cases passes : allPass cred user world ((dailyCap cred).toList.map .dailyTokens) with
  | false =>
    have stopped : ¬ ∃ remaining, daily = .ok remaining ∧ remaining.any (· ≤ 0) = false := by
      rw [dailyPass, passes]
      exact Bool.false_ne_true
    cases daily with
    | error => rfl
    | ok remaining =>
      have spent : remaining.any (· ≤ 0) = true := by
        by_contra left
        exact stopped ⟨remaining, rfl, Bool.eq_false_of_not_eq_true left⟩
      simp only [spent, if_true, Bool.false_and]
  | true =>
    obtain ⟨remaining, rfl, left⟩ := dailyPass.mpr passes
    simp only [left, Bool.false_eq_true, if_false, perUserRead, Bool.true_and]
    rw [← Bool.and_eq_true] at perUserPass
    by_cases allowed : perUser = .ok .allowed
    · rw [perUserPass.mp allowed, allowed]
    · rw [Bool.eq_false_of_not_eq_true fun pass => allowed (perUserPass.mpr pass)]
      cases perUser with
      | error => rfl
      | ok verdict =>
        cases verdict with
        | allowed => exact absurd rfl allowed
        | denyTokens | denyRequests => rfl

end Gate

end Havn.Gateway.CredentialUsage
