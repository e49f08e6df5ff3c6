import Havn.Lib.Except
import Havn.Db.Gateway

/-!
# The credential chain and its budgets

`havn-gateway/src/credential_resolver.rs`.  `resolveForUser` lists the keys a user may spend, their
own before those of their teams.  The budget checks are functions of a world `σ` through the reads
in `UsageReads`: nothing is assumed about what two reads see.
-/

namespace Havn.Gateway

open Havn.Core Lib Db

universe u

/-! ## The chain -/

def providerCandidates (provider : String) : List String :=
  ["llm:" ++ provider, provider]

def scopeChain (db : GatewayDb) (provider : String) (scope : CredentialScope)
    (scopeId : String) : Except DbError (List Credential) :=
  gather (Credentials.listActiveForProvider db scope scopeId) (providerCandidates provider)

def resolveForUser (db : GatewayDb) (user : UserId) (provider : String) :
    Except DbError (List Credential) := do
  let own ← scopeChain db provider .user user.toString
  let teams ← TeamMemberships.listForUser db user
  let shared ← gather (fun team => scopeChain db provider .team team.teamId.toString) teams
  return own ++ shared

def Spendable (db : GatewayDb) (user : UserId) (c : Credential) : Prop :=
  (c.scope = .user ∧ c.scopeId = user.toString) ∨
    ∃ m ∈ db.memberships, m.userId = user ∧ c.scope = .team ∧ c.scopeId = m.teamId.toString

variable {db : GatewayDb} {chain : List Credential}

theorem mem_of_scopeChain {provider : String} {scope : CredentialScope}
    {scopeId : String} {c : Credential}
    (listed : scopeChain db provider scope scopeId = .ok chain) (mem : c ∈ chain) :
    c ∈ db.credentials ∧ c.enabled = true ∧ c.scope = scope ∧ c.scopeId = scopeId := by
  obtain ⟨candidate, -, rows, read, mem⟩ := mem_of_gather listed mem
  obtain ⟨stored, scopeEq, idEq, -, enabled⟩ :=
    Credentials.mem_of_listActiveForProvider read mem
  exact ⟨stored, enabled, scopeEq, idEq⟩

theorem membership_of_listForUser {user : UserId} {teams : List UserTeamSummary}
    {team : UserTeamSummary} (listed : TeamMemberships.listForUser db user = .ok teams)
    (mem : team ∈ teams) : ∃ m ∈ db.memberships, m.userId = user ∧ m.teamId = team.teamId := by
  obtain ⟨-, rfl⟩ := GatewayDb.reading_eq_ok.mp listed
  obtain ⟨m, found, summary⟩ := List.mem_filterMap.mp ((List.mem_insertionSort _).mp mem)
  obtain ⟨stored, isUser⟩ := List.mem_filter.mp found
  refine ⟨m, stored, of_decide_eq_true isUser, ?_⟩
  unfold GatewayDb.summarise at summary
  split at summary
  · cases summary; rfl
  · cases summary

/-- **Nothing foreign is in a chain**: its credentials are stored, enabled, and the user's to
spend. -/
theorem mem_of_resolveForUser {user : UserId} {provider : String} {c : Credential}
    (resolved : resolveForUser db user provider = .ok chain) (mem : c ∈ chain) :
    c ∈ db.credentials ∧ c.enabled = true ∧ Spendable db user c := by
  obtain ⟨own, ownRead, resolved⟩ := bind_eq_ok.mp resolved
  obtain ⟨teams, teamsRead, resolved⟩ := bind_eq_ok.mp resolved
  obtain ⟨shared, sharedRead, resolved⟩ := bind_eq_ok.mp resolved
  cases resolved
  rcases List.mem_append.mp mem with mine | ours
  · obtain ⟨stored, enabled, owner⟩ := mem_of_scopeChain ownRead mine
    exact ⟨stored, enabled, .inl owner⟩
  · obtain ⟨team, listed, part, read, ours⟩ := mem_of_gather sharedRead ours
    obtain ⟨stored, enabled, scopeEq, idEq⟩ := mem_of_scopeChain read ours
    obtain ⟨m, joined, isUser, isTeam⟩ := membership_of_listForUser teamsRead listed
    exact ⟨stored, enabled, .inr ⟨m, joined, isUser, scopeEq, by rw [idEq, isTeam]⟩⟩

/-! ## The budgets -/

/-- The clock, as the timestamp texts the queries compare with, and the usage table. -/
structure UsageReads (σ : Type u) where
  todayStart : σ → String × σ
  minuteAgo : σ → String × σ
  tokensSince : CredentialId → String → σ → Except DbError Int × σ
  tokensSinceForUser : CredentialId → UserId → String → σ → Except DbError Int × σ
  requestsSinceForUser : CredentialId → UserId → String → σ → Except DbError Int × σ

/-- Two's complement arithmetic on 64 bits: what a release build computes. -/
def wrapI64 (n : Int) : Int := n.bmod (2 ^ 64)

variable {σ : Type u}

def dailyTokensRemaining (reads : UsageReads σ) (cred : Credential) (world : σ) :
    Except DbError (Option Int) × σ :=
  let cap := ((cred.limits.get "max_tokens_per_day").bind Json.asI64).getD 0
  if cap ≤ 0 then (.ok none, world)
  else
    let (since, world) := reads.todayStart world
    match reads.tokensSince cred.id since world with
    | (.error e, world) => (.error e, world)
    | (.ok used, world) => (.ok (some (wrapI64 (cap - used))), world)

inductive PerUserVerdict
  | allowed
  | denyTokens
  | denyRequests
deriving DecidableEq

def ceilingReached (count : σ → Except DbError Int × σ) :
    Option Int → σ → Except DbError Bool × σ
  | none, world => (.ok false, world)
  | some cap, world =>
    match count world with
    | (.error e, world) => (.error e, world)
    | (.ok used, world) => (.ok (decide (cap ≤ used)), world)

def perUserLimit (perUser : List (String × Json)) (key : String) : Option Int :=
  ((perUser.lookup key).bind Json.asI64).filter (0 < ·)

/-- The per-user ceilings of a shared credential, tokens before requests. -/
def perUserCeilingsRemaining (reads : UsageReads σ) (cred : Credential) (user : UserId)
    (world : σ) : Except DbError PerUserVerdict × σ :=
  match (cred.limits.get "per_user").bind Json.asObject with
  | none => (.ok .allowed, world)
  | some perUser =>
    let tokens := fun world =>
      let (since, world) := reads.todayStart world
      reads.tokensSinceForUser cred.id user since world
    let requests := fun world =>
      let (since, world) := reads.minuteAgo world
      reads.requestsSinceForUser cred.id user since world
    match ceilingReached tokens (perUserLimit perUser "max_tokens_per_day") world with
    | (.error e, world) => (.error e, world)
    | (.ok true, world) => (.ok .denyTokens, world)
    | (.ok false, world) =>
      match ceilingReached requests (perUserLimit perUser "max_requests_per_minute")
        world with
      | (.error e, world) => (.error e, world)
      | (.ok true, world) => (.ok .denyRequests, world)
      | (.ok false, world) => (.ok .allowed, world)

end Havn.Gateway
