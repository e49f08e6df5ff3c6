import Havn.Gateway.CredentialResolver

/-!
# What a credential chain looks like

`resolve_for_user` concatenates two queries for each scope, one for each stored form of the
provider's name.  Each is sorted by priority; their concatenation is when the namespaced credentials
of a scope come before its bare ones in priority, and only then (`chain_laws_iff`).
-/

namespace Havn.Gateway.CredentialChain

open Havn.Core Lib Db List

structure Owner where
  scope : CredentialScope
  scopeId : String
deriving DecidableEq

def Owner.Owns (owner : Owner) (c : Credential) : Prop :=
  c.scope = owner.scope ∧ c.scopeId = owner.scopeId
  deriving Decidable

variable {c : Credential} (db : GatewayDb)

theorem owner_unique {owner other : Owner} (owns : owner.Owns c)
    (owns' : other.Owns c) : owner = other := by
  cases owner
  cases other
  obtain ⟨rfl, rfl⟩ := owns
  obtain ⟨rfl, rfl⟩ := owns'
  rfl

def userOwner (user : UserId) : Owner := ⟨.user, user.toString⟩

def teamOwner (team : TeamId) : Owner := ⟨.team, team.toString⟩

def ownedBy (owner : Owner) (chain : List Credential) : List Credential :=
  chain.filter owner.Owns

structure Eligible (user : UserId) (provider : String) (c : Credential) : Prop where
  stored : c ∈ db.credentials
  enabled : c.enabled = true
  matching : c.provider ∈ providerCandidates provider
  spendable : Spendable db user c

structure ChainContents (user : UserId) (provider : String) (chain : List Credential) : Prop where
  once : (chain.map (·.id)).Nodup
  exactly : ∀ c, c ∈ chain ↔ Eligible db user provider c
  blocks : ∃ teams : List TeamId, teams.Nodup ∧ chain = ownedBy (userOwner user) chain ++
    teams.flatMap fun team => ownedBy (teamOwner team) chain

/-- **What the chain of a user promises.** -/
structure ChainLaws (user : UserId) (provider : String)
    (chain : List Credential) : Prop extends ChainContents db user provider chain where
  sorted : ∀ owner, (ownedBy owner chain).Pairwise fun earlier later =>
    later.priority ≤ earlier.priority

def FormsRanked (user : UserId) (provider : String) : Prop :=
  ∀ c c', Eligible db user provider c → Eligible db user provider c' →
    c'.scope = c.scope → c'.scopeId = c.scopeId →
    c.provider = "llm:" ++ provider → c'.provider = provider → c'.priority ≤ c.priority

/-! ## The blocks -/

section Rows

variable (db : GatewayDb) (owner : Owner) (provider : String)

def rows : List Credential :=
  (db.credentials.filter fun c =>
    c.scope = owner.scope ∧ c.scopeId = owner.scopeId ∧ c.provider = provider ∧ c.enabled = true
  ).insertionSort fun a b =>
    b.priority < a.priority ∨ (a.priority = b.priority ∧ a.createdAt ≤ b.createdAt)

def block : List Credential :=
  (providerCandidates provider).flatMap (rows db owner)

variable {db owner provider}

theorem mem_rows : c ∈ rows db owner provider ↔
    c ∈ db.credentials ∧ owner.Owns c ∧ c.provider = provider ∧ c.enabled = true := by
  rw [rows, mem_insertionSort, mem_filter, decide_eq_true_eq, Owner.Owns, and_assoc]

theorem rows_sorted : (rows db owner provider).Pairwise fun earlier later =>
    later.priority ≤ earlier.priority := by
  have total : Std.Total fun a b : Credential =>
      b.priority < a.priority ∨ (a.priority = b.priority ∧ a.createdAt ≤ b.createdAt) := by
    refine ⟨fun a b => ?_⟩
    rcases lt_trichotomy a.priority b.priority with less | same | more
    · exact .inr (.inl less)
    · rcases String.le_total a.createdAt b.createdAt with first | second
      · exact .inl (.inr ⟨same, first⟩)
      · exact .inr (.inr ⟨same.symm, second⟩)
    · exact .inl (.inl more)
  have trans : IsTrans Credential fun a b =>
      b.priority < a.priority ∨ (a.priority = b.priority ∧ a.createdAt ≤ b.createdAt) := by
    refine ⟨fun a b c first second => ?_⟩
    rcases first with more | ⟨same, le⟩
    · rcases second with more' | ⟨same', -⟩
      · exact .inl (more'.trans more)
      · exact .inl (same' ▸ more)
    · rcases second with more' | ⟨same', le'⟩
      · exact .inl (same ▸ more')
      · exact .inr ⟨same.trans same', String.le_trans le le'⟩
  refine (pairwise_insertionSort _ _).imp fun {a b} before => ?_
  rcases before with more | ⟨same, -⟩
  · exact more.le
  · exact same.ge

theorem mem_block : c ∈ block db owner provider ↔
    c ∈ db.credentials ∧ owner.Owns c ∧ c.provider ∈ providerCandidates provider ∧
      c.enabled = true := by
  unfold block
  rw [mem_flatMap]
  constructor
  · rintro ⟨form, isForm, mem⟩
    obtain ⟨stored, owns, rfl, enabled⟩ := mem_rows.mp mem
    exact ⟨stored, owns, isForm, enabled⟩
  · rintro ⟨stored, owns, isForm, enabled⟩
    exact ⟨c.provider, isForm, mem_rows.mpr ⟨stored, owns, rfl, enabled⟩⟩

theorem block_sorted_iff : ((block db owner provider).Pairwise fun earlier later =>
      later.priority ≤ earlier.priority) ↔
    ∀ c ∈ rows db owner ("llm:" ++ provider), ∀ c' ∈ rows db owner provider,
      c'.priority ≤ c.priority := by
  have parts : block db owner provider =
      rows db owner ("llm:" ++ provider) ++ rows db owner provider := by
    simp [block, providerCandidates]
  rw [parts, pairwise_append]
  exact ⟨fun ⟨_, _, ranked⟩ => ranked, fun ranked => ⟨rows_sorted, rows_sorted, ranked⟩⟩

theorem eq_rows_of_listed {scope : CredentialScope} {scopeId : String} {listed : List Credential}
    (read : Credentials.listActiveForProvider db scope scopeId provider = .ok listed) :
    listed = rows db ⟨scope, scopeId⟩ provider :=
  (GatewayDb.reading_eq_ok.mp read).2.symm

theorem eq_block_of_scopeChain {scope : CredentialScope} {scopeId : String}
    {listed : List Credential} (read : scopeChain db provider scope scopeId = .ok listed) :
    listed = block db ⟨scope, scopeId⟩ provider :=
  eq_flatMap_of_gather (fun _ _ => eq_rows_of_listed) read

end Rows

/-! ## The chain -/

section Chain

variable {db : GatewayDb} {user : UserId} {provider : String} {chain : List Credential}

theorem teams_of_listed (keyed : db.Keyed) {teams : List UserTeamSummary}
    (listed : TeamMemberships.listForUser db user = .ok teams) :
    (teams.map (·.teamId)).Nodup ∧
      ∀ team, team ∈ teams.map (·.teamId) ↔
        ∃ m ∈ db.memberships, m.userId = user ∧ m.teamId = team := by
  obtain ⟨-, rfl⟩ := GatewayDb.reading_eq_ok.mp listed
  have joined : ((db.memberships.filter (·.userId = user)).filterMap db.summarise).map
      (·.teamId) = (db.memberships.filter (·.userId = user)).map (·.teamId) := by
    rw [map_filterMap, ← filterMap_eq_map]
    refine filterMap_congr fun m mem => ?_
    obtain ⟨summary, shown, same⟩ := keyed.summarise_eq_some (mem_of_mem_filter mem)
    rw [shown, Option.map_some, same]
    rfl
  have permuted := ((perm_insertionSort (fun a b : UserTeamSummary => a.teamName ≤ b.teamName)
    ((db.memberships.filter (·.userId = user)).filterMap db.summarise)).map (·.teamId))
  rw [joined] at permuted
  refine ⟨permuted.nodup_iff.mpr ?_, fun team => ?_⟩
  · have keys := keyed.membershipKeys.sublist
      ((filter_sublist (p := fun m => decide (m.userId = user))).map _)
    refine pairwise_map.mpr ((pairwise_map.mp keys).imp_of_mem
      fun {m m'} mem mem' distinct same => distinct ?_)
    have isUser : m.userId = user := of_decide_eq_true (mem_filter.mp mem).2
    have isUser' : m'.userId = user := of_decide_eq_true (mem_filter.mp mem').2
    rw [isUser, isUser', same]
  · rw [permuted.mem_iff, mem_map]
    constructor
    · rintro ⟨m, mem, isTeam⟩
      obtain ⟨stored, isUser⟩ := mem_filter.mp mem
      exact ⟨m, stored, of_decide_eq_true isUser, isTeam⟩
    · rintro ⟨m, stored, isUser, isTeam⟩
      exact ⟨m, mem_filter.mpr ⟨stored, decide_eq_true isUser⟩, isTeam⟩

def owners (user : UserId) (teams : List TeamId) : List Owner :=
  userOwner user :: teams.map teamOwner

/-- **The chain as a list of blocks.** -/
theorem chain_eq_blocks (keyed : db.Keyed)
    (resolved : resolveForUser db user provider = .ok chain) :
    ∃ teams : List TeamId, teams.Nodup ∧
      (∀ team, team ∈ teams ↔ ∃ m ∈ db.memberships, m.userId = user ∧ m.teamId = team) ∧
      chain = (owners user teams).flatMap fun owner => block db owner provider := by
  obtain ⟨own, ownRead, resolved⟩ := bind_eq_ok.mp resolved
  obtain ⟨teams, teamsRead, resolved⟩ := bind_eq_ok.mp resolved
  obtain ⟨shared, sharedRead, resolved⟩ := bind_eq_ok.mp resolved
  cases resolved
  obtain ⟨distinct, all⟩ := teams_of_listed keyed teamsRead
  refine ⟨teams.map (·.teamId), distinct, all, ?_⟩
  have parts : shared = teams.flatMap fun team => block db (teamOwner team.teamId) provider :=
    eq_flatMap_of_gather (fun _ _ => eq_block_of_scopeChain) sharedRead
  rw [eq_block_of_scopeChain ownRead, parts, owners, flatMap_cons, map_map,
    flatMap_map]
  rfl

theorem owners_nodup {teams : List TeamId} (distinct : teams.Nodup) :
    (owners user teams).Nodup := by
  refine nodup_cons.mpr ⟨fun mem => ?_, distinct.map fun a b same => ?_⟩
  · obtain ⟨team, -, same⟩ := mem_map.mp mem
    cases same
  · exact TeamId.toString_injective (congrArg Owner.scopeId same)

theorem ownedBy_flatMap {owner : Owner} : ∀ {owners : List Owner}, owners.Nodup →
    ownedBy owner (owners.flatMap fun owner => block db owner provider) =
      if owner ∈ owners then block db owner provider else []
  | [], _ => rfl
  | other :: owners, distinct => by
      obtain ⟨fresh, distinct⟩ := nodup_cons.mp distinct
      have rest : ownedBy owner (owners.flatMap fun owner => block db owner provider) = _ :=
        ownedBy_flatMap distinct
      unfold ownedBy at rest ⊢
      rw [flatMap_cons, filter_append, rest]
      by_cases same : owner = other
      · subst same
        rw [if_neg fresh, if_pos mem_cons_self, append_nil]
        exact filter_eq_self.mpr fun c mem => decide_eq_true (mem_block.mp mem).2.1
      · have foreign : (block db other provider).filter (fun c => owner.Owns c) = [] := by
          refine filter_eq_nil_iff.mpr fun c mem isOwned => same ?_
          obtain ⟨-, owns, -⟩ := mem_block.mp mem
          exact owner_unique (of_decide_eq_true isOwned) owns
        rw [foreign, nil_append]
        simp only [mem_cons, same, false_or]

theorem nodup_ids_flatMap {ι : Type} (keyed : db.Keyed) {parts : List ι} {g : ι → List Credential}
    (distinct : parts.Nodup) (each : ∀ part ∈ parts, ((g part).map (·.id)).Nodup)
    (stored : ∀ part, ∀ c ∈ g part, c ∈ db.credentials)
    (apart : ∀ part other c, c ∈ g part → c ∈ g other → part = other) :
    ((parts.flatMap g).map (·.id)).Nodup := by
  rw [map_flatMap, nodup_flatMap]
  refine ⟨each, distinct.imp fun {part other} differ => ?_⟩
  intro id mem mem'
  obtain ⟨c, here, rfl⟩ := mem_map.mp mem
  obtain ⟨c', there, same⟩ := mem_map.mp mem'
  obtain rfl := inj_on_of_nodup_map keyed.credentialIds (stored _ _ there) (stored _ _ here) same
  exact differ (apart _ _ _ here there)

theorem block_nodup (keyed : db.Keyed) (owner : Owner) :
    ((block db owner provider).map (·.id)).Nodup := by
  refine nodup_ids_flatMap keyed ?_ ?_ ?_ ?_
  · exact nodup_cons.mpr ⟨by simp, nodup_singleton _⟩
  · intro form _
    refine ((perm_insertionSort _ _).map _).nodup_iff.mpr ?_
    exact keyed.credentialIds.sublist (filter_sublist.map _)
  · exact fun form c mem => (mem_rows.mp mem).1
  · intro form other c mem mem'
    rw [← (mem_rows.mp mem).2.2.1, (mem_rows.mp mem').2.2.1]

theorem spendable_iff {teams : List TeamId}
    (all : ∀ team, team ∈ teams ↔ ∃ m ∈ db.memberships, m.userId = user ∧ m.teamId = team) :
    Spendable db user c ↔ ∃ owner ∈ owners user teams, owner.Owns c := by
  constructor
  · rintro (own | ⟨m, mem, isUser, isTeam, id⟩)
    · exact ⟨userOwner user, mem_cons_self, own⟩
    · refine ⟨teamOwner m.teamId, mem_cons_of_mem _ (mem_map_of_mem ?_), isTeam, id⟩
      exact (all m.teamId).mpr ⟨m, mem, isUser, rfl⟩
  · rintro ⟨owner, mem, owns⟩
    rcases mem_cons.mp mem with rfl | mem
    · exact .inl owns
    · obtain ⟨team, isTeam, rfl⟩ := mem_map.mp mem
      obtain ⟨m, stored, isUser, rfl⟩ := (all team).mp isTeam
      exact .inr ⟨m, stored, isUser, owns⟩

section Resolved

variable {teams : List TeamId} (distinct : teams.Nodup)
  (all : ∀ team, team ∈ teams ↔ ∃ m ∈ db.memberships, m.userId = user ∧ m.teamId = team)

include distinct in
theorem ownedBy_owners (owner : Owner) :
    ownedBy owner ((owners user teams).flatMap fun owner => block db owner provider) =
      if owner ∈ owners user teams then block db owner provider else [] :=
  ownedBy_flatMap (owners_nodup distinct)

include distinct all in
theorem contents_of_blocks (keyed : db.Keyed) : ChainContents db user provider
    ((owners user teams).flatMap fun owner => block db owner provider) where
  once := nodup_ids_flatMap keyed (owners_nodup distinct) (fun owner _ => block_nodup keyed owner)
    (fun owner c mem => (mem_block.mp mem).1)
    (fun owner other c mem mem' => owner_unique (mem_block.mp mem).2.1 (mem_block.mp mem').2.1)
  exactly := by
    intro c
    rw [mem_flatMap]
    constructor
    · rintro ⟨owner, isOwner, mem⟩
      obtain ⟨stored, owns, isForm, enabled⟩ := mem_block.mp mem
      exact ⟨stored, enabled, isForm, (spendable_iff all).mpr ⟨owner, isOwner, owns⟩⟩
    · rintro ⟨stored, enabled, isForm, spendable⟩
      obtain ⟨owner, isOwner, owns⟩ := (spendable_iff all).mp spendable
      exact ⟨owner, isOwner, mem_block.mpr ⟨stored, owns, isForm, enabled⟩⟩
  blocks := by
    refine ⟨teams, distinct, ?_⟩
    have teamBlocks : (teams.flatMap fun team => ownedBy (teamOwner team)
        ((owners user teams).flatMap fun owner => block db owner provider)) =
        teams.flatMap fun team => block db (teamOwner team) provider := by
      refine flatMap_congr fun team isTeam => ?_
      rw [ownedBy_owners distinct, if_pos]
      exact mem_cons_of_mem _ (mem_map_of_mem isTeam)
    have first : userOwner user ∈ owners user teams := mem_cons_self
    rw [ownedBy_owners distinct, if_pos first, teamBlocks, owners, flatMap_cons,
      flatMap_map]

include distinct all in
theorem sorted_blocks_iff : (∀ owner, (ownedBy owner ((owners user teams).flatMap fun owner =>
      block db owner provider)).Pairwise fun earlier later => later.priority ≤ earlier.priority) ↔
    FormsRanked db user provider := by
  constructor
  · intro sorted c c' eligible eligible' sameScope sameId llm bare
    obtain ⟨owner, isOwner, owns⟩ := (spendable_iff all).mp eligible.spendable
    have ranked := sorted owner
    rw [ownedBy_owners distinct, if_pos isOwner, block_sorted_iff] at ranked
    refine ranked c (mem_rows.mpr ⟨eligible.stored, owns, llm, eligible.enabled⟩) c'
      (mem_rows.mpr ⟨eligible'.stored, ?_, bare, eligible'.enabled⟩)
    exact ⟨sameScope.trans owns.1, sameId.trans owns.2⟩
  · intro ranked owner
    rw [ownedBy_owners distinct]
    split
    · rename_i isOwner
      refine block_sorted_iff.mpr fun c mem c' mem' => ?_
      obtain ⟨stored, owns, llm, enabled⟩ := mem_rows.mp mem
      obtain ⟨stored', owns', bare, enabled'⟩ := mem_rows.mp mem'
      have spendable : ∀ c, owner.Owns c → Spendable db user c :=
        fun c owns => (spendable_iff all).mpr ⟨owner, isOwner, owns⟩
      refine ranked c c' ⟨stored, enabled, ?_, spendable c owns⟩
        ⟨stored', enabled', ?_, spendable c' owns'⟩ (owns'.1.trans owns.1.symm)
        (owns'.2.trans owns.2.symm) llm bare
      · rw [llm]
        exact mem_cons_self
      · rw [bare]
        exact mem_cons_of_mem _ mem_cons_self
    · exact .nil

end Resolved

theorem sorted_iff_ranked (keyed : db.Keyed)
    (resolved : resolveForUser db user provider = .ok chain) :
    (∀ owner, (ownedBy owner chain).Pairwise fun earlier later =>
      later.priority ≤ earlier.priority) ↔ FormsRanked db user provider := by
  obtain ⟨teams, distinct, all, rfl⟩ := chain_eq_blocks keyed resolved
  exact sorted_blocks_iff distinct all

/-- **The chain of a user** has each eligible credential once, the user's own before a block for
each team; its blocks are sorted exactly when in each scope the namespaced credentials rank above
the bare ones. -/
theorem chain_laws_iff (keyed : db.Keyed) (resolved : resolveForUser db user provider = .ok chain) :
    ChainContents db user provider chain ∧
      (ChainLaws db user provider chain ↔ FormsRanked db user provider) := by
  have contents : ChainContents db user provider chain := by
    obtain ⟨teams, distinct, all, rfl⟩ := chain_eq_blocks keyed resolved
    exact contents_of_blocks distinct all keyed
  have ranked := sorted_iff_ranked keyed resolved
  exact ⟨contents, fun laws => ranked.mp laws.sorted, fun forms => ⟨contents, ranked.mpr forms⟩⟩

theorem exists_chain (readable : ∀ read, db.fault read = none) :
    ∃ chain, resolveForUser db user provider = .ok chain := by
  have part : ∀ scope scopeId, ∃ rows, scopeChain db provider scope scopeId = .ok rows :=
    fun scope scopeId => exists_gather_eq_ok fun form _ =>
      ⟨_, GatewayDb.reading_eq_ok.mpr ⟨readable _, rfl⟩⟩
  obtain ⟨own, ownRead⟩ := part .user user.toString
  obtain ⟨teams, teamsRead⟩ : ∃ teams, TeamMemberships.listForUser db user = .ok teams :=
    ⟨_, GatewayDb.reading_eq_ok.mpr ⟨readable _, rfl⟩⟩
  obtain ⟨shared, sharedRead⟩ : ∃ shared, gather (fun team : UserTeamSummary =>
      scopeChain db provider .team team.teamId.toString) teams = .ok shared :=
    exists_gather_eq_ok fun team _ => part .team team.teamId.toString
  refine ⟨own ++ shared, ?_⟩
  exact bind_eq_ok.mpr ⟨own, ownRead, bind_eq_ok.mpr ⟨teams, teamsRead,
    bind_eq_ok.mpr ⟨shared, sharedRead, rfl⟩⟩⟩

end Chain

/-! ### A user with two keys and a team -/

def person : UserId := ⟨uuidOf 1⟩

def crew : TeamId := ⟨uuidOf 2⟩

def key (n : Nat) (scope : CredentialScope) (scopeId provider : String) (priority : Int) :
    Credential :=
  { id := ⟨uuidOf n⟩, scope, scopeId, provider, apiKeyCiphertext := [], priority
    createdAt := "2026-01-01T00:00:00.000Z" }

def keys (llm bare : Int) : GatewayDb where
  teams := [⟨crew, "crew"⟩]
  roles := [⟨⟨uuidOf 3⟩, none, "member", {}⟩]
  memberships := [⟨person, crew, ⟨uuidOf 3⟩⟩]
  credentials :=
    [key 4 .user person.toString "llm:anthropic" llm, key 5 .user person.toString "anthropic" bare,
      key 6 .team crew.toString "llm:anthropic" 0]

theorem keys_keyed (llm bare : Int) : (keys llm bare).Keyed where
  credentialIds := by
    show [CredentialId.mk (uuidOf 4), ⟨uuidOf 5⟩, ⟨uuidOf 6⟩].Nodup
    decide
  membershipKeys := nodup_singleton _
  teamOf := by
    intro m mem
    obtain rfl := mem_singleton.mp mem
    exact ⟨_, mem_singleton_self _, rfl⟩
  roleOf := by
    intro m mem
    obtain rfl := mem_singleton.mp mem
    exact ⟨_, mem_singleton_self _, rfl⟩

theorem eligible_keys {llm bare : Int}
    (eligible : Eligible (keys llm bare) person "anthropic" c) :
    c = key 4 .user person.toString "llm:anthropic" llm ∨
      c = key 5 .user person.toString "anthropic" bare ∨
      c = key 6 .team crew.toString "llm:anthropic" 0 := by
  simpa [keys] using eligible.stored

theorem ranked_keys_laws : ∃ chain, resolveForUser (keys 1 0) person "anthropic" = .ok chain ∧
    FormsRanked (keys 1 0) person "anthropic" ∧ ChainLaws (keys 1 0) person "anthropic" chain := by
  obtain ⟨chain, resolved⟩ : ∃ chain, resolveForUser (keys 1 0) person "anthropic" = .ok chain :=
    exists_chain fun _ => rfl
  have ranked : FormsRanked (keys 1 0) person "anthropic" := by
    intro c c' eligible eligible' sameScope _ llm bare
    rcases eligible_keys eligible with rfl | rfl | rfl
    · rcases eligible_keys eligible' with rfl | rfl | rfl
      · exact le_rfl
      · exact (by decide : (0 : Int) ≤ 1)
      · cases sameScope
    · exact absurd llm (by decide)
    · rcases eligible_keys eligible' with rfl | rfl | rfl
      · cases sameScope
      · cases sameScope
      · exact le_rfl
  exact ⟨chain, resolved, ranked, (chain_laws_iff (keys_keyed 1 0) resolved).2.mpr ranked⟩

/-- **A bare key of priority 10 comes after a namespaced one of priority 0.** -/
theorem bare_key_comes_late : ∃ chain, resolveForUser (keys 0 10) person "anthropic" = .ok chain ∧
    (keys 0 10).Keyed ∧ ¬ ChainLaws (keys 0 10) person "anthropic" chain := by
  obtain ⟨chain, resolved⟩ : ∃ chain, resolveForUser (keys 0 10) person "anthropic" = .ok chain :=
    exists_chain fun _ => rfl
  refine ⟨chain, resolved, keys_keyed 0 10, fun laws => ?_⟩
  have ranked := (sorted_iff_ranked (keys_keyed 0 10) resolved).mp laws.sorted
  have own : ∀ c : Credential, c.scope = .user → c.scopeId = person.toString →
      Spendable (keys 0 10) person c := fun c scope id => .inl ⟨scope, id⟩
  have reversed := ranked (key 4 .user person.toString "llm:anthropic" 0)
    (key 5 .user person.toString "anthropic" 10)
    ⟨by simp [keys], rfl, by decide, own _ rfl rfl⟩ ⟨by simp [keys], rfl, by decide, own _ rfl rfl⟩
    rfl rfl rfl rfl
  exact absurd reversed (by decide)

end Havn.Gateway.CredentialChain
