import Havn.Lib.Machine
import Havn.Db.TeamMemberships
import Havn.Gateway.Api

/-!
# Changing a team's members

`havn-gateway`, `api/members.rs`: `PATCH` gives a member another role, `DELETE` removes one.  Both
are for admins of the team, and neither lets the only admin step down.

A request is a sequence of database statements.  Each is atomic and can fail, requests take theirs
in any order, and a request is dropped when its client goes away.
-/

namespace Havn.Gateway.Members

open Havn.Core Lib Db Api List

/-! ## A request -/

inductive Method
  | patch (roleId : String)
  | delete

structure Request where
  user : UserId
  team : String
  member : String
  method : Method

structure MemberView where
  userId : String
  displayName : String
  roleId : String
  roleName : String
  joinedAt : String
deriving DecidableEq

inductive Answer
  | view (view : MemberView)
  | noContent
deriving DecidableEq

structure AuditEntry where
  teamId : Option TeamId
  userId : UserId
  action : String
  details : Json

inductive Change
  | role (role : Role)
  | removal

structure Write where
  team : TeamId
  member : UserId
  change : Change

inductive Phase
  | admitting (team : TeamId)
  | findingRole (team : TeamId) (member : UserId) (roleId : RoleId)
  | counting (write : Write)
  | writing (write : Write)
  | rereading (write : Write)
  | auditing (write : Write)
  | finding (team : TeamId) (member : UserId) (role : Role)
  | naming (member : UserId) (role : Role) (updated : MembershipRow)
  | answered (answer : Except ApiError Answer)
  | dropped

def Phase.over : Phase → Bool
  | .answered _ | .dropped => true
  | _ => false

def Change.leaves : Change → Bool
  | .role new => new.name ≠ "admin"
  | .removal => true

variable (user : UserId)

def Write.stepsDown (write : Write) : Bool :=
  user = write.member ∧ write.change.leaves = true

def Write.apply (write : Write) (roster : Roster) : Roster :=
  match write.change with
  | .role role => roster.setRole write.member write.team role.id
  | .removal => roster.remove write.member write.team

def Write.refusal (write : Write) (members : List MembershipDetail) : Option ApiError :=
  match write.change with
  | .role _ =>
    if (members.filter (·.roleName = "admin")).length ≤ 1 then
      some (.conflict ("you are the only admin of this team — promote someone else "
        ++ "before demoting yourself"))
    else none
  | .removal =>
    if (members.any fun m => m.userId = write.member ∧ m.roleName = "admin") = true ∧
        (members.filter (·.roleName = "admin")).length ≤ 1 then
      some (.conflict ("you are the only admin of this team — promote someone else "
        ++ "before removing yourself"))
    else none

def Write.auditEntry (write : Write) : AuditEntry where
  teamId := some write.team
  userId := user
  action := match write.change with
    | .role _ => "member.role_changed"
    | .removal => "member.removed"
  details := match write.change with
    | .role role =>
      .object [("user_id", .string write.member.toString), ("role", .string role.name)]
    | .removal => .object [("user_id", .string write.member.toString)]

def toWrite (write : Write) : Phase :=
  if write.stepsDown user then .counting write else .writing write

def afterAudit (write : Write) : Phase :=
  match write.change with
  | .role role => .finding write.team write.member role
  | .removal => .answered (.ok .noContent)

section Handler

variable (reader : UuidReader)

def parseTeam (s : String) : Except ApiError TeamId :=
  match reader.teamId s with
  | some team => .ok team
  | none => .error (.badRequest "invalid team id")

def parseUser (s : String) : Except ApiError UserId :=
  match reader.userId s with
  | some user => .ok user
  | none => .error (.badRequest "invalid user id")

def parseRole (s : String) : Except ApiError RoleId :=
  match reader.roleId s with
  | some role => .ok role
  | none => .error (.badRequest "invalid role id")

def begin (request : Request) : Phase :=
  match parseTeam reader request.team with
  | .error e => .answered (.error e)
  | .ok team => .admitting team

def admitted (request : Request) (team : TeamId) : Phase :=
  match parseUser reader request.member with
  | .error e => .answered (.error e)
  | .ok member =>
    match request.method with
    | .delete => toWrite request.user ⟨team, member, .removal⟩
    | .patch roleId =>
      match parseRole reader roleId with
      | .error e => .answered (.error e)
      | .ok roleId => .findingRole team member roleId

def next (roster : Roster) (request : Request) : Phase → Phase
  | .admitting team =>
    if roster.isAdmin request.user team then admitted reader request team
    else .answered (.error (.forbidden ("user " ++ request.user.toString
      ++ " is not an admin of team " ++ team.toString)))
  | .findingRole team member roleId =>
    match roster.roles.find roleId with
    | none => .answered (.error (.badRequest ("no role with id " ++ roleId.toString)))
    | some role =>
      if role.teamId ≠ some team then
        .answered (.error (.badRequest ("role " ++ roleId.toString
          ++ " does not belong to team " ++ team.toString)))
      else toWrite request.user ⟨team, member, .role role⟩
  | .counting write =>
    match write.refusal (roster.listForTeam write.team) with
    | some e => .answered (.error e)
    | none => .writing write
  | .writing write =>
    match roster.find write.member write.team with
    -- no row was affected
    | none => .answered (.error (.ofDb .notFound))
    | some _ =>
      match write.change with
      | .role _ => .rereading write
      | .removal => .auditing write
  | .rereading write =>
    match roster.find write.member write.team with
    | none => .answered (.error (.ofDb .notFound))
    | some _ => .auditing write
  | .auditing write => afterAudit write
  | .finding team member role =>
    match roster.find member team with
    | none => .answered (.error .notFound)
    | some updated => .naming member role updated
  | .naming member role updated =>
    match roster.users.find member with
    | none => .answered (.error .notFound)
    | some target => .answered (.ok (.view
        ⟨member.toString, target.displayName, updated.roleId.toString, role.name,
          updated.joinedAt⟩))
  | .answered answer => .answered answer
  | .dropped => .dropped

end Handler

def failed (e : DbError) : Phase → Phase
  | .auditing write => afterAudit write
  | _ => .answered (.error (.ofDb e))

/-! ## Requests side by side -/

structure Call where
  request : Request
  phase : Phase

structure State where
  roster : Roster
  calls : List Call := []
  audit : List AuditEntry := []

inductive Label
  | arrive (request : Request)
  | act (n : ℕ) (fault : Option DbError)
  | drop (n : ℕ)

variable (roster : Roster)

def Phase.write : Phase → Roster
  | .writing write => write.apply roster
  | _ => roster

def Phase.entries : Phase → List AuditEntry
  | .auditing write => [write.auditEntry user]
  | _ => []

def executed (reader : UuidReader) (s : State) (n : ℕ) (call : Call) : State where
  roster := call.phase.write s.roster
  calls := s.calls.set n ⟨call.request, next reader s.roster call.request call.phase⟩
  audit := s.audit ++ call.phase.entries call.request.user

def moved (s : State) (n : ℕ) (call : Call) (phase : Phase) : State :=
  { s with calls := s.calls.set n ⟨call.request, phase⟩ }

def running (s : State) (n : ℕ) (act : Call → State) : Option State :=
  s.calls[n]?.bind fun call => if call.phase.over then none else some (act call)

def step (reader : UuidReader) (s : State) : Label → Option State
  | .arrive request => some { s with calls := s.calls ++ [⟨request, begin reader request⟩] }
  | .act n none => running s n fun call => executed reader s n call
  | .act n (some e) => running s n fun call => moved s n call (failed e call.phase)
  | .drop n => running s n fun call => moved s n call .dropped

def start : State := { roster }

/-! ## What a request relies on -/

def Write.takesAdmin (write : Write) : Bool :=
  roster.isAdmin write.member write.team && !(write.apply roster).isAdmin write.member write.team

/-- Between its admin check and its write a request relies on its caller being an admin; one that
has counted the admins relies on all of them. -/
def Call.reliesOn (call : Call) (team : TeamId) (member : UserId) : Bool :=
  match call.phase with
  | .findingRole team' _ _ => team' = team ∧ call.request.user = member
  | .counting write => write.team = team ∧ call.request.user = member
  | .writing write => write.team = team ∧
      (call.request.user = member ∨ write.stepsDown call.request.user = true)
  | _ => false

def Spares (team : TeamId) (s : State) (n : ℕ) : Phase → Prop
  | .writing write => write.team = team → write.takesAdmin s.roster = true →
      ∀ other ∈ s.calls.eraseIdx n, other.reliesOn team write.member = false
  | _ => True

instance (team : TeamId) (s : State) (n : ℕ) (phase : Phase) :
    Decidable (Spares team s n phase) := by
  unfold Spares
  split <;> infer_instance

def Undisturbed (team : TeamId) (s : State) : Label → Prop
  | .act n none => ∀ call ∈ s.calls[n]?, Spares team s n call.phase
  | _ => True

instance (team : TeamId) (s : State) (label : Label) : Decidable (Undisturbed team s label) := by
  unfold Undisturbed
  split <;> infer_instance

/-! ## Writes -/

section Writes

variable {roster : Roster} {write : Write} {user : UserId} {team : TeamId}

def Write.Known (roster : Roster) (write : Write) : Prop :=
  ∀ role, write.change = .role role → roster.roles.find role.id = some role

theorem Write.roles_apply : (write.apply roster).roles = roster.roles := by
  unfold Write.apply
  split <;> rfl

theorem Write.administers_apply_of_ne (other : (user, team) ≠ (write.member, write.team)) :
    (write.apply roster).Administers user team ↔ roster.Administers user team := by
  unfold Write.apply
  split
  · exact Roster.administers_setRole_of_ne other
  · exact Roster.administers_remove_of_ne other

theorem Write.administers_apply (kept : write.takesAdmin roster = false ∨ user ≠ write.member)
    (administers : roster.Administers user team) : (write.apply roster).Administers user team := by
  by_cases same : (user, team) = (write.member, write.team)
  · obtain ⟨rfl, rfl⟩ := Prod.mk.inj same
    have isAdmin := Roster.isAdmin_eq_true.mpr administers
    rcases kept with kept | other
    · rw [Write.takesAdmin, isAdmin, Bool.true_and, Bool.not_eq_false'] at kept
      exact Roster.isAdmin_eq_true.mp kept
    · exact absurd rfl other
  · exact (Write.administers_apply_of_ne same).mpr administers

theorem Write.administers_of_stays (known : write.Known roster)
    (stays : write.stepsDown user = false) (administers : roster.Administers user write.team) :
    (write.apply roster).Administers user write.team := by
  by_cases own : user = write.member
  · subst own
    have named : write.change.leaves = false := by simpa [Write.stepsDown] using stays
    unfold Write.apply
    split
    · rename_i role isRole
      rw [isRole] at named
      refine Roster.administers_setRole (known role isRole) ?_ administers
      simpa [Change.leaves] using named
    · rename_i isRemoval
      rw [isRemoval] at named
      cases named
  · exact Write.administers_apply (.inr own) administers

end Writes

/-! ## What the checks have established -/

variable {phase : Phase} {write : Write} {user : UserId}

section Checks

variable {reader : UuidReader} {team : TeamId} {roster : Roster} {request : Request}

def Relied (team : TeamId) (roster : Roster) (user : UserId) : Phase → Prop
  | .findingRole team' _ _ => team' = team → roster.Administers user team
  | .counting write => write.Known roster ∧ (write.team = team → roster.Administers user team)
  | .writing write => write.Known roster ∧ (write.team = team → roster.Administers user team ∧
      (write.stepsDown user = true → ∃ other ≠ user, roster.Administers other team))
  | _ => True

theorem relied_toWrite (known : write.Known roster)
    (administers : write.team = team → roster.Administers user team) :
    Relied team roster user (toWrite user write) := by
  unfold toWrite
  split
  · exact ⟨known, administers⟩
  · rename_i stays
    exact ⟨known, fun same => ⟨administers same, fun down => absurd down stays⟩⟩

variable (reader) in
theorem relied_begin : Relied team roster request.user (begin reader request) := by
  unfold begin
  split <;> trivial

theorem relied_afterAudit : Relied team roster user (afterAudit write) := by
  unfold afterAudit
  split <;> trivial

theorem relied_failed {e : DbError} : Relied team roster user (failed e phase) := by
  unfold failed
  split
  · exact relied_afterAudit
  · trivial

theorem exists_other_of_counted
    (administers : roster.Administers user write.team) (down : write.stepsDown user = true)
    (counted : write.refusal (roster.listForTeam write.team) = none) :
    ∃ other ≠ user, roster.Administers other write.team := by
  obtain ⟨rfl, -⟩ : user = write.member ∧ _ := of_decide_eq_true down
  refine Roster.exists_other_admin ?_ _
  unfold Write.refusal at counted
  split at counted
  · split at counted
    · cases counted
    · omega
  · split at counted
    · cases counted
    rename_i passes
    obtain ⟨detail, listed, isUser, named⟩ := Roster.exists_listed administers
    have isAdmin : ((roster.listForTeam write.team).any fun m =>
        m.userId = write.member ∧ m.roleName = "admin") = true :=
      any_eq_true.mpr ⟨detail, listed, decide_eq_true ⟨isUser, named⟩⟩
    by_contra few
    exact passes ⟨isAdmin, by omega⟩

theorem relied_next (relied : Relied team roster request.user phase)
    (reads : ∀ write, phase ≠ .writing write) :
    Relied team roster request.user (next reader roster request phase) := by
  cases phase with
  | admitting =>
    rw [next]
    split
    · rename_i isAdmin
      have administers := Roster.isAdmin_eq_true.mp isAdmin
      unfold admitted
      split
      · trivial
      · split
        · exact relied_toWrite (fun _ writes => nomatch writes) fun same => same ▸ administers
        · split
          · trivial
          · exact fun same => same ▸ administers
    · trivial
  | findingRole =>
    rw [next]
    split
    · trivial
    · rename_i role found
      split
      · trivial
      · refine relied_toWrite ?_ relied
        rintro _ ⟨⟩
        rw [(Table.find_eq_some.mp found).2]
        exact found
  | counting =>
    obtain ⟨known, administers⟩ := relied
    rw [next]
    split
    · trivial
    · rename_i counted
      refine ⟨known, fun same => ⟨administers same, fun down => ?_⟩⟩
      subst same
      exact exists_other_of_counted (administers rfl) down counted
  | writing write => exact absurd rfl (reads write)
  | rereading | finding | naming =>
    rw [next]
    split <;> trivial
  | auditing => exact relied_afterAudit
  | answered => trivial
  | dropped => trivial

variable (reader) in
theorem relied_written {roster' : Roster} :
    Relied team roster' request.user (next reader roster request (.writing write)) := by
  rw [next]
  split
  · trivial
  · split <;> trivial

end Checks

/-! ## Runs -/

section Runs

variable {reader : UuidReader} {team : TeamId} {roster : Roster} {s s' : State}

structure Sound (team : TeamId) (s : State) : Prop where
  hasAdmin : s.roster.HasAdmin team
  relied : ∀ call ∈ s.calls, Relied team s.roster call.request.user call.phase

theorem Sound.set (sound : Sound team s) {n : ℕ} {request : Request} {audit : List AuditEntry}
    (relied : Relied team s.roster request.user phase) :
    Sound team ⟨s.roster, s.calls.set n ⟨request, phase⟩, audit⟩ where
  hasAdmin := sound.hasAdmin
  relied := by
    intro call mem
    rcases mem_or_eq_of_mem_set mem with mem | rfl
    · exact sound.relied call mem
    · exact relied

theorem mem_eraseIdx_of_mem_set {call new : Call} {calls : List Call} {n : ℕ}
    (mem : call ∈ calls.set n new) : call = new ∨ call ∈ calls.eraseIdx n := by
  rw [set_eq_take_append_cons_drop] at mem
  rw [eraseIdx_eq_take_drop_succ]
  split at mem
  · simpa [or_left_comm] using mem
  · right
    rwa [take_of_length_le (by omega), drop_of_length_le (by omega), append_nil]

theorem relied_apply {call : Call} (relied : Relied team roster call.request.user call.phase)
    (apart : write.team = team → write.takesAdmin roster = true →
      call.reliesOn team write.member = false) :
    Relied team (write.apply roster) call.request.user call.phase := by
  have kept : ∀ user, (write.team = team → write.takesAdmin roster = true → user ≠ write.member) →
      roster.Administers user team → (write.apply roster).Administers user team := by
    intro user apart administers
    by_cases same : write.team = team
    · cases takes : write.takesAdmin roster with
      | false => exact write.administers_apply (.inl takes) administers
      | true => exact write.administers_apply (.inr (apart same takes)) administers
    · exact (write.administers_apply_of_ne fun key => same (Prod.mk.inj key).2.symm).mpr administers
  have known : ∀ other : Write, other.Known roster → other.Known (write.apply roster) := by
    intro other known role isRole
    rw [write.roles_apply]
    exact known role isRole
  obtain ⟨request, phase⟩ := call
  cases phase with
  | findingRole =>
    intro same
    refine kept _ (fun here takes => ?_) (relied same)
    simpa [Call.reliesOn, same] using apart here takes
  | counting other =>
    refine ⟨known other relied.1, fun same => ?_⟩
    refine kept _ (fun here takes => ?_) (relied.2 same)
    simpa [Call.reliesOn, same] using apart here takes
  | writing other =>
    refine ⟨known other relied.1, fun same => ?_⟩
    obtain ⟨administers, others⟩ := relied.2 same
    have free : write.team = team → write.takesAdmin roster = true →
        request.user ≠ write.member ∧ other.stepsDown request.user = false := by
      intro here takes
      simpa [Call.reliesOn, same] using apart here takes
    refine ⟨kept _ (fun here takes => (free here takes).1) administers, fun down => ?_⟩
    obtain ⟨user, differs, isAdmin⟩ := others down
    refine ⟨user, differs, kept _ (fun here takes => ?_) isAdmin⟩
    exact absurd (free here takes).2 (by simp [down])
  | _ => trivial

theorem hasAdmin_apply (hasAdmin : roster.HasAdmin team)
    (relied : Relied team roster user (.writing write)) : (write.apply roster).HasAdmin team := by
  obtain ⟨known, checks⟩ := relied
  refine Roster.hasAdmin_iff.mpr ?_
  by_cases same : write.team = team
  · subst same
    obtain ⟨administers, others⟩ := checks rfl
    cases down : write.stepsDown user with
    | false => exact ⟨user, write.administers_of_stays known down administers⟩
    | true =>
      obtain ⟨other, differs, isAdmin⟩ := others down
      have own : user = write.member := (of_decide_eq_true down).1
      exact ⟨other, write.administers_apply (.inr (own ▸ differs)) isAdmin⟩
  · obtain ⟨admin, administers⟩ := Roster.hasAdmin_iff.mp hasAdmin
    refine ⟨admin, (write.administers_apply_of_ne fun key => same ?_).mpr administers⟩
    exact (Prod.mk.inj key).2.symm

theorem running_eq_some {n : ℕ} {act : Call → State} (ran : running s n act = some s') :
    ∃ call, s.calls[n]? = some call ∧ s' = act call := by
  obtain ⟨call, found, ran⟩ := Option.bind_eq_some_iff.mp ran
  split at ran
  · cases ran
  · exact ⟨call, found, (Option.some.inj ran).symm⟩

theorem Sound.executed {n : ℕ} {call : Call} (sound : Sound team s)
    (found : s.calls[n]? = some call) (undisturbed : Undisturbed team s (.act n none)) :
    Sound team (executed reader s n call) := by
  have relied := sound.relied call (mem_of_getElem? found)
  have apart := undisturbed call found
  obtain ⟨request, phase⟩ := call
  by_cases writes : ∃ write, phase = .writing write
  · obtain ⟨write, rfl⟩ := writes
    refine ⟨hasAdmin_apply sound.hasAdmin relied, fun other mem => ?_⟩
    rcases mem_eraseIdx_of_mem_set mem with rfl | mem
    · exact relied_written reader
    · refine relied_apply (sound.relied other (mem_of_mem_eraseIdx mem)) ?_
      exact fun here takes => apart here takes other mem
  · have reads : ∀ write, phase ≠ .writing write := not_exists.mp writes
    have same : phase.write s.roster = s.roster := by
      unfold Phase.write
      split
      · exact absurd rfl (reads _)
      · rfl
    rw [Members.executed, same]
    exact sound.set (relied_next relied reads)

theorem sound_step {label : Label} (sound : Sound team s) (undisturbed : Undisturbed team s label)
    (stepped : step reader s label = some s') : Sound team s' := by
  match label with
  | .arrive request =>
    cases stepped
    refine ⟨sound.hasAdmin, fun call mem => ?_⟩
    rcases mem_snoc.mp mem with mem | rfl
    · exact sound.relied call mem
    · exact relied_begin reader
  | .act n none =>
    obtain ⟨call, found, rfl⟩ := running_eq_some stepped
    exact sound.executed found undisturbed
  | .act n (some e) =>
    obtain ⟨call, -, rfl⟩ := running_eq_some stepped
    exact sound.set relied_failed
  | .drop n =>
    obtain ⟨call, -, rfl⟩ := running_eq_some stepped
    exact sound.set trivial

/-- **A team keeps an admin** in every interleaving, as long as no write takes the admin role from a
member that another request relies on. -/
theorem admin_remains (hasAdmin : roster.HasAdmin team) {labels : List Label} {t : State}
    (run : Run (step reader) (Undisturbed team) (start roster) labels t) :
    t.roster.HasAdmin team := by
  have initial : Sound team (start roster) := ⟨hasAdmin, fun _ mem => absurd mem not_mem_nil⟩
  have sound : Sound team t :=
    run.invariant (fun _ _ _ sound undisturbed => sound_step sound undisturbed) initial
  exact sound.hasAdmin

end Runs

/-! ## Two admins -/

section TwoAdmins

def sales : TeamId := ⟨uuidOf 1⟩

def ann : UserId := ⟨uuidOf 2⟩

def bob : UserId := ⟨uuidOf 3⟩

def adminRole : Role := ⟨⟨uuidOf 4⟩, some sales, "admin", Policy.default⟩

def memberRole : Role := ⟨⟨uuidOf 5⟩, some sales, "member", Policy.default⟩

def twoAdmins : Roster where
  users := ⟨[⟨ann, "Ann"⟩, ⟨bob, "Bob"⟩], by decide⟩
  roles := ⟨[adminRole, memberRole], by decide⟩
  memberships :=
    ⟨[⟨⟨ann, sales, adminRole.id⟩, "2026-01-01"⟩, ⟨⟨bob, sales, adminRole.id⟩, "2026-01-02"⟩],
      by decide⟩
  userOf := by
    intro row mem
    rcases mem_pair.mp mem with rfl | rfl
    · exact ⟨⟨ann, "Ann"⟩, by decide⟩
    · exact ⟨⟨bob, "Bob"⟩, by decide⟩

def demote (user member : UserId) : Request :=
  ⟨user, sales.toString, member.toString, .patch memberRole.id.toString⟩

def expel (user member : UserId) : Request :=
  ⟨user, sales.toString, member.toString, .delete⟩

def demotions : List Label :=
  .arrive (demote ann bob) :: List.replicate 7 (.act 0 none) ++
    .arrive (demote ann ann) :: List.replicate 3 (.act 1 none)

theorem admin_remains_demotions :
    ∃ t, Run (step .hyphenated) (Undisturbed sales) (start twoAdmins) demotions t ∧
      t.roster.HasAdmin sales := by
  obtain ⟨t, run, -⟩ : ∃ t,
      Run (step .hyphenated) (Undisturbed sales) (start twoAdmins) demotions t ∧ True :=
    exists_run (by decide +kernel)
  exact ⟨t, run, admin_remains (by decide) run⟩

def expulsions : List Label :=
  [.arrive (expel ann bob), .arrive (expel bob ann), .act 0 none, .act 1 none,
    .act 0 none, .act 1 none]

theorem removed_each_other :
    (start twoAdmins).roster.HasAdmin sales ∧
      ∃ t, exec (step .hyphenated) (start twoAdmins) expulsions = some t ∧
        ¬ t.roster.HasAdmin sales :=
  ⟨by decide, exists_exec (by decide +kernel)⟩

end TwoAdmins

end Havn.Gateway.Members
