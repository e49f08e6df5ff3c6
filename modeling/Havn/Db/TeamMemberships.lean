import Havn.Lib.Table
import Havn.Db.Gateway

/-!
# Team memberships

`havn-db`, `repo/team_memberships.rs`, over tables whose keys are unique.  A statement is one step;
`administers_setRole` and `administers_remove` say what it does to who administers a team.
-/

namespace Havn.Db

open Havn.Core Lib List

structure User where
  id : UserId
  displayName : String
deriving DecidableEq

structure MembershipRow extends Membership where
  joinedAt : String
deriving DecidableEq

def MembershipRow.key (row : MembershipRow) : UserId × TeamId := (row.userId, row.teamId)

def MembershipRow.withRole (role : RoleId) (row : MembershipRow) : MembershipRow :=
  { row with roleId := role }

theorem MembershipRow.key_withRole (role : RoleId) (row : MembershipRow) :
    (row.withRole role).key = row.key := rfl

structure MembershipDetail where
  userId : UserId
  userDisplayName : String
  roleId : RoleId
  roleName : String
  joinedAt : String
deriving DecidableEq

structure Roster where
  users : Table User User.id
  roles : Table Role Role.id
  memberships : Table MembershipRow MembershipRow.key
  userOf : ∀ row ∈ memberships.rows, ∃ user, users.find row.userId = some user

namespace Roster

variable (roster : Roster) (user : UserId)

def roleName (row : MembershipRow) : Option String := (roster.roles.find row.roleId).map (·.name)

def find (user : UserId) (team : TeamId) : Option MembershipRow :=
  roster.memberships.find (user, team)

def detail (row : MembershipRow) : Option MembershipDetail :=
  match roster.users.find row.userId, roster.roles.find row.roleId with
  | some user, some role => some ⟨row.userId, user.displayName, row.roleId, role.name, row.joinedAt⟩
  | _, _ => none

def listForTeam (team : TeamId) : List MembershipDetail :=
  ((roster.memberships.rows.filter (·.teamId = team)).filterMap roster.detail).insertionSort
    fun a b => a.joinedAt ≤ b.joinedAt

def isAdmin (team : TeamId) : Bool :=
  0 < (roster.memberships.rows.filter fun row =>
    row.userId = user ∧ row.teamId = team ∧ roster.roleName row = some "admin").length

def setRole (team : TeamId) (role : RoleId) : Roster :=
  { roster with
    memberships := roster.memberships.update (fun row => row.key = (user, team))
      (MembershipRow.withRole role) (MembershipRow.key_withRole role)
    userOf := by
      intro row mem
      obtain ⟨old, isOld, rfl⟩ := mem_map.mp mem
      split <;> exact roster.userOf old isOld }

def remove (team : TeamId) : Roster :=
  { roster with
    memberships := roster.memberships.delete fun row => row.key = (user, team)
    userOf := fun row mem => roster.userOf row (mem_of_mem_filter mem) }

/-! ## Who administers a team -/

def Administers (team : TeamId) : Prop :=
  ∃ row, roster.find user team = some row ∧ roster.roleName row = some "admin"

def HasAdmin (team : TeamId) : Prop :=
  ∃ row ∈ roster.memberships.rows, row.teamId = team ∧ roster.roleName row = some "admin"
  deriving Decidable

variable {roster} {user member : UserId} {team team' : TeamId} {row : MembershipRow}

theorem find_eq_some : roster.find user team = some row ↔
    row ∈ roster.memberships.rows ∧ row.userId = user ∧ row.teamId = team := by
  rw [find, Table.find_eq_some, MembershipRow.key, Prod.mk.injEq]

theorem isAdmin_eq_true : roster.isAdmin user team = true ↔ roster.Administers user team := by
  rw [isAdmin, decide_eq_true_iff, length_pos_iff_exists_mem]
  constructor
  · rintro ⟨row, mem⟩
    obtain ⟨mem, isRow⟩ := mem_filter.mp mem
    obtain ⟨isUser, isTeam, named⟩ := of_decide_eq_true isRow
    exact ⟨row, find_eq_some.mpr ⟨mem, isUser, isTeam⟩, named⟩
  · rintro ⟨row, found, named⟩
    obtain ⟨mem, isUser, isTeam⟩ := find_eq_some.mp found
    exact ⟨row, mem_filter.mpr ⟨mem, decide_eq_true ⟨isUser, isTeam, named⟩⟩⟩

theorem hasAdmin_iff : roster.HasAdmin team ↔ ∃ user, roster.Administers user team := by
  constructor
  · rintro ⟨row, mem, isTeam, named⟩
    exact ⟨row.userId, row, find_eq_some.mpr ⟨mem, rfl, isTeam⟩, named⟩
  · rintro ⟨user, row, found, named⟩
    obtain ⟨mem, -, isTeam⟩ := find_eq_some.mp found
    exact ⟨row, mem, isTeam, named⟩

theorem find_setRole {role : RoleId} : (roster.setRole member team' role).find user team =
    (roster.find user team).map fun row =>
      if decide (row.key = (member, team')) then row.withRole role else row :=
  @Table.find_update _ _ _ _ _ _ _ (MembershipRow.key_withRole role) (user, team)

theorem find_remove : (roster.remove member team').find user team =
    (roster.find user team).filter fun row => !decide (row.key = (member, team')) :=
  Table.find_delete (user, team)

theorem key_of_find (found : roster.find user team = some row) :
    row.key = (user, team) :=
  (Table.find_eq_some.mp found).2

theorem administers_setRole_of_ne {role : RoleId} (other : (user, team) ≠ (member, team')) :
    (roster.setRole member team' role).Administers user team ↔ roster.Administers user team := by
  have same : (roster.setRole member team' role).find user team = roster.find user team := by
    rw [find_setRole]
    cases found : roster.find user team with
    | none => rfl
    | some =>
      rw [Option.map_some, key_of_find found, if_neg (by simpa using other)]
  show (∃ row, (roster.setRole member team' role).find user team = some row ∧ _) ↔ _
  rw [same]
  rfl

theorem administers_setRole {role : Role} (known : roster.roles.find role.id = some role)
    (named : role.name = "admin") (was : roster.Administers user team) :
    (roster.setRole user team role.id).Administers user team := by
  obtain ⟨row, found, -⟩ := was
  refine ⟨row.withRole role.id, ?_, ?_⟩
  · rw [find_setRole, found, Option.map_some, if_pos (by simpa using key_of_find found)]
  · show (roster.roles.find role.id).map (·.name) = _
    rw [known, Option.map_some, named]

theorem administers_remove_of_ne (other : (user, team) ≠ (member, team')) :
    (roster.remove member team').Administers user team ↔ roster.Administers user team := by
  have same : (roster.remove member team').find user team = roster.find user team := by
    rw [find_remove]
    cases found : roster.find user team with
    | none => rfl
    | some =>
      rw [Option.filter_some_pos (by rw [key_of_find found, decide_eq_false other]; rfl)]
  show (∃ row, (roster.remove member team').find user team = some row ∧ _) ↔ _
  rw [same]
  rfl

/-! ## Counting admins -/

theorem detail_eq_some {detail : MembershipDetail}
    (joined : roster.detail row = some detail) :
    detail.userId = row.userId ∧ roster.roleName row = some detail.roleName := by
  unfold Roster.detail at joined
  split at joined
  · rename_i isUser isRole
    cases joined
    exact ⟨rfl, by rw [roleName, isRole, Option.map_some]⟩
  · cases joined

theorem exists_listed (administers : roster.Administers user team) :
    ∃ detail ∈ roster.listForTeam team, detail.userId = user ∧ detail.roleName = "admin" := by
  obtain ⟨row, found, named⟩ := administers
  obtain ⟨mem, isUser, isTeam⟩ := find_eq_some.mp found
  obtain ⟨role, isRole, isAdmin⟩ := Option.map_eq_some_iff.mp named
  obtain ⟨account, isAccount⟩ := roster.userOf row mem
  refine ⟨⟨row.userId, account.displayName, row.roleId, role.name, row.joinedAt⟩, ?_, isUser,
    isAdmin⟩
  refine (mem_insertionSort _).mpr (mem_filterMap.mpr ⟨row, ?_, ?_⟩)
  · exact mem_filter.mpr ⟨mem, decide_eq_true isTeam⟩
  · rw [Roster.detail, isAccount, isRole]

theorem nodup_listForTeam : ((roster.listForTeam team).map (·.userId)).Nodup := by
  have joined : (((roster.memberships.rows.filter (·.teamId = team)).filterMap
      roster.detail).map (·.userId)).Nodup := by
    have keys : roster.memberships.rows.Pairwise (·.key ≠ ·.key) :=
      pairwise_map.mp roster.memberships.unique
    refine pairwise_map.mpr (List.Pairwise.filterMap _ ?_
      (keys.filter _ |>.imp_of_mem (S := fun a b => a.userId ≠ b.userId) ?_))
    · intro row row' differ detail isDetail detail' isDetail'
      rw [(detail_eq_some isDetail).1, (detail_eq_some isDetail').1]
      exact differ
    · intro row row' mem mem' differ same
      have isTeam : row.teamId = team := by simpa using (mem_filter.mp mem).2
      have isTeam' : row'.teamId = team := by simpa using (mem_filter.mp mem').2
      exact differ (Prod.ext same (isTeam.trans isTeam'.symm))
  exact ((perm_insertionSort _ _).map _).nodup_iff.mpr joined

theorem exists_other_admin
    (several : 1 < ((roster.listForTeam team).filter (·.roleName = "admin")).length)
    (user : UserId) : ∃ other ≠ user, roster.Administers other team := by
  by_contra alone
  push Not at alone
  generalize listed : (roster.listForTeam team).filter (·.roleName = "admin") = admins at several
  have only : admins.map (·.userId) ⊆ [user] := by
    intro other mem
    obtain ⟨detail, isAdmin, rfl⟩ := mem_map.mp mem
    rw [← listed] at isAdmin
    obtain ⟨mem, named⟩ := mem_filter.mp isAdmin
    obtain ⟨row, mem, joined⟩ := mem_filterMap.mp ((mem_insertionSort _).mp mem)
    obtain ⟨mem, isTeam⟩ := mem_filter.mp mem
    obtain ⟨isUser, isName⟩ := detail_eq_some joined
    refine mem_singleton.mpr (by_contra fun differs => alone _ differs ⟨row, ?_, ?_⟩)
    · exact find_eq_some.mpr ⟨mem, isUser.symm, of_decide_eq_true isTeam⟩
    · rw [isName, of_decide_eq_true named]
  have once : (admins.map (·.userId)).Nodup := by
    rw [← listed]
    exact nodup_listForTeam.sublist (filter_sublist.map _)
  have atMost := (subperm_of_subset once only).length_le
  rw [length_map, length_singleton] at atMost
  omega

end Roster

end Havn.Db
