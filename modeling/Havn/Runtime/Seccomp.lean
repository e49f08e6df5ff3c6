import Havn.Lib.Except
import Havn.Lib.Text
import Mathlib.Data.Int.Notation

/-!
# The runtime's syscall filter

`havn-runtime/src/seccomp.rs` and the step of `main` that calls it.  `seccomp.allow_extra` takes
syscalls off a fixed blocklist, from a short table of those that may be relaxed; another name makes
`restrict_syscalls` fail before it installs anything.

The filter is modelled as the kernel reads it.  Whether the library and the kernel take a program is
theirs to say (`Kernel`).
-/

namespace Havn.Runtime.Seccomp

open Lib List Function

/-! ## Filters -/

inductive Syscall where
  | mount | umount2 | pivotRoot | chroot
  | initModule | finitModule | deleteModule
  | reboot | kexecLoad | kexecFileLoad
  | ptrace | processVmReadv | processVmWritev
  | bpf | perfEventOpen
  | swapon | swapoff | syslog | settimeofday | clockSettime | clockAdjtime | adjtimex
  | userfaultfd | quotactl
  | nameToHandleAt | openByHandleAt
  | other (number : ℤ)
  deriving DecidableEq

structure SyscallInvocation where
  syscall : Syscall
  args : Fin 6 → UInt64

inductive SeccompAction where
  | allow
  | killProcess
  deriving DecidableEq

inductive SeccompCmpArgLen where
  | dword
  | qword
  deriving DecidableEq

inductive SeccompCmpOp where
  | eq | ge | gt | le | lt | ne
  deriving DecidableEq

structure SeccompCondition where
  argIndex : Fin 6
  argLen : SeccompCmpArgLen
  operator : SeccompCmpOp
  value : UInt64
  deriving DecidableEq

namespace SeccompCondition

def new (argIndex : ℕ) (argLen : SeccompCmpArgLen) (operator : SeccompCmpOp) (value : UInt64) :
    Except String SeccompCondition :=
  if h : argIndex < 6 then .ok ⟨⟨argIndex, h⟩, argLen, operator, value⟩
  else .error "InvalidArgumentNumber"

def holds (condition : SeccompCondition) (call : SyscallInvocation) : Bool :=
  let cut : UInt64 → ℕ := fun n => match condition.argLen with
    | .dword => n.toUInt32.toNat
    | .qword => n.toNat
  let arg := cut (call.args condition.argIndex)
  let value := cut condition.value
  match condition.operator with
  | .eq => arg = value
  | .ge => value ≤ arg
  | .gt => value < arg
  | .le => arg ≤ value
  | .lt => arg < value
  | .ne => arg ≠ value

end SeccompCondition

structure SeccompRule where
  conditions : List SeccompCondition

def SeccompRule.new (conditions : List SeccompCondition) : Except String SeccompRule :=
  if conditions.isEmpty then .error "EmptyRule" else .ok ⟨conditions⟩

structure SeccompFilter where
  rules : Syscall → Option (List SeccompRule)
  mismatchAction : SeccompAction
  matchAction : SeccompAction

namespace SeccompFilter

def new (rules : Syscall → Option (List SeccompRule))
    (mismatchAction matchAction : SeccompAction) : Except String SeccompFilter :=
  if mismatchAction = matchAction then .error "IdenticalActions"
  else .ok ⟨rules, mismatchAction, matchAction⟩

/-- Rules are alternatives; an entry without rules matches always. -/
def action (filter : SeccompFilter) (call : SyscallInvocation) : SeccompAction :=
  match filter.rules call.syscall with
  | none => filter.mismatchAction
  | some rules =>
    if rules.isEmpty ∨ rules.any (fun rule => rule.conditions.all (·.holds call)) then
      filter.matchAction
    else filter.mismatchAction

end SeccompFilter

/-! ## The blocklist -/

inductive SeccompError where
  | build (message : String)
  | compile (message : String)
  | apply (message : String)
  | unknownSyscall (name : String)
  deriving DecidableEq

def dangerousSyscalls : List Syscall :=
  [.mount, .umount2, .pivotRoot, .chroot,
   .initModule, .finitModule, .deleteModule,
   .reboot, .kexecLoad, .kexecFileLoad,
   .ptrace, .processVmReadv, .processVmWritev,
   .bpf, .perfEventOpen,
   .swapon, .swapoff, .syslog, .settimeofday, .clockSettime, .clockAdjtime, .adjtimex,
   .userfaultfd, .quotactl,
   .nameToHandleAt, .openByHandleAt]

def operatorRelaxableSyscalls : List (String × Syscall) :=
  [("pivot_root", .pivotRoot), ("userfaultfd", .userfaultfd)]

variable (name : String) (allowExtra : List String) (blocked : List Syscall) (kernel : Kernel)

def relaxed : Except SeccompError Syscall :=
  let trimmed := trim name
  match operatorRelaxableSyscalls.find? (fun entry => entry.1 = trimmed) with
  | some (_, id) => .ok id
  | none => .error (.unknownSyscall trimmed)

def effectiveBlocklist : Except SeccompError (List Syscall) :=
  if allowExtra.isEmpty then .ok dangerousSyscalls
  else do
    let toRemove ← allowExtra.mapM relaxed
    .ok (dangerousSyscalls.filter fun syscall => !toRemove.contains syscall)

/-- A rule that matches every invocation: argument 0's low half is at least 0. -/
def matchAnyRule : Except SeccompError SeccompRule := do
  let condition ← (SeccompCondition.new 0 .dword .ge 0).mapError
    fun e => .build ("condition: " ++ e)
  (SeccompRule.new [condition]).mapError fun e => .build ("rule: " ++ e)

def blockRules : Except SeccompError (Syscall → Option (List SeccompRule)) :=
  blocked.foldlM (fun rules syscall => do
    let rule ← matchAnyRule
    .ok (update rules syscall (some [rule]))) fun _ => none

structure Kernel where
  compile : SeccompFilter → Except String Unit
  applyFilter : SeccompFilter → Except String Unit

def Kernel.Accepts : Prop :=
  ∀ filter, kernel.compile filter = .ok () ∧ kernel.applyFilter filter = .ok ()

structure Process where
  filters : List SeccompFilter := []

def Process.action (process : Process) (call : SyscallInvocation) : SeccompAction :=
  if process.filters.any (fun filter => filter.action call = .killProcess) then .killProcess
  else .allow

def restrictSyscalls (allowExtra : List String) (process : Process) :
    Except SeccompError Process := do
  let blocked ← effectiveBlocklist allowExtra
  let rules ← blockRules blocked
  let filter ← (SeccompFilter.new rules .allow .killProcess).mapError .build
  (kernel.compile filter).mapError .compile
  (kernel.applyFilter filter).mapError .apply
  .ok { process with filters := filter :: process.filters }

/-- A failure is logged, and start-up goes on. -/
def startUp (allowExtra : List String) (process : Process) : Process :=
  match restrictSyscalls kernel allowExtra process with
  | .ok process => process
  | .error _ => process

/-! ## What is blocked -/

def Known : Prop :=
  ∃ syscall, (trim name, syscall) ∈ operatorRelaxableSyscalls

variable (syscall : Syscall)

def Names : Prop :=
  ∃ name ∈ allowExtra, (trim name, syscall) ∈ operatorRelaxableSyscalls

instance (name : String) : Decidable (Known name) :=
  decidable_of_iff (∃ entry ∈ operatorRelaxableSyscalls, entry.1 = trim name)
    ⟨fun ⟨(_, syscall), mem, same⟩ => ⟨syscall, same ▸ mem⟩,
      fun ⟨syscall, mem⟩ => ⟨(trim name, syscall), mem, rfl⟩⟩

/-- The blocklist without the relaxable syscalls that the list names, and all of it when a name is
unknown. -/
def Promised : Prop :=
  syscall ∈ dangerousSyscalls ∧ ((∀ name ∈ allowExtra, Known name) → ¬ Names allowExtra syscall)

def Enforced (process : Process) : Prop :=
  ∀ call, process.action call = .killProcess ↔ Promised allowExtra call.syscall

theorem relaxed_eq_ok_iff :
    relaxed name = .ok syscall ↔ (trim name, syscall) ∈ operatorRelaxableSyscalls := by
  unfold relaxed operatorRelaxableSyscalls
  by_cases first : "pivot_root" = trim name
  · simp [← first, eq_comm]
  · by_cases second : "userfaultfd" = trim name
    · simp [← second, eq_comm]
    · simp [first, second, Ne.symm first, Ne.symm second]

theorem effectiveBlocklist_of_known {allowExtra : List String}
    (known : ∀ name ∈ allowExtra, Known name) :
    ∃ blocked, effectiveBlocklist allowExtra = .ok blocked ∧
      ∀ syscall, syscall ∈ blocked ↔ Promised allowExtra syscall := by
  unfold effectiveBlocklist
  split
  · rename_i empty
    obtain rfl := isEmpty_iff.mp empty
    exact ⟨_, rfl, fun syscall => by simp [Promised, Names]⟩
  · obtain ⟨toRemove, collected⟩ := exists_mapM_eq_ok
      (show ∀ name ∈ allowExtra, ∃ syscall, relaxed name = .ok syscall from fun name mem =>
        (known name mem).imp fun syscall => (relaxed_eq_ok_iff name syscall).mpr)
    refine ⟨dangerousSyscalls.filter fun syscall => !toRemove.contains syscall, ?_, ?_⟩
    · rw [collected]
      rfl
    · intro syscall
      have removed : syscall ∈ toRemove ↔ Names allowExtra syscall := by
        rw [mem_iff_of_mapM_eq_ok collected]
        simp only [relaxed_eq_ok_iff, Names]
      rw [mem_filter, Promised, imp_iff_right known, ← removed]
      simp

theorem effectiveBlocklist_of_unknown {allowExtra : List String} {name : String}
    (mem : name ∈ allowExtra) (unknown : ¬ Known name) :
    ∀ blocked, effectiveBlocklist allowExtra ≠ .ok blocked := by
  intro blocked built
  unfold effectiveBlocklist at built
  split at built
  · rename_i empty
    rw [isEmpty_iff.mp empty] at mem
    exact not_mem_nil mem
  · obtain ⟨toRemove, collected, -⟩ := bind_eq_ok.mp built
    obtain ⟨syscall, -, found⟩ :=
      exists_of_mem_forall₂ (forall₂_of_mapM_eq_ok collected).flip mem
    exact unknown ⟨syscall, (relaxed_eq_ok_iff name syscall).mp found⟩

def anyRule : SeccompRule := ⟨[⟨0, .dword, .ge, 0⟩]⟩

theorem blockRules_eq :
    blockRules blocked = .ok fun syscall => if syscall ∈ blocked then some [anyRule] else none := by
  -- the loop adds to the rules it has so far
  suffices h : ∀ rules : Syscall → Option (List SeccompRule),
      blocked.foldlM (fun rules syscall => do
        let rule ← matchAnyRule
        .ok (update rules syscall (some [rule]))) rules =
      .ok fun syscall => if syscall ∈ blocked then some [anyRule] else rules syscall from h _
  induction blocked with
  | nil =>
    intro rules
    simp only [not_mem_nil, if_false]
    rfl
  | cons first blocked ih =>
    intro rules
    rw [foldlM_cons]
    show blocked.foldlM _ (update rules first (some [anyRule])) = _
    rw [ih]
    refine congrArg Except.ok (funext fun syscall => ?_)
    by_cases same : syscall = first <;> simp [same]

def blocking : SeccompFilter where
  rules := fun syscall => if syscall ∈ blocked then some [anyRule] else none
  mismatchAction := .allow
  matchAction := .killProcess

theorem action_blocking (call : SyscallInvocation) :
    (blocking blocked).action call = .killProcess ↔ call.syscall ∈ blocked := by
  by_cases mem : call.syscall ∈ blocked
  · simp [SeccompFilter.action, blocking, mem, anyRule, SeccompCondition.holds]
  · simp [SeccompFilter.action, blocking, mem]

theorem restrictSyscalls_eq {kernel : Kernel} (accepts : kernel.Accepts)
    (allowExtra : List String) (process : Process) :
    restrictSyscalls kernel allowExtra process =
      (effectiveBlocklist allowExtra).map fun blocked =>
        { process with filters := blocking blocked :: process.filters } := by
  unfold restrictSyscalls
  cases effectiveBlocklist allowExtra with
  | error => rfl
  | ok blocked =>
    obtain ⟨compiled, applied⟩ := accepts (blocking blocked)
    show (blockRules blocked >>= _) = _
    rw [blockRules_eq]
    show ((kernel.compile (blocking blocked)).mapError _ >>= fun _ =>
      (kernel.applyFilter (blocking blocked)).mapError _ >>= _) = _
    rw [compiled, applied]
    rfl

/-- Without a filter even `mount` goes through, which is promised to be blocked. -/
theorem not_enforced_of_unfiltered {process : Process} (unfiltered : process.filters = [])
    (allowExtra : List String) : ¬ Enforced allowExtra process := by
  intro enforced
  have promised : Promised allowExtra .mount := by
    refine ⟨mem_cons_self, fun _ => ?_⟩
    rintro ⟨name, -, relaxable⟩
    simp [operatorRelaxableSyscalls] at relaxable
  have killed := (enforced ⟨.mount, fun _ => 0⟩).mpr promised
  rw [Process.action, unfiltered] at killed
  cases killed

def obliging : Kernel := ⟨fun _ => .ok (), fun _ => .ok ()⟩

end Havn.Runtime.Seccomp
