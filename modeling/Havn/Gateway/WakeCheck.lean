import Mathlib.Data.Bool.AllAny
import Mathlib.Data.List.TakeWhile
import Havn.Gateway.CronScheduler

/-!
# What a wake-check's script has to do to skip a run

`run_wake_check` of `havn-gateway/src/cron.rs` is meant to fail open: only a script that ends well
and whose last line refuses is a reason to skip.
-/

namespace Havn.Gateway.CronScheduler

open Lib List

/-! ## Scripts -/

inductive ExitStatus
  | code (n : UInt8)
  | signal (n : UInt8)
deriving DecidableEq

def ExitStatus.success (status : ExitStatus) : Bool := status = .code 0

inductive ScriptEnd
  | unpermitted
  | execFailed
  | timedOut
  | exited (status : ExitStatus) (stdout : List UInt8)

variable (decoders : Decoders)

def runWakeCheck : ScriptEnd → Bool
  | .unpermitted => true
  | .execFailed => wakeDecision decoders .execFailed
  | .timedOut => wakeDecision decoders .timedOut
  | .exited _ stdout => wakeDecision decoders (.output stdout)

/-! ## Refusals -/

def trimmedLines (text : String) : List String :=
  (text.toList.splitOn '\n').map fun line => trim (String.ofList line)

def IsLastLine (text line : String) : Prop :=
  ∃ before after, trimmedLines text = before ++ line :: after ∧ line ≠ "" ∧
    ∀ later ∈ after, later = ""

/-- The last line of the output is an object whose `wakeAgent` is false. -/
def Refuses (stdout : List UInt8) : Prop :=
  ∃ line fields, IsLastLine (decoders.fromUtf8Lossy stdout) line ∧
    decoders.fromStr line = some (.object fields) ∧
    fields.lookup "wakeAgent" = some (.bool false)

def Declines (script : ScriptEnd) : Prop :=
  ∃ status stdout, script = .exited status stdout ∧ status.success = true ∧
    Refuses decoders stdout

def refusal : String := "\x7b\"wakeAgent\": false\x7d"

/-- UTF-8 extends ASCII, an empty text is not a JSON document and the refusal is one. -/
structure Decoders.Lawful : Prop where
  ascii : ∀ text : List Char, (∀ c ∈ text, c.toNat < 128) →
    decoders.fromUtf8Lossy (text.map fun c => UInt8.ofNat c.toNat) = String.ofList text
  empty : decoders.fromStr "" = none
  refusal : decoders.fromStr refusal = some (.object [("wakeAgent", .bool false)])

theorem isLastLine_iff {text line : String} :
    IsLastLine text line ↔ (trimmedLines text).reverse.find? (· ≠ "") = some line := by
  rw [find?_eq_some_iff_append]
  constructor
  · rintro ⟨before, after, lines, nonempty, blank⟩
    refine ⟨decide_eq_true nonempty, after.reverse, before.reverse, ?_, fun later mem => ?_⟩
    · rw [lines, reverse_append, reverse_cons, append_assoc, singleton_append]
    · simp [blank later (mem_reverse.mp mem)]
  · rintro ⟨nonempty, after, before, lines, blank⟩
    refine ⟨before.reverse, after.reverse, ?_, of_decide_eq_true nonempty, fun later mem => ?_⟩
    · rw [reverse_eq_iff.mp lines, reverse_append, reverse_cons, append_assoc,
        singleton_append]
    · simpa using blank later (mem_reverse.mp mem)

theorem get_asBool_eq_some {value : Json} {key : String} {b : Bool} :
    (value.get key).bind Json.asBool = some b ↔
      ∃ fields, value = .object fields ∧ fields.lookup key = some (.bool b) := by
  constructor
  · intro read
    obtain ⟨inner, got, isBool⟩ := Option.bind_eq_some_iff.mp read
    cases value with
    | object fields =>
      cases inner with
      | bool =>
        cases isBool
        exact ⟨fields, rfl, got⟩
      | _ => cases isBool
    | _ => cases got
  · rintro ⟨fields, rfl, isBool⟩
    show (fields.lookup key).bind Json.asBool = some b
    rw [isBool]
    rfl

section Decision

variable {decoders : Decoders}

/-- **Only what lies before the cut counts**, and the status does not. -/
theorem runWakeCheck_exited (lawful : decoders.Lawful) (status : ExitStatus) (stdout : List UInt8) :
    runWakeCheck decoders (.exited status stdout) = false ↔
      Refuses decoders (stdout.take wakeCheckStdoutCap) := by
  show ((decoders.fromStr (lastLine (decoders.fromUtf8Lossy (stdout.take _)))).bind fun value =>
    (value.get "wakeAgent").bind Json.asBool).getD true = false ↔ _
  generalize isText : decoders.fromUtf8Lossy (stdout.take wakeCheckStdoutCap) = text
  have isLast : lastLine text = ((trimmedLines text).reverse.find? (· ≠ "")).getD "" := rfl
  constructor
  · intro skipped
    obtain ⟨value, parsed, isFalse⟩ : ∃ value, decoders.fromStr (lastLine text) = some value ∧
        (value.get "wakeAgent").bind Json.asBool = some false := by
      rw [Option.getD_eq_iff] at skipped
      rcases skipped with read | ⟨-, ⟨⟩⟩
      exact Option.bind_eq_some_iff.mp read
    obtain ⟨fields, rfl, lookup⟩ := get_asBool_eq_some.mp isFalse
    cases found : (trimmedLines text).reverse.find? (· ≠ "") with
    | none =>
      rw [isLast, found, Option.getD_none, lawful.empty] at parsed
      cases parsed
    | some line =>
      rw [isLast, found, Option.getD_some] at parsed
      exact ⟨line, fields, isText ▸ isLastLine_iff.mpr found, parsed, lookup⟩
  · rintro ⟨line, fields, last, parsed, lookup⟩
    rw [isText] at last
    rw [isLast, isLastLine_iff.mp last, Option.getD_some, parsed, Option.bind_some,
      get_asBool_eq_some.mpr ⟨fields, rfl, lookup⟩, Option.getD_some]

theorem declines_exited {status : ExitStatus} {stdout : List UInt8} :
    Declines decoders (.exited status stdout) ↔
      status.success = true ∧ Refuses decoders stdout := by
  constructor
  · rintro ⟨_, _, ⟨⟩, declined⟩
    exact declined
  · rintro declined
    exact ⟨_, _, rfl, declined⟩

end Decision

/-- A script that fails does not refuse before the cut, and the cut of one that ends well does not
change the answer. -/
def Honoured : ScriptEnd → Prop
  | .exited status stdout =>
    (status.success = false → ¬ Refuses decoders (stdout.take wakeCheckStdoutCap)) ∧
      (status.success = true → wakeCheckStdoutCap < stdout.length →
        (Refuses decoders (stdout.take wakeCheckStdoutCap) ↔ Refuses decoders stdout))
  | _ => True

/-- **A run is skipped exactly when the script declines**, for exactly the honoured scripts. -/
theorem skipped_iff_declines_iff {decoders : Decoders} (lawful : decoders.Lawful)
    (script : ScriptEnd) :
    (runWakeCheck decoders script = false ↔ Declines decoders script) ↔
      Honoured decoders script := by
  cases script with
  | unpermitted | execFailed | timedOut =>
    refine iff_of_true (iff_of_false nofun ?_) trivial
    rintro ⟨_, _, ⟨⟩, -⟩
  | exited status stdout =>
    rw [runWakeCheck_exited lawful, declines_exited]
    show _ ↔ (_ ∧ _)
    cases status.success with
    | false => simp
    | true =>
      simp only [Bool.true_eq_false, false_implies, true_and, true_implies]
      refine ⟨fun same _ => same, fun same => ?_⟩
      rcases Nat.lt_or_ge wakeCheckStdoutCap stdout.length with longer | within
      · exact same longer
      · rw [take_of_length_le within]

section Examples

variable {decoders : Decoders}

def asciiBytes (text : List Char) : List UInt8 := text.map fun c => UInt8.ofNat c.toNat

def blankPage : List Char := List.replicate (wakeCheckStdoutCap - 1) ' ' ++ ['\n']

theorem ascii_refusal : ∀ c ∈ refusal.toList, c.toNat < 128 :=
  all_iff_forall_prop.mp (by decide +kernel)

theorem ascii_blankPage : ∀ c ∈ blankPage, c.toNat < 128 := by
  intro c mem
  rcases mem_snoc.mp mem with space | rfl
  · rw [eq_of_mem_replicate space]
    decide
  · decide

theorem trimmedLines_refusal : trimmedLines refusal = [refusal] := by decide +kernel

theorem refuses_refusal (lawful : decoders.Lawful) :
    Refuses decoders (asciiBytes refusal.toList) := by
  refine ⟨refusal, _, ⟨[], [], ?_, by decide +kernel, nofun⟩, lawful.refusal, rfl⟩
  rw [asciiBytes, lawful.ascii _ ascii_refusal, String.ofList_toList, trimmedLines_refusal,
    nil_append]

theorem trim_spaces (n : ℕ) : trim (String.ofList (List.replicate n ' ')) = "" := by
  have blank : (List.replicate n ' ').dropWhile isWhitespace = [] :=
    dropWhile_eq_nil_iff.mpr fun c mem => by rw [eq_of_mem_replicate mem]; rfl
  rw [trim, String.toList_ofList, blank]
  rfl

theorem trimmedLines_blankPage (rest : List Char) :
    trimmedLines (String.ofList (blankPage ++ rest)) =
      "" :: trimmedLines (String.ofList rest) := by
  have free : '\n' ∉ List.replicate (wakeCheckStdoutCap - 1) ' ' := fun mem =>
    absurd (eq_of_mem_replicate mem) (by decide)
  rw [trimmedLines, String.toList_ofList, blankPage, append_assoc, singleton_append,
    splitOn_append_cons_self, splitOn_eq_singleton free, map_append,
    map_singleton, trim_spaces, singleton_append, trimmedLines, String.toList_ofList]

theorem refuses_late (lawful : decoders.Lawful) :
    Refuses decoders (asciiBytes (blankPage ++ refusal.toList)) := by
  have ascii : ∀ c ∈ blankPage ++ refusal.toList, c.toNat < 128 := fun c mem =>
    (mem_append.mp mem).elim (ascii_blankPage c) (ascii_refusal c)
  refine ⟨refusal, _, ⟨[""], [], ?_, by decide +kernel, nofun⟩, lawful.refusal, rfl⟩
  rw [asciiBytes, lawful.ascii _ ascii, trimmedLines_blankPage, String.ofList_toList,
    trimmedLines_refusal, singleton_append]

theorem not_refuses_blankPage (lawful : decoders.Lawful) :
    ¬ Refuses decoders (asciiBytes blankPage) := by
  rintro ⟨line, -, ⟨before, after, lines, nonempty, -⟩, -⟩
  rw [asciiBytes, lawful.ascii _ ascii_blankPage, ← append_nil blankPage,
    trimmedLines_blankPage] at lines
  have mem : line ∈ ["", ""] := by
    show line ∈ "" :: trimmedLines (String.ofList [])
    rw [lines]
    exact mem_append_right _ mem_cons_self
  simp only [mem_cons, not_mem_nil, or_false, or_self] at mem
  exact nonempty mem

theorem take_blankPage (rest : List Char) :
    (asciiBytes (blankPage ++ rest)).take wakeCheckStdoutCap = asciiBytes blankPage := by
  have length : (asciiBytes blankPage).length = wakeCheckStdoutCap := by
    rw [asciiBytes, length_map, blankPage, length_append, length_replicate]
    rfl
  rw [asciiBytes, map_append, ← length]
  exact take_left

theorem failing_script_obeyed (lawful : decoders.Lawful) {status : ExitStatus}
    (failed : status.success = false) :
    runWakeCheck decoders (.exited status (asciiBytes refusal.toList)) = false ∧
      ¬ Declines decoders (.exited status (asciiBytes refusal.toList)) := by
  have short : (asciiBytes refusal.toList).take wakeCheckStdoutCap = asciiBytes refusal.toList :=
    take_of_length_le (by decide +kernel)
  rw [runWakeCheck_exited lawful, declines_exited, short]
  refine ⟨refuses_refusal lawful, fun declined => ?_⟩
  rw [failed] at declined
  cases declined.1

theorem late_refusal_ignored (lawful : decoders.Lawful) :
    runWakeCheck decoders (.exited (.code 0) (asciiBytes (blankPage ++ refusal.toList))) = true ∧
      Declines decoders (.exited (.code 0) (asciiBytes (blankPage ++ refusal.toList))) := by
  refine ⟨Bool.eq_true_of_not_eq_false fun skipped => ?_,
    declines_exited.mpr ⟨rfl, refuses_late lawful⟩⟩
  rw [runWakeCheck_exited lawful, take_blankPage] at skipped
  exact not_refuses_blankPage lawful skipped

def asciiOnly : Decoders where
  fromUtf8Lossy bytes := String.ofList (bytes.map fun byte => Char.ofNat byte.toNat)
  fromStr text := if text = refusal then some (.object [("wakeAgent", .bool false)]) else none

theorem lawful_asciiOnly : asciiOnly.Lawful where
  ascii text ascii := by
    show String.ofList ((text.map fun c => UInt8.ofNat c.toNat).map _) = _
    rw [map_map]
    refine congrArg String.ofList (Eq.trans (map_congr_left fun c mem => ?_) (map_id text))
    have small : c.toNat % 256 = c.toNat := Nat.mod_eq_of_lt (by have := ascii c mem; omega)
    show Char.ofNat (UInt8.ofNat c.toNat).toNat = c
    rw [UInt8.toNat_ofNat', small, Char.ofNat_toNat]
  empty := by decide +kernel
  refusal := rfl

theorem refusal_declined :
    runWakeCheck asciiOnly (.exited (.code 0) (asciiBytes refusal.toList)) = false ∧
      Declines asciiOnly (.exited (.code 0) (asciiBytes refusal.toList)) := by
  have honoured : Honoured asciiOnly (.exited (.code 0) (asciiBytes refusal.toList)) :=
    ⟨nofun, fun _ longer => absurd longer (by decide +kernel)⟩
  have declined : Declines asciiOnly (.exited (.code 0) (asciiBytes refusal.toList)) :=
    declines_exited.mpr ⟨rfl, refuses_refusal lawful_asciiOnly⟩
  exact ⟨((skipped_iff_declines_iff lawful_asciiOnly _).mpr honoured).mpr declined, declined⟩

theorem status_and_end_ignored :
    asciiOnly.Lawful ∧
      (runWakeCheck asciiOnly (.exited (.code 1) (asciiBytes refusal.toList)) = false ∧
        ¬ Declines asciiOnly (.exited (.code 1) (asciiBytes refusal.toList))) ∧
      (runWakeCheck asciiOnly (.exited (.code 0) (asciiBytes (blankPage ++ refusal.toList))) =
          true ∧
        Declines asciiOnly (.exited (.code 0) (asciiBytes (blankPage ++ refusal.toList)))) :=
  ⟨lawful_asciiOnly, failing_script_obeyed lawful_asciiOnly rfl,
    late_refusal_ignored lawful_asciiOnly⟩

end Examples

end Havn.Gateway.CronScheduler
