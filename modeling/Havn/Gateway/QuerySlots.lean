import Havn.Gateway.AgentQueryAudit

/-!
# What the query broker keeps

Agents choose the ids of their queries, so a slot can be taken over or cleared by another query.
Still no slot outlives the wait of its handler.
-/

namespace Havn.Gateway.AgentQueries

open Havn.Core Db Lib List Function

inductive Stage
  | early
  | filed
  | done

def Phase.stage : Phase → Stage
  | .lookupCaller | .lookupTarget .. | .checkConnected .. | .register .. => .early
  | .dispatch .. | .cancelDispatch .. | .awaitReply .. | .cancelTimeout .. => .filed
  | .finishing _ => .done

/-- A handler has its slot only from its registration to the end of its wait, and a reply neither
then nor before. -/
structure Filed (s : System) (q : ℕ) (h : Handler) : Prop where
  slot : s.pending h.query.requestId = some q → h.phase.stage = .filed ∧ h.reply = none
  fresh : h.phase.stage = .early → h.reply = none

def AllFiled (s : System) : Prop := ∀ q h, s.handlers[q]? = some h → Filed s q h

variable {parse : String → Except String AgentId} {s s' : System} {q : ℕ} {h : Handler} {t : Turn}
  {label : Label}

theorem Filed.turn (filed : Filed s q h) (turned : turn parse s q h = some t) :
    Filed (s.take q h t) q { h with phase := t.phase } := by
  have away : h.phase.stage ≠ .filed → s.pending h.query.requestId ≠ some q :=
    fun other slot => other (filed.slot slot).1
  obtain ⟨⟨caller, query⟩, phase, reply⟩ := h
  simp only [AgentQueries.turn] at turned
  split at turned
  case h_1 | h_2 =>
    cases turned
    exact ⟨fun slot => absurd slot (away nofun), fun _ => filed.fresh rfl⟩
  case h_3 =>
    split at turned <;> cases turned
    all_goals exact ⟨fun slot => absurd slot (away nofun), fun _ => filed.fresh rfl⟩
  case h_4 =>
    cases turned
    exact ⟨fun _ => ⟨rfl, filed.fresh rfl⟩, nofun⟩
  case h_5 =>
    split at turned <;> cases turned
    all_goals exact ⟨fun slot => ⟨rfl, (filed.slot slot).2⟩, nofun⟩
  case h_6 | h_8 =>
    cases turned
    refine ⟨fun slot => ?_, nofun⟩
    cases (update_self ..).symm.trans slot
  case h_7 =>
    split at turned
    · cases turned
      refine ⟨fun slot => ?_, nofun⟩
      cases (filed.slot slot).2
    · split at turned <;> cases turned
      rename_i gone
      exact ⟨fun slot => absurd slot gone, nofun⟩
  case h_9 => cases turned
  case h_10 =>
    cases turned
    exact ⟨fun slot => absurd slot (away nofun), nofun⟩

theorem AllFiled.take (filed : AllFiled s) (here : s.handlers[q]? = some h)
    (spec : TurnSpec parse s q h t) (moved : Filed (s.take q h t) q { h with phase := t.phase }) :
    AllFiled (s.take q h t) := by
  intro q' h' after
  by_cases own : q' = q
  · subst own
    cases (take_self here).symm.trans after
    exact moved
  · rw [take_of_ne own] at after
    have known := filed q' h' after
    refine ⟨fun slot => known.slot ?_, known.fresh⟩
    exact (slot_take spec slot).resolve_right fun mine => own mine.1

theorem AllFiled.step (filed : AllFiled s) (booked : Booked s)
    (stepped : step parse s label = some s') : AllFiled s' := by
  cases label with
  | query caller query =>
    cases stepped
    intro q h after
    rcases handler_ask after with before | ⟨fresh, rfl⟩
    · exact ⟨(filed q h before).slot, (filed q h before).fresh⟩
    · refine ⟨fun slot => ?_, fun _ => rfl⟩
      obtain ⟨asked, here, -⟩ := booked.slots _ q slot
      rw [System.asked, getElem?_map, fresh] at here
      cases here
  | response sender response =>
    cases stepped
    intro q h' after
    rcases handler_resolve after with before | ⟨h, before, slot, rfl⟩
    · have known := filed q h' before
      exact ⟨fun slot => known.slot (slot_resolve slot), known.fresh⟩
    · obtain ⟨asked, here, same⟩ := booked.slots _ q slot
      cases (asked_of_handler before).symm.trans here
      have known := (filed q h before).slot (same.symm ▸ slot)
      refine ⟨fun kept => ?_, fun early => by cases known.1.symm.trans early⟩
      have gone : (s.resolve response).pending response.requestId = none := by
        simp [System.resolve, slot, QueryBroker.cancel]
      cases gone.symm.trans (same ▸ kept)
  | run q =>
    obtain ⟨h, t, here, turned, rfl⟩ := step_run_eq_some stepped
    exact filed.take here (turn_spec turned) ((filed q h here).turn turned)
  | timeout q =>
    obtain ⟨h, owner, target, here, waiting, rfl⟩ := step_timeout_eq_some stepped
    have spec : TurnSpec parse s q h _ := timeout_spec waiting
    refine filed.take here spec ⟨fun slot => ⟨rfl, ((filed q h here).slot slot).2⟩, fun early => ?_⟩
    cases early
  | environment =>
    cases stepped
    exact fun q h here => ⟨(filed q h here).slot, (filed q h here).fresh⟩

/-- **The broker keeps no slot of a handler that is done**, in any interleaving of any queries and
responses: a slot is filed under the id of a handler that waits without a reply. -/
theorem slots_waited_for (parse : String → Except String AgentId) (db : GatewayDb)
    (registry : AgentRegistry) (labels : List Label) (s : System)
    (run : Run (step parse) anyStep (.initial db registry) labels s) (id : String) (q : ℕ)
    (slot : s.pending id = some q) : ∃ h, s.handlers[q]? = some h ∧ h.query.requestId = id ∧
      h.phase.stage = .filed ∧ h.reply = none := by
  have filed := run.history (fun _ => AllFiled)
    (fun _ _ _ _ filed earlier _ next => filed.step (booked_of_run earlier) next)
    (by simp [AllFiled, System.initial])
  obtain ⟨asked, asks, rfl⟩ := (booked_of_run run).slots id q slot
  obtain ⟨h, here, rfl⟩ := Option.map_eq_some_iff.mp (getElem?_map.symm.trans asks)
  exact ⟨h, here, rfl, (filed q h here).slot slot⟩

theorem helper_waited_for :
    ∃ s, Run (step parseTargets) anyStep (.initial twoOwnersDb allConnected)
        ((answeredBy (agentOf 2) "seven").take 6) s ∧ s.pending "q-1" = some 0 ∧
      ∃ h, s.handlers[0]? = some h ∧ h.query.requestId = "q-1" ∧
        h.phase.stage = .filed ∧ h.reply = none :=
  exists_run_and (by decide) fun run => slots_waited_for _ _ _ _ _ run "q-1" 0

end Havn.Gateway.AgentQueries
