import Webchannel.Session.Entries

/-!
# The browser client: no send is lost

The first promise needs nothing of its environment: its terms are empty, and what is left of the
contract is the ownership of every pending id.
-/

namespace Webchannel.Session

open Webchannel.Reentrant Contract Webchannel.Runs

def noTerms : Terms where
  inv _ _ _ := True
  atAct _ _ _ := True
  okAnswer _ _ _ := True
  okEnter _ _ _ := True

theorem outline_noTerms : Outline noTerms where
  change _ _ _ _ := trivial
  act _ _ _ _ _ := trivial
  sends _ _ _ _ := trivial
  continues _ _ _ := trivial

theorem TrackerEntry.pending_iff {e : TrackerEntry} : e.Pending ↔ e.state.pending = true := by
  unfold TrackerEntry.Pending
  cases e.state <;> simp [SendState.pending]

theorem owns_of_idle {options : Options} {c : Config Client Ask Answer Out}
    (hc : Reached (Config.step machine) (Config.start (Client.init options)) c) (hidle : c.Idle) :
    c.state.view.Owns {} := by
  have hrun : ReachedBy (Config.step machine) noTerms.contract.Ok (Config.start (Client.init options)) c :=
    hc.mono fun c mv _ => by cases mv <;> trivial
  exact (inv_of_idle (honours outline_noTerms) (holds_init trivial) hrun hidle).owns

/-- Whenever no method of the client is on the stack, every pending wire id occurs exactly once
in the outbound queue and the ledger together, and a closed or terminally failed client has no
pending id. -/
theorem pending_owned_once {options : Options} {c : Config Client Ask Answer Out}
    (hc : Reached (Config.step machine) (Config.start (Client.init options)) c) (hidle : c.Idle) :
    (∀ id e, c.state.sendTracker.get id = some e → e.Pending →
      c.state.queuedIds.count id + c.state.ledgerIds.count id = 1)
    ∧ (c.state.disconnected = true ∨ c.state.terminalReached = true →
      ∀ id e, c.state.sendTracker.get id = some e → ¬ e.Pending) := by
  obtain ⟨howned, hretired⟩ := owns_of_idle hc hidle
  have hheld : ∀ id e, c.state.sendTracker.get id = some e → e.Pending →
      id ∈ c.state.queuedIds ++ c.state.ledgerIds := fun id e hget hpend =>
    howned.held id e.state (Client.states_eq_some hget) (TrackerEntry.pending_iff.mp hpend)
  refine ⟨fun id e hget hpend => ?_, fun hdead id e hget hpend => ?_⟩
  · rw [← List.count_append]
    exact List.count_eq_one_of_mem howned.nodup (hheld id e hget hpend)
  · have hlive : c.state.view.live = false := by
      rcases hdead with hd | hd <;> simp [View.live, Client.view, hd]
    obtain ⟨hq, hl⟩ := hretired hlive
    have hmem := hheld id e hget hpend
    rw [show c.state.queuedIds = [] from hq, show c.state.ledgerIds = [] from hl] at hmem
    cases hmem

/-- A message that was written and not acknowledged is owned by the ledger. -/
theorem pending_owned_once_written : ∃ c : Config Client Ask Answer Out,
    Reached (Config.step machine) (Config.start (Client.init ⟨30000, true⟩)) c ∧ c.Idle
    ∧ c.state.ledgerIds = ["m1"]
    ∧ c.state.queuedIds.count "m1" + c.state.ledgerIds.count "m1" = 1 := by
  have hrun : (Script.run (.session ⟨1, 1⟩ ++ .send "hi" "m1")).map (fun c =>
      decide c.Idle && (c.state.sendTracker.get "m1" == some ⟨.sent, none, some 0⟩)
        && (c.state.ledgerIds == ["m1"])) = some true := by decide +kernel
  obtain ⟨c, hc, hp⟩ := Script.exists_reached hrun
  simp only [Bool.and_eq_true, decide_eq_true_eq, beq_iff_eq] at hp
  obtain ⟨⟨hidle, hget⟩, hledger⟩ := hp
  exact ⟨c, hc, hidle, hledger, (pending_owned_once hc hidle).1 "m1" _ hget (Or.inr rfl)⟩

end Webchannel.Session
