/-
# The end of a capture

A capture ends cleanly or with an error, and the loop leaves both ways to the same final sweep.
Nothing of the work is lost on an error, but nothing of the error reaches `main` either: it is
printed, and the process exits as after a clean end.
-/
import L4Scope.Conservation

variable {F ε : Type} [F64 F] [ToString ε]

/-- The exit code that tells how the capture ended. -/
def Capture.exitCode {ε : Type} (cap : Capture ε) : ExitCode :=
  match cap.failure with
  | some _ => .failure
  | none => .success

namespace Setup

/-- The run has done the work of its packets and of the final sweep: every packet and event is in
the account of the agent and in the registry, whatever snapshots are taken meanwhile; and its exit
code tells how the capture ended. -/
structure FailSafe (s : Setup F ε) : Prop where
  accounts : s.agent.Accounts s.settings s.jsonTarget s.capture.packets
    ((Engine.new s.detect).events s.capture.calls)
  registry : ∀ ops, s.agent.Interleaved ops →
    (Registry.machine.after (Metrics.new F) ops).Tallies
      (s.capture.packets.map fun p => s.settings.podIp p.key)
      (((Engine.new s.detect).events s.capture.calls).map fun ev =>
        (ev, s.settings.podIp ev.key))
  exit : exitCode (run (.ok s)) = s.capture.exitCode

/-- An error of the capture is not an error of the run. -/
theorem run_ok (s : Setup F ε) : run (.ok s) = .ok s.agent := rfl

/-- **A run does all its work, and its exit code is right exactly if the capture did not fail.** -/
theorem failSafe_iff (s : Setup F ε) : s.FailSafe ↔ s.capture.failure = none := by
  constructor
  · intro h
    have hexit := h.exit
    rw [run_ok, Capture.exitCode] at hexit
    cases hfailure : s.capture.failure with
    | none => rfl
    | some e =>
        rw [hfailure] at hexit
        exact ExitCode.noConfusion hexit
  · intro hclean
    constructor
    · exact s.accounts
    · exact fun ops hops => s.accounts.tallies hops
    · rw [run_ok, Capture.exitCode, hclean]
      rfl

/-- A connection request, and then a record header that is cut short. -/
theorem truncated_not_failSafe :
    let syn := Sample.tcp 5 (Sample.ep 1 5002) (Sample.ep 2 80) TcpFlags.SYN 100 0 64240 0
    let cap : Capture String := ⟨[syn], some (.parse "truncated pcap record header")⟩
    ¬ FailSafe ⟨⟨none, true⟩, DetectConfig.default ℚ, .stdout, cap⟩ := by
  intro syn cap h
  exact ExitCode.noConfusion h.exit

end Setup
