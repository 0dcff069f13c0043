import LedSequencer.Proofs.Bus.Parts
import LedSequencer.Proofs.Routine.Calls

/-! Lines that do as they are told and show nothing but the level 0. Main statement: on such lines
every write of registers succeeds. -/
namespace LedSequencer

structure World.Obliging {L F σ : Type} (w : World (.lines L F) σ) : Prop where
  drive (line : L) (high : Bool) (s : σ) : ∃ s', w (.drive line high) s = some (.ok (), s')
  sample (line : L) (s : σ) : ∃ s', w (.sample line) s = some (.ok 0, s')
  settle (us : UInt32) (s : σ) : ∃ s', w (.settle us) s = some ((), s')

namespace Routine

variable {I : Interface} {N ε σ α β : Type} {w : World I σ}

def Yields (w : World I σ) (p : Routine I N α) (a : α) : Prop :=
  ∀ s, (p.run w s).outcome = .returned a

theorem yields_done (a : α) : (done a : Routine I N α).Yields w a := fun _ => rfl

theorem Yields.bind {p : Routine I N α} {f : α → Routine I N β} {a : α} {b : β}
    (h : p.Yields w a) (hf : (f a).Yields w b) : (p >>= f).Yields w b := by
  intro s
  rw [run_bind, Run.andThen, h s]
  exact hf _

theorem yields_call {c : I.Call} {next : I.Reply c → Routine I N α} {reply : I.Reply c} {a : α}
    (h : ∀ s, ∃ s', w c s = some (reply, s')) (hnext : (next reply).Yields w a) :
    (call c next).Yields w a := by
  intro s
  obtain ⟨s', hs⟩ := h s
  rw [run_call w hs]
  exact hnext s'

theorem Yields.note {p : Routine I N α} {a : α} (h : p.Yields w a) (n : N) :
    (Routine.note n p).Yields w a := by
  intro s
  rw [run_note]
  exact h s

theorem Yields.of_map {p : Routine I N α} {f : α → β} {b : β} (h : (f <$> p).Yields w b) (s : σ) :
    ∃ a, (p.run w s).outcome = .returned a ∧ f a = b := by
  have hb := h s
  rw [← bind_pure_comp, run_bind, Run.andThen] at hb
  cases hp : (p.run w s).outcome with
  | returned a =>
    rw [hp] at hb
    exact ⟨a, rfl, Outcome.returned.inj hb⟩
  | cutOff | aborted =>
    rw [hp] at hb
    cases hb

section Failing

variable {act : ExceptT ε (Routine I N) α} {a : α}

theorem Yields.andThen {f : α → ExceptT ε (Routine I N) β} {b : β} (h : act.run.Yields w (.ok a))
    (hf : (f a).run.Yields w (.ok b)) : (act >>= f).run.Yields w (.ok b) :=
  Yields.bind h hf

theorem Yields.tryCatch (h : act.run.Yields w (.ok a)) (f : ε → ExceptT ε (Routine I N) α) :
    (MonadExcept.tryCatch act f).run.Yields w (.ok a) :=
  Yields.bind h (yields_done _)

theorem Yields.reporting (h : act.run.Yields w (.ok a)) (notice : ε → N) :
    (LedSequencer.reporting notice act).run.Yields w (.ok a) :=
  Yields.bind h (yields_done _)

end Failing

end Routine

namespace Bus
open Routine

variable {L F σ : Type} (bus : Bus L) {w : World (.lines L F) σ} (hw : w.Obliging)
include hw

theorem settle_succeeds : (bus.settle : Action L F Unit).run.Yields w (.ok ()) :=
  yields_call (hw.settle bus.halfPeriod) (yields_done _)

theorem setClock_succeeds (high : Bool) :
    (bus.setClock high : Action L F Unit).run.Yields w (.ok ()) :=
  yields_call (hw.drive bus.clock high) (yields_done _)

theorem setData_succeeds (high : Bool) :
    (bus.setData high : Action L F Unit).run.Yields w (.ok ()) :=
  yields_call (hw.drive bus.data high) (yields_done _)

theorem sampleData_succeeds : (bus.sampleData : Action L F UInt8).run.Yields w (.ok 0) :=
  yields_call (hw.sample bus.data) (yields_done _)

theorem carries_succeeds : bus.Carries (F := F) fun act => act.run.Yields w (.ok ()) where
  nothing := yields_done _
  andThen first second := Yields.andThen first second
  settle := bus.settle_succeeds hw
  setClock := bus.setClock_succeeds hw
  setData := bus.setData_succeeds hw

theorem letGo_succeeds : (bus.letGo : Action L F Unit).run.Yields w (.ok ()) := by
  have hsettle := bus.settle_succeeds hw
  refine (bus.setClock_succeeds hw false).andThen (hsettle.andThen ?_)
  refine (bus.setData_succeeds hw true).andThen (hsettle.andThen ?_)
  exact (bus.sampleData_succeeds hw).andThen (yields_done _)

theorem receiveBit_succeeds : (bus.receiveBit : Action L F UInt8).run.Yields w (.ok 0) := by
  have hsettle := bus.settle_succeeds hw
  refine (bus.setClock_succeeds hw true).andThen (hsettle.andThen ?_)
  refine (bus.sampleData_succeeds hw).andThen ?_
  have hcheck : (checkLevel 0 : Action L F UInt8).run.Yields w (.ok 0) := yields_done _
  refine hcheck.andThen (hsettle.andThen ((bus.setClock_succeeds hw false).andThen ?_))
  exact hsettle.andThen (hsettle.andThen (yields_done _))

theorem sendPart_succeeds (part : BytePart) (byte : UInt8) (missing : Failure F) :
    (bus.sendPart part byte missing).run.Yields w (.ok ()) := by
  have hbyte : (bus.sendByte byte : Action L F Acknowledge).run.Yields w (.ok .ack) := by
    refine ((bus.carries_succeeds hw).sendBits (bitsOf byte)).andThen ?_
    refine (bus.settle_succeeds hw).andThen ?_
    exact (bus.letGo_succeeds hw).andThen ((bus.receiveBit_succeeds hw).andThen (yields_done _))
  exact Yields.reporting (hbyte.andThen (yields_done _)) _

theorem transact_succeeds (address register value : UInt8) :
    (bus.transact address register value : Action L F Unit).run.Yields w (.ok ()) := by
  have hframe : (bus.sendFrame address register value : Action L F Unit).run.Yields w (.ok ()) := by
    refine (bus.sendPart_succeeds hw _ _ _).andThen ?_
    exact (bus.sendPart_succeeds hw _ _ _).andThen (bus.sendPart_succeeds hw _ _ _)
  refine Yields.note ?_ (Notice.writing register value)
  exact (bus.carries_succeeds hw).start.andThen
    ((hframe.tryCatch _).andThen (bus.carries_succeeds hw).stop)

theorem writeBlock_succeeds (address register : UInt8) {data : List UInt8}
    (hfits : data.length ≤ Page.size) :
    (bus.writeBlock address register data : Action L F Unit).run.Yields w (.ok ()) :=
  bus.writeBlock_of_transact (P := fun act => act.run.Yields w (.ok ())) (yields_done _)
    (fun first second => first.andThen second)
    (fun register value _ => (bus.transact_succeeds hw address register value).reporting _)
    register hfits

end Bus

end LedSequencer
