import LedSequencer.Chip.Device
import LedSequencer.Proofs.Bus.Arrival
import LedSequencer.Proofs.Chip.Session

/-! What arrives of the operations of the chip at the end of a bus. Main statement: an operation that
does nothing but make its moves ships the writes of its accesses, and so bringing up the chip and
playing a tape deliver their register writes, if they succeed, and parts of them in any case. -/
namespace LedSequencer

inductive Relays {F : Type} (address : UInt8) : Wire → List (AnsweredAccess F) → Wire → Prop where
  | nil (wire : Wire) : Relays address wire [] wire
  | cons {before middle after : Wire} {c : RegisterCall} {reply : Except (Failure F) Unit}
      {calls : List (AnsweredAccess F)}
      (first : Shipped before (c.writes.map (payload address)) reply.toBool middle)
      (rest : Relays address middle calls after) : Relays address before (⟨c, reply⟩ :: calls) after

theorem Relays.snoc {F : Type} {address : UInt8} {before middle after : Wire} {c : RegisterCall}
    {reply : Except (Failure F) Unit} {calls : List (AnsweredAccess F)}
    (h : Relays address before calls middle)
    (hlast : Shipped middle (c.writes.map (payload address)) reply.toBool after) :
    Relays address before (calls ++ [⟨c, reply⟩]) after := by
  induction h with
  | nil => exact .cons hlast (.nil after)
  | cons first _ ih => exact .cons first (ih hlast)

namespace Device
open Routine

section Payloads

variable {L F : Type} (device : Device L)

def payloads (accesses : List RegisterCall) : List (List UInt8) :=
  (accesses.flatMap RegisterCall.writes).map (payload device.address)

theorem payloads_cons (access : RegisterCall) (accesses : List RegisterCall) :
    device.payloads (access :: accesses) =
      access.writes.map (payload device.address) ++ device.payloads accesses := by
  rw [payloads, List.flatMap_cons, List.map_append]
  rfl

/-- Of some moves the writes of all accesses go out that come before the first one to fail, and of
that one as much as went out of it. -/
theorem shipped_of_made {moves : List Move} {known last : Option EngineStatus}
    {calls : List (AnsweredAccess F)} {result : Except (Failure F) Unit} {before after : Wire}
    (h : Move.Made moves known calls result last)
    (hrelays : Relays device.address before calls after) :
    Shipped before (device.payloads (Move.accesses moves)) result.toBool after := by
  induction h generalizing before with
  | nil =>
    cases hrelays with
    | nil => exact .nothing _
  | reached status _ ih => exact ih hrelays
  | failed c moves known failure =>
    cases hrelays with
    | cons first rest =>
      cases rest with
      | nil =>
        rw [Move.accesses, payloads_cons]
        exact first.failed _
  | passed c _ ih =>
    cases hrelays with
    | cons first rest =>
      rw [Move.accesses, payloads_cons]
      exact first.append (ih rest)

end Payloads

variable {L F α : Type} [DecidableEq L] (device : Device L)

theorem answer_ships (distinct : device.bus.clock ≠ device.bus.data) (c : RegisterCall)
    (wire : Wire) :
    (device.answer c : Routine (.lines L F) (Notice F) _).Ensures (Wire.next device.bus.clock)
      (fun result after =>
        Shipped wire (c.writes.map (payload device.address)) result.toBool after) wire := by
  cases c with
  | write register value => exact device.bus.transact_ships distinct _ (register, value) wire
  | writeBlock start data => exact device.bus.writeBlock_ships distinct _ start data wire

/-- An operation that does nothing but make some moves ships the writes of their accesses. -/
theorem perform_ships (distinct : device.bus.clock ≠ device.bus.data) {act : Chip.Action F Unit}
    {moves : List Move} (h : Chip.Goes act moves) (known : Option EngineStatus) (wire : Wire) :
    ((device.perform act).run.run known).Ensures (Wire.next device.bus.clock)
      (fun ending after =>
        Shipped wire (device.payloads (Move.accesses moves)) ending.1.toBool after) wire := by
  -- While the registers see the accesses, the wire sees their writes.
  have hcall (c : RegisterCall) (calls : List (AnsweredAccess F)) (middle : Wire)
      (hseen : Relays device.address wire calls middle) :
      (device.answer c : Routine (.lines L F) (Notice F) _).Ensures (Wire.next device.bus.clock)
        (fun reply after => Relays device.address wire (calls ++ [⟨c, reply⟩]) after) middle :=
    (device.answer_ships distinct c middle).mono fun _ _ hlast => hseen.snoc hlast
  refine (h.handle hcall ?_ known (.nil wire)).mono ?_
  · intro n calls middle hseen
    rwa [Wire.next_noted]
  · rintro ending after ⟨calls, hmade, hafter⟩
    exact device.shipped_of_made hmade hafter

/-- Of an operation the payloads `sent` arrive, behind whatever arrived before. -/
def Sends (act : Action L F α) (sent : List (List UInt8)) : Prop :=
  ∀ (state : Option EngineStatus) (earlier : List Delivery) (wire : Wire), wire.Delivered earlier →
    (act.run.run state).Ensures (Wire.next device.bus.clock)
      (fun ending wire => Arrives earlier sent ending.1 wire) wire

theorem Sends.reporting {device : Device L} {act : Action L F α} {sent : List (List UInt8)}
    (h : device.Sends act sent) (notice : Failure F → Notice F) :
    device.Sends (LedSequencer.reporting notice act) sent := by
  intro state earlier wire hwire
  refine (ensures_bind _ _ _ _).2 ((h state earlier wire hwire).mono ?_)
  intro (result, state) wire harrives
  cases result with
  | ok a => exact harrives
  | error failure =>
    show Arrives earlier sent _ (wire.next device.bus.clock (.noted (notice failure)))
    rw [Wire.next_noted]
    exact harrives

theorem sends_of_goes (distinct : device.bus.clock ≠ device.bus.data) {act : Chip.Action F Unit}
    {moves : List Move} (h : Chip.Goes act moves) :
    device.Sends (device.perform act) (device.payloads (Move.accesses moves)) := by
  intro state earlier wire hwire
  refine (device.perform_ships distinct h state wire).mono ?_
  intro ending after hships
  exact hships.arrives hwire

theorem sends_bringUp (distinct : device.bus.clock ≠ device.bus.data) (setup : Setup) :
    device.Sends (device.perform (Chip.bringUp setup : Chip.Action F Unit))
      (device.payloads setup.accesses) :=
  device.sends_of_goes distinct (Chip.goes_bringUp setup)

theorem sends_play (distinct : device.bus.clock ≠ device.bus.data) (tape : Tape) :
    device.Sends (device.perform (Chip.play tape.index : Chip.Action F Unit))
      (device.payloads (uploadAccesses tape.ledMux Tape.playerCode)) :=
  device.sends_of_goes distinct (Chip.goes_play tape.all_index)

end Device

end LedSequencer
