import LedSequencer.Proofs.Bus.Block
import LedSequencer.Proofs.Chip.Session

/-! Register accesses as single writes, in order up to the first that fails. Main statements: an
operation that makes its moves makes them write by write as well, and this is what it does at the
end of a bus. -/
namespace LedSequencer

section Singly

variable {F : Type}

def writeEach : List (UInt8 × UInt8) →
    Routine (.registers F) (Notice F) (Except (Failure F) Unit)
  | [] => .done (.ok ())
  | (register, value) :: writes => .call (.write register value) fun
    | .ok () => writeEach writes
    | .error failure => .done (.error failure)

def RegisterCall.singly (c : RegisterCall) :
    Routine (.registers F) (Notice F) (Except (Failure F) Unit) :=
  writeEach c.writes

/-- An operation that writes one register at a time. -/
def Chip.singly {α : Type} (act : Chip.Action F α) : Chip.Action F α :=
  ExceptT.mk fun known => (act.run.run known).handle RegisterCall.singly

end Singly

namespace Move

variable {F : Type}

def ofWrites (writes : List (UInt8 × UInt8)) : List Move :=
  writes.map fun w => .access (.write w.1 w.2)

def singly : Move → List Move
  | access c => ofWrites c.writes
  | reach status => [.reach status]

theorem accesses_ofWrites (writes : List (UInt8 × UInt8)) :
    accesses (ofWrites writes) = writes.map fun w => .write w.1 w.2 := by
  induction writes with
  | nil => rfl
  | cons w writes ih => exact congrArg (List.cons _) ih

theorem accesses_singly (moves : List Move) :
    accesses (moves.flatMap singly) =
      ((accesses moves).flatMap RegisterCall.writes).map fun w => .write w.1 w.2 := by
  induction moves with
  | nil => rfl
  | cons move moves ih =>
    rw [List.flatMap_cons, accesses_append, ih]
    cases move with
    | access c => rw [singly, accesses_ofWrites, accesses, List.flatMap_cons, List.map_append]
    | reach status => rfl

inductive Splits : List (AnsweredAccess F) → List (AnsweredAccess F) → Prop where
  | nil : Splits [] []
  | cons {c : RegisterCall} {reply : Except (Failure F) Unit}
      {calls writes more : List (AnsweredAccess F)}
      (first : ∀ known, Made (ofWrites c.writes) known writes reply known)
      (rest : Splits calls more) : Splits (⟨c, reply⟩ :: calls) (writes ++ more)

theorem Splits.snoc {c : RegisterCall} {reply : Except (Failure F) Unit}
    {calls writes more : List (AnsweredAccess F)} (h : Splits calls writes)
    (hlast : ∀ known, Made (ofWrites c.writes) known more reply known) :
    Splits (calls ++ [⟨c, reply⟩]) (writes ++ more) := by
  induction h with
  | nil =>
    have hone := Splits.cons hlast .nil
    rwa [List.append_nil] at hone
  | cons first _ ih =>
    rw [List.append_assoc]
    exact .cons first ih

/-- Where accesses follow some moves, the writes follow these moves write by write. -/
theorem Made.singly {moves : List Move} {known last : Option EngineStatus}
    {calls writes : List (AnsweredAccess F)} {result : Except (Failure F) Unit}
    (h : Made moves known calls result last) (hsplits : Splits calls writes) :
    Made (moves.flatMap Move.singly) known writes result last := by
  induction h generalizing writes with
  | nil known =>
    cases hsplits with
    | nil => exact .nil known
  | reached status _ ih => exact .reached status (ih hsplits)
  | failed c moves known failure =>
    cases hsplits with
    | cons first rest =>
      cases rest with
      | nil =>
        rw [List.append_nil]
        exact (first known).append_error _
  | passed c _ ih =>
    cases hsplits with
    | cons first rest => exact (first _).append (ih rest)

/-- The writes that were made are the first ones, and only the last write may have failed. -/
theorem Made.written {moves : List Move} {known last : Option EngineStatus}
    {calls : List (AnsweredAccess F)} {result : Except (Failure F) Unit}
    (h : Made (moves.flatMap Move.singly) known calls result last) :
    let writes := (accesses moves).flatMap RegisterCall.writes
    ∃ count : Nat,
      let written : List (AnsweredAccess F) :=
        (writes.take count).map fun w => .made (.write w.1 w.2)
      (writes.length ≤ count ∧ calls = written ∧ result = .ok ()) ∨
        ∃ w ∈ writes, ∃ failure, calls = written ++ [.missed (.write w.1 w.2) failure] ∧
          result = .error failure := by
  intro writes
  have hwritten (count : Nat) : ((accesses (moves.flatMap Move.singly)).take count).map
      AnsweredAccess.made =
        (writes.take count).map fun w => (.made (.write w.1 w.2) : AnsweredAccess F) := by
    rw [accesses_singly, ← List.map_take, List.map_map]
    rfl
  obtain ⟨count, _, ⟨hcount, hcalls, hok⟩ | ⟨c, failure, hc, hcalls, herror⟩⟩ := h.cut
  · rw [accesses_singly, List.length_map] at hcount
    refine ⟨count, Or.inl ⟨Nat.le_of_eq hcount.symm, ?_, hok⟩⟩
    rw [hcalls, ← hwritten count, List.take_of_length_le]
    rw [accesses_singly, List.length_map]
    exact Nat.le_of_eq hcount.symm
  · rw [accesses_singly] at hc
    obtain ⟨w, hw, rfl⟩ := List.mem_map.1 (List.mem_of_getElem? hc)
    exact ⟨count, Or.inr ⟨w, hw, failure, by rw [hcalls, hwritten], herror⟩⟩

end Move

namespace Chip
open Routine Move

variable {F : Type}

theorem writeEach_made (writes : List (UInt8 × UInt8))
    (past : List (Event (.registers F) (Notice F))) :
    (writeEach writes : Routine (.registers F) (Notice F) _).Ensures
      (fun events e => events ++ [e])
      (fun reply events => ∃ calls, callsOf events = callsOf past ++ calls ∧
        ∀ known, Made (ofWrites writes) known calls reply known) past := by
  induction writes generalizing past with
  | nil => exact ⟨[], (List.append_nil _).symm, fun known => .nil known⟩
  | cons w writes ih =>
    intro reply
    cases reply with
    | error failure =>
      exact ⟨[⟨_, .error failure⟩], callsOf_append _ _, fun known => .failed _ _ known failure⟩
    | ok =>
      refine (ih _).mono ?_
      rintro reply events ⟨calls, hcalls, hmade⟩
      refine ⟨AnsweredAccess.made (.write w.1 w.2) :: calls, ?_, fun known =>
        .passed _ (hmade known)⟩
      rw [hcalls, callsOf_append, List.append_assoc]
      rfl

/-- An operation that makes some moves makes them write by write if it writes one register at a
time. -/
theorem Goes.singly {act : Action F Unit} {moves : List Move} (h : Goes act moves) :
    Goes (singly act) (moves.flatMap Move.singly) := by
  intro known past
  let Seen (calls : List (AnsweredAccess F)) (events : List (Event (.registers F) (Notice F))) :
      Prop := ∃ writes, callsOf events = callsOf past ++ writes ∧ Splits calls writes
  have hcall (c : RegisterCall) (calls : List (AnsweredAccess F))
      (events : List (Event (.registers F) (Notice F))) (hseen : Seen calls events) :
      (c.singly : Routine (.registers F) (Notice F) _).Ensures (fun events e => events ++ [e])
        (fun reply events => Seen (calls ++ [⟨c, reply⟩]) events) events := by
    obtain ⟨writes, hwrites, hsplits⟩ := hseen
    refine (writeEach_made c.writes events).mono ?_
    rintro reply events ⟨more, hmore, hmade⟩
    exact ⟨writes ++ more, by rw [hmore, hwrites, List.append_assoc], hsplits.snoc hmade⟩
  refine (h.handle hcall ?_ known ⟨[], (List.append_nil _).symm, .nil⟩).mono ?_
  · rintro n calls events ⟨writes, hwrites, hsplits⟩
    refine ⟨writes, ?_, hsplits⟩
    rw [callsOf_append, hwrites]
    exact List.append_nil _
  · rintro ending events ⟨calls, hmade, writes, hwrites, hsplits⟩
    exact ⟨writes, hwrites, hmade.singly hsplits⟩

/-- An operation that makes some moves makes no accesses but theirs. -/
theorem Goes.makes {act : Action F Unit} {moves : List Move} (h : Goes act moves)
    (known : Option EngineStatus) :
    (act.run.run known).Makes fun c : RegisterCall => c ∈ accesses moves := by
  refine (h known []).makes_calls (fun _ => ⟨.ok ()⟩) ?_
  rintro ending events ⟨calls, hcalls, hmade⟩ call hcall
  obtain rfl : callsOf events = calls := hcalls
  exact hmade.mem hcall

end Chip

namespace Device
open Routine

variable {L F : Type} (device : Device L)

theorem mute_writeFrom_singly (register : UInt8) (offset : Nat) (data : List UInt8) :
    (device.bus.writeFrom device.address register offset data : Bus.Action L F Unit).run.mute =
      ((writeEach (RegisterCall.writeBlock register data).writes).handle device.answer).mute := by
  induction data generalizing register offset with
  | nil => rfl
  | cons value values ih =>
    rw [writes_cons, Bus.writeFrom, ExceptT.run_bind, mute_bind, mute_reporting, writeEach, handle,
      mute_bind]
    apply bind_congr
    intro reply
    cases reply with
    | error failure => rfl
    | ok => exact ih _ _

/-- But for notices, the bus carries an access out as the single writes that it amounts to. -/
theorem mute_answer {c : RegisterCall} (hfits : c.Fits) :
    (device.answer c : Routine (.lines L F) (Notice F) _).mute =
      (c.singly.handle device.answer).mute := by
  cases c with
  | write register value =>
    have hsingly : ((RegisterCall.write register value).singly.handle device.answer :
        Routine (.lines L F) (Notice F) _) = device.answer (.write register value) := by
      refine Eq.trans (bind_congr fun reply => ?_) (bind_done _)
      cases reply <;> rfl
    rw [hsingly]
  | writeBlock start data =>
    have hpage : ¬ data.length > Page.size := Nat.not_lt.2 hfits
    rw [answer, Bus.writeBlock, if_neg hpage]
    exact device.mute_writeFrom_singly start 0 data

/-- Over a bus it makes no difference, but for notices, whether accesses that fit into a page are
made as they are or write by write. -/
theorem mute_handle_singly {α : Type} {p : Routine (.registers F) (Notice F) α}
    (h : p.Makes RegisterCall.Fits) :
    (p.handle device.answer).mute =
      ((p.handle RegisterCall.singly).handle device.answer).mute := by
  induction p with
  | done a => rfl
  | call c next ih =>
    rw [handle, handle, handle_bind, mute_bind, mute_bind, device.mute_answer h.1]
    exact bind_congr fun reply => ih reply (h.2 reply)
  | note n next ih => exact ih h
  | abort => exact h.elim

/-- Nor does it make one for an operation that makes some moves. -/
theorem mute_perform_singly {act : Chip.Action F Unit} {moves : List Move}
    (h : Chip.Goes act moves) (hfits : ∀ c ∈ Move.accesses moves, c.Fits)
    (known : Option EngineStatus) :
    ((device.perform (Chip.singly act)).run.run known).mute =
      ((device.perform act).run.run known).mute :=
  (device.mute_handle_singly ((h.makes known).mono hfits)).symm

end Device

end LedSequencer
