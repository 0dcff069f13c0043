import LedSequencer.Proofs.Chip.Stages
import LedSequencer.Proofs.Routine.Calls
import LedSequencer.Proofs.Routine.Ensures
import LedSequencer.Proofs.Routine.Handle

/-! The operations of the chip as moves, one after the other up to the first access that fails. Main
statement: such an operation makes the accesses of its moves up to the first that fails, ends with
the failure of that one, and leaves the engines known as far as it got. -/
namespace LedSequencer

abbrev AnsweredAccess (F : Type) := (_ : RegisterCall) × Except (Failure F) Unit

def AnsweredAccess.made {F : Type} (c : RegisterCall) : AnsweredAccess F := ⟨c, .ok ()⟩

def AnsweredAccess.missed {F : Type} (c : RegisterCall) (failure : Failure F) : AnsweredAccess F :=
  ⟨c, .error failure⟩

inductive Move where
  | access (c : RegisterCall)
  | reach (status : EngineStatus)

namespace Move

variable {F : Type}

def accesses : List Move → List RegisterCall
  | [] => []
  | access c :: moves => c :: accesses moves
  | reach _ :: moves => accesses moves

theorem accesses_append (a b : List Move) : accesses (a ++ b) = accesses a ++ accesses b := by
  induction a with
  | nil => rfl
  | cons move a ih =>
    cases move with
    | access c => exact congrArg (List.cons c) ih
    | reach status => exact ih

/-- What is known of the engines if the first access of some moves fails, if the second one does,
and so on, and in the end if none does. -/
def statuses : List Move → Option EngineStatus → List (Option EngineStatus)
  | [], known => [known]
  | access _ :: moves, known => known :: statuses moves known
  | reach status :: moves, _ => statuses moves (some status)

/-- Some moves are made from a status on, up to the first access that fails: the accesses with their
replies, the result and the last status. -/
inductive Made : List Move → Option EngineStatus → List (AnsweredAccess F) →
    Except (Failure F) Unit → Option EngineStatus → Prop where
  | nil (known) : Made [] known [] (.ok ()) known
  | reached {moves known calls result last} (status)
      (rest : Made moves (some status) calls result last) :
      Made (reach status :: moves) known calls result last
  | failed (c) (moves) (known) (failure) :
      Made (access c :: moves) known [.missed c failure] (.error failure) known
  | passed {moves known calls result last} (c) (rest : Made moves known calls result last) :
      Made (access c :: moves) known (.made c :: calls) result last

theorem Made.append {a b : List Move} {known middle last : Option EngineStatus}
    {before after : List (AnsweredAccess F)} {result : Except (Failure F) Unit}
    (h : Made a known before (.ok ()) middle) (hb : Made b middle after result last) :
    Made (a ++ b) known (before ++ after) result last := by
  generalize hok : (Except.ok () : Except (Failure F) Unit) = ok at h
  induction h with
  | nil known => exact hb
  | reached status _ ih => exact .reached status (ih hb hok)
  | failed => exact absurd hok nofun
  | passed c _ ih => exact .passed c (ih hb hok)

/-- Nothing is done after a failure. -/
theorem Made.append_error {a : List Move} {known last : Option EngineStatus}
    {calls : List (AnsweredAccess F)} {failure : Failure F}
    (h : Made a known calls (.error failure) last) (b : List Move) :
    Made (a ++ b) known calls (.error failure) last := by
  generalize herror : (Except.error failure : Except (Failure F) Unit) = result at h ⊢
  induction h with
  | nil => exact absurd herror nofun
  | reached status _ ih => exact .reached status (ih herror)
  | failed c moves known failure => exact .failed c (moves ++ b) known failure
  | passed c _ ih => exact .passed c (ih herror)

/-- Either all accesses succeeded, or one failed, all before it succeeded and none follows. -/
theorem Made.cut {moves : List Move} {known last : Option EngineStatus}
    {calls : List (AnsweredAccess F)} {result : Except (Failure F) Unit}
    (h : Made moves known calls result last) :
    ∃ i : Nat, (statuses moves known)[i]? = some last ∧
      ((i = (accesses moves).length ∧ calls = (accesses moves).map .made ∧ result = .ok ()) ∨
        ∃ c failure, (accesses moves)[i]? = some c ∧
          calls = ((accesses moves).take i).map .made ++ [.missed c failure] ∧
          result = .error failure) := by
  induction h with
  | nil known => exact ⟨0, rfl, Or.inl ⟨rfl, rfl, rfl⟩⟩
  | reached status _ ih => exact ih
  | failed c moves known failure => exact ⟨0, rfl, Or.inr ⟨c, failure, rfl, rfl, rfl⟩⟩
  | passed c _ ih =>
    obtain ⟨i, hlast, ⟨hi, hcalls, hok⟩ | ⟨d, failure, hd, hcalls, herror⟩⟩ := ih
    · refine ⟨i + 1, hlast, Or.inl ⟨?_, ?_, hok⟩⟩
      · rw [hi]
        rfl
      · rw [hcalls]
        rfl
    · refine ⟨i + 1, hlast, Or.inr ⟨d, failure, hd, ?_, herror⟩⟩
      rw [hcalls]
      rfl

/-- Whatever comes before an access is what comes before it among the moves, and succeeded. -/
theorem Made.before {moves : List Move} {known last : Option EngineStatus}
    {calls earlier later : List (AnsweredAccess F)} {call : AnsweredAccess F}
    {result : Except (Failure F) Unit} (h : Made moves known calls result last)
    (hsplit : calls = earlier ++ call :: later) :
    ∃ i : Nat, (accesses moves)[i]? = some call.1 ∧
      earlier = ((accesses moves).take i).map .made := by
  induction h generalizing earlier with
  | nil => exact absurd hsplit.symm (List.append_ne_nil_of_right_ne_nil _ nofun)
  | reached status _ ih => exact ih hsplit
  | failed c moves known failure =>
    cases earlier with
    | nil =>
      obtain ⟨rfl, _⟩ := List.cons.inj hsplit
      exact ⟨0, rfl, rfl⟩
    | cons d earlier =>
      obtain ⟨_, hnil⟩ := List.cons.inj hsplit
      exact absurd hnil.symm (List.append_ne_nil_of_right_ne_nil _ nofun)
  | passed c _ ih =>
    cases earlier with
    | nil =>
      obtain ⟨rfl, _⟩ := List.cons.inj hsplit
      exact ⟨0, rfl, rfl⟩
    | cons d earlier =>
      obtain ⟨rfl, hrest⟩ := List.cons.inj hsplit
      obtain ⟨i, hi, hearlier⟩ := ih hrest
      exact ⟨i + 1, hi, by rw [hearlier]; rfl⟩

/-- All accesses are those of the moves. -/
theorem Made.mem {moves : List Move} {known last : Option EngineStatus}
    {calls : List (AnsweredAccess F)} {result : Except (Failure F) Unit}
    (h : Made moves known calls result last) {call : AnsweredAccess F} (hcall : call ∈ calls) :
    call.1 ∈ accesses moves := by
  obtain ⟨earlier, later, hsplit⟩ := List.append_of_mem hcall
  obtain ⟨i, hi, _⟩ := h.before hsplit
  exact List.mem_of_getElem? hi

end Move

namespace Chip
open Routine

variable {F : Type}

/-- An operation does nothing but make some moves. -/
def Goes (act : Action F Unit) (moves : List Move) : Prop :=
  ∀ (known : Option EngineStatus) (past : List (Event (.registers F) (Notice F))),
    (act.run.run known).Ensures (fun events e => events ++ [e])
      (fun ending events => ∃ calls, callsOf events = callsOf past ++ calls ∧
        Move.Made moves known calls ending.1 ending.2) past

theorem goes_access (c : RegisterCall) : Goes (access c : Action F Unit) [.access c] := by
  intro known past reply
  refine ⟨[⟨c, reply⟩], callsOf_append _ _, ?_⟩
  cases reply with
  | error failure => exact .failed c [] known failure
  | ok => exact .passed c (.nil known)

theorem goes_reached (status : EngineStatus) :
    Goes (reached status : Action F Unit) [.reach status] :=
  fun _ past => ⟨[], (List.append_nil (callsOf past)).symm, .reached status (.nil _)⟩

theorem goes_pure : Goes (pure () : Action F Unit) [] :=
  fun known past => ⟨[], (List.append_nil (callsOf past)).symm, .nil known⟩

theorem goes_note (n : Notice F) : Goes (Journal.note n : Action F Unit) [] :=
  fun known past => ⟨[], by simp [callsOf], .nil known⟩

theorem Goes.bind {act rest : Action F Unit} {a b : List Move} (h : Goes act a)
    (hrest : Goes rest b) : Goes (act >>= fun _ => rest) (a ++ b) := by
  intro known past
  rw [ExceptT.run_bind, StateT.run_bind, ensures_bind]
  refine (h known past).mono ?_
  intro (result, middle) events
  rintro ⟨calls, hcalls, hmade⟩
  cases result with
  | error failure => exact ⟨calls, hcalls, hmade.append_error b⟩
  | ok =>
    refine (hrest middle events).mono ?_
    intro ending events'
    rintro ⟨more, hmore, hmade'⟩
    exact ⟨calls ++ more, by rw [hmore, hcalls, List.append_assoc], hmade.append hmade'⟩

/-- A report is no move. -/
theorem Goes.reporting {act : Action F Unit} {moves : List Move} (h : Goes act moves)
    (notice : Failure F → Notice F) : Goes (LedSequencer.reporting notice act) moves := by
  intro known past
  refine (ensures_bind _ _ _ _).2 ((h known past).mono ?_)
  intro (result, last) events
  rintro ⟨calls, hcalls, hmade⟩
  cases result with
  | ok => exact ⟨calls, hcalls, hmade⟩
  | error failure =>
    refine ⟨calls, ?_, hmade⟩
    rw [callsOf_append, hcalls]
    exact List.append_nil _

/-- An operation that makes some moves makes them too where each access is carried out by a handler.
`Seen` relates the accesses so far to the observer of the handlers; every handler keeps up with it,
and a notice does not matter to it. -/
theorem Goes.handle {J : Interface} {υ : Type} {act : Action F Unit} {moves : List Move}
    (hgoes : Goes act moves) {h : RegisterCall → Routine J (Notice F) (Except (Failure F) Unit)}
    {watch : υ → Event J (Notice F) → υ} {Seen : List (AnsweredAccess F) → υ → Prop}
    (hcall : ∀ c calls u, Seen calls u →
      (h c).Ensures watch (fun reply u => Seen (calls ++ [⟨c, reply⟩]) u) u)
    (hnote : ∀ n calls u, Seen calls u → Seen calls (watch u (.noted n)))
    (known : Option EngineStatus) {u : υ} (hu : Seen [] u) :
    (Routine.handle (I := .registers F) h (act.run.run known)).Ensures watch
      (fun ending u => ∃ calls, Move.Made moves known calls ending.1 ending.2 ∧ Seen calls u) u := by
  let Related (events : List (Event (.registers F) (Notice F))) (u : υ) : Prop :=
    Seen (callsOf events) u
  have hcall' (c : RegisterCall) (events : List (Event (.registers F) (Notice F))) (u : υ)
      (hseen : Related events u) :
      (h c).Ensures watch (fun reply u => Related (events ++ [.called c reply]) u) u := by
    refine (hcall c _ u hseen).mono ?_
    intro reply u hnext
    show Seen (callsOf (events ++ [.called c reply])) u
    rw [callsOf_append]
    exact hnext
  have hnote' (n : Notice F) (events : List (Event (.registers F) (Notice F))) (u : υ)
      (hseen : Related events u) : Related (events ++ [.noted n]) (watch u (.noted n)) := by
    show Seen (callsOf (events ++ [.noted n])) _
    rw [callsOf_append]
    exact hnote n _ u ((List.append_nil (callsOf events)).symm ▸ hseen)
  refine ((hgoes known []).handle hcall' hnote' hu).mono ?_
  rintro ending u ⟨events, ⟨calls, hcalls, hmade⟩, hseen⟩
  obtain rfl : callsOf events = calls := hcalls
  exact ⟨_, hmade, hseen⟩

end Chip

end LedSequencer
