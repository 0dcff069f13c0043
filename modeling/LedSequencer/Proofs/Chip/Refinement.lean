import LedSequencer.Proofs.Bus.Transfers
import LedSequencer.Proofs.Chip.Arrival
import LedSequencer.Proofs.Chip.Session
import LedSequencer.Proofs.Line.Steady
import LedSequencer.Proofs.Routine.Handle

/-! The chip at the end of a bus against the chip behind its registers. Main statement: a session
over a bus goes like the same session with registers that answer each access as the bus did, and the
frames on the bus are those of the single writes, access by access. -/
namespace LedSequencer
open Routine

namespace Turn

variable {L F σ : Type} (t : Turn σ) (device : Device L) (w : World (.lines L F) σ)

def runOver : Run (.lines L F) (Notice F) σ (Except (Failure F) Unit × Option EngineStatus) :=
  ((device.perform t.operation.action).run.run t.known).run w t.world

def leavesOver : Option EngineStatus :=
  match (t.runOver device w).outcome with
  | .returned (_, known) => known
  | _ => t.known

end Turn

namespace Device

variable {L F σ : Type} (device : Device L) (w : World (.lines L F) σ)

def session : List Operation → Option EngineStatus → σ → List (Turn σ)
  | [], _, _ => []
  | op :: ops, known, s =>
    let t : Turn σ := ⟨op, known, s⟩
    t :: match (t.runOver device w).outcome with
      | .cutOff => []
      | _ => session ops (t.leavesOver device w) (t.runOver device w).world

def eventsOf (turns : List (Turn σ)) : List (Event (.lines L F) (Notice F)) :=
  turns.flatMap fun t => (t.runOver device w).events

def accesses (turns : List (Turn σ)) : List (Exchange (.registers F) σ) :=
  turns.flatMap fun t =>
    (t.operation.action.run.run t.known).exchanges (w.through device.answer) t.world

end Device

/-- Some replies of registers, by their number; behind them everything succeeds. -/
def replying {F : Type} (replies : List (Except (Failure F) Unit)) (i : Nat) (_ : RegisterCall) :
    Except (Failure F) Unit :=
  (replies[i]?).getD (.ok ())

theorem rehearses_replying {F σ : Type} (xs : List (Exchange (.registers F) σ)) :
    Rehearses (I := .registers F) (replying (xs.map fun x => x.reply)) 0
      (xs.map Exchange.answered) := by
  intro i call hcall
  rw [List.getElem?_map] at hcall
  obtain ⟨x, hx, rfl⟩ := Option.map_eq_some_iff.1 hcall
  rw [Nat.zero_add, replying, List.getElem?_map, hx]
  rfl

def Frame.Hold (frames : List Frame) (payloads : List (List UInt8)) : Prop :=
  (∀ frame ∈ frames, frame.closed = true) ∧ frames.map Frame.bytes = payloads

/-- What an access to the registers of the device at `address` adds to the frames on the bus: one
for every write, if it succeeds; otherwise one for every write before some write, and at most one
more with a part of that write. -/
def RegisterCall.Contributes {F : Type} (address : UInt8) (c : RegisterCall)
    (reply : Except (Failure F) Unit) (frames : List Frame) : Prop :=
  match reply with
  | .ok _ => Frame.Hold frames (c.writes.map (payload address))
  | .error _ => ∃ whole rest sent next left,
      frames = whole ++ rest ∧ c.writes = sent ++ next :: left ∧
        Frame.Hold whole (sent.map (payload address)) ∧
        rest.length ≤ 1 ∧ ∀ frame ∈ rest, frame.bytes <+: payload address next

section Frames

/-- Frames that belong to deliveries in groups come in such groups. -/
theorem forall₂_flatten {α β : Type} {R : α → β → Prop} {as : List α} {groups : List (List β)}
    (h : List.Forall₂ R as groups.flatten) :
    ∃ parts, as = parts.flatten ∧ List.Forall₂ (List.Forall₂ R) parts groups := by
  induction groups generalizing as with
  | nil =>
    obtain rfl := List.forall₂_nil_right_iff.1 h
    exact ⟨[], rfl, .nil⟩
  | cons group groups ih =>
    have hfirst := List.forall₂_take_append as group groups.flatten h
    have hrest := List.forall₂_drop_append as group groups.flatten h
    obtain ⟨parts, hparts, hgroups⟩ := ih hrest
    refine ⟨as.take group.length :: parts, ?_, .cons hfirst hgroups⟩
    rw [List.flatten_cons, ← hparts, List.take_append_drop]

theorem hold_of_delivers {frames : List Frame} {payloads : List (List UInt8)}
    (h : List.Forall₂ Frame.Delivers frames (payloads.map fun bytes => ⟨bytes, true⟩)) :
    Frame.Hold frames payloads :=
  complete_of_delivers (List.forall₂_map_right_iff.1 h)

/-- The frames of an access whose writes went out as they can. -/
theorem RegisterCall.contributes {F : Type} {address : UInt8} {c : RegisterCall}
    {reply : Except (Failure F) Unit} {frames : List Frame} {deliveries : List Delivery}
    (hships : Ships (c.writes.map (payload address)) reply.toBool deliveries)
    (hframes : List.Forall₂ Frame.Delivers frames deliveries) :
    c.Contributes address reply frames := by
  cases reply with
  | ok =>
    obtain rfl := hships.eq_of_complete
    exact hold_of_delivers hframes
  | error failure =>
    generalize hwrites : c.writes.map (payload address) = payloads at hships
    cases hships with
    | cut sent next left rest hrest =>
      -- The write that failed left one frame at most, behind the whole ones.
      obtain ⟨before, after, hsplit, rfl, hafter⟩ := List.map_eq_append_iff.1 hwrites
      obtain ⟨w, later, rfl, rfl, rfl⟩ := List.map_eq_cons_iff.1 hafter
      have hwhole := List.forall₂_take_append _ _ _ hframes
      have hlast := List.forall₂_drop_append _ _ _ hframes
      refine ⟨_, _, before, w, later, (List.take_append_drop _ _).symm, hsplit,
        hold_of_delivers hwhole, ?_, ?_⟩
      · rw [hlast.length_eq]
        obtain rfl | rfl := hrest
        · exact Nat.zero_le 1
        · exact Nat.le_refl 1
      · intro frame hframe
        obtain ⟨d, hd, hbytes⟩ := mem_of_delivers hlast hframe
        obtain rfl | rfl := hrest
        · exact absurd hd List.not_mem_nil
        · obtain rfl := List.mem_singleton.1 hd
          exact hbytes

end Frames

section Sessions

variable {L F σ : Type} (device : Device L) (answer : (c : LineCall L) → σ → c.Reply F × σ)

namespace Device

/-- Where every line call is answered, so is every access. -/
theorem answer_returns (c : (Interface.registers F).Call) (s : σ) :
    ∃ reply, ((device.answer c).run (.answering answer) s).outcome = .returned reply :=
  ((device.makes_answer (F := F) c).adds []).returns answer s

end Device

/-- An operation over a bus is the operation with registers that answer as the bus does. -/
theorem Turn.runOver_eq (t : Turn σ) :
    let w : World (.lines L F) σ := .answering answer
    (t.runOver device w).outcome = (t.run (w.through device.answer)).outcome ∧
      (t.runOver device w).world = (t.run (w.through device.answer)).world ∧
      callsOf (t.runOver device w).events =
        ((t.operation.action.run.run t.known).exchanges (w.through device.answer) t.world).flatMap
          fun x => callsOf ((device.answer x.call).run w x.world).events :=
  run_handle (device.answer_returns answer) _ t.world

theorem Device.session_eq (ops : List Operation) (known : Option EngineStatus) (s : σ) :
    let w : World (.lines L F) σ := .answering answer
    device.session w ops known s = Chip.session (w.through device.answer) ops known s := by
  intro w
  induction ops generalizing known s with
  | nil => rfl
  | cons op ops ih =>
    obtain ⟨houtcome, hworld, _⟩ := Turn.runOver_eq device answer ⟨op, known, s⟩
    rw [session, Chip.session, Turn.leavesOver, Turn.leaves, houtcome, hworld]
    cases (Turn.run ⟨op, known, s⟩ (w.through device.answer)).outcome with
    | returned ending => exact congrArg _ (ih _ _)
    | cutOff => rfl
    | aborted => exact congrArg _ (ih _ _)

namespace Chip

variable {w : World (.registers F) σ} (hw : ∀ c s, w c s ≠ none)
include hw

theorem session_cons (op : Operation) (ops : List Operation) (known : Option EngineStatus) (s : σ) :
    session w (op :: ops) known s =
      ⟨op, known, s⟩ :: session w ops (Turn.leaves ⟨op, known, s⟩ w)
        (Turn.run ⟨op, known, s⟩ w).world := by
  have hends : (Turn.run ⟨op, known, s⟩ w).outcome ≠ .cutOff := outcome_ne_cutOff w hw _ s
  rw [session]
  split
  · contradiction
  · rfl

theorem operations_session (ops : List Operation) (known : Option EngineStatus) (s : σ) :
    (session w ops known s).map Turn.operation = ops := by
  induction ops generalizing known s with
  | nil => rfl
  | cons op ops ih => rw [session_cons hw, List.map_cons, ih]

variable {script : Nat → RegisterCall → Except (Failure F) Unit}

theorem turn_scripted (t : Turn σ) (n : Nat) (hscript : Rehearses script n (callsOf (t.events w))) :
    let abstract : World (.registers F) Nat := .answering (scripted script)
    let replay : Turn Nat := ⟨t.operation, t.known, n⟩
    (replay.run abstract).outcome = (t.run w).outcome ∧
      replay.leaves abstract = t.leaves w ∧ replay.events abstract = t.events w ∧
      (replay.run abstract).world = n + (callsOf (t.events w)).length := by
  intro abstract replay
  have hends : (t.run w).outcome ≠ .cutOff := outcome_ne_cutOff w hw _ t.world
  obtain ⟨houtcome, hevents, hworld⟩ := run_scripted w hends hscript
  replace houtcome : (replay.run abstract).outcome = (t.run w).outcome := houtcome
  refine ⟨houtcome, ?_, hevents, hworld⟩
  rw [Turn.leaves, Turn.leaves, houtcome]

/-- A session with registers that have the replies of another session in a row goes like it. -/
theorem session_scripted (ops : List Operation) (known : Option EngineStatus) (s : σ) (n : Nat)
    (hscript : Rehearses script n (callsOf (eventsOf w (session w ops known s)))) :
    let abstract : World (.registers F) Nat := .answering (scripted script)
    let replay := session abstract ops known n
    replay.map (fun t => (t.operation, t.known, (t.run abstract).outcome)) =
        (session w ops known s).map (fun t => (t.operation, t.known, (t.run w).outcome)) ∧
      eventsOf abstract replay = eventsOf w (session w ops known s) := by
  intro abstract replay
  induction ops generalizing known s n with
  | nil => exact ⟨rfl, rfl⟩
  | cons op ops ih =>
    have habstract (c : (Interface.registers F).Call) (n : Nat) : abstract c n ≠ none := nofun
    rw [session_cons hw, eventsOf, List.flatMap_cons, callsOf_append, rehearses_append] at hscript
    obtain ⟨hfirst, hrest⟩ := hscript
    obtain ⟨houtcome, hleaves, hevents, hworld⟩ := turn_scripted hw ⟨op, known, s⟩ n hfirst
    -- The rest of the replay starts where the script has the replies of the rest.
    obtain ⟨hturns, hlater⟩ := ih _ _ _ hrest
    have hreplay : replay = ⟨op, known, n⟩ :: session abstract ops _ _ :=
      session_cons habstract op ops known n
    rw [hleaves, hworld] at hreplay
    rw [hreplay, session_cons hw]
    refine ⟨?_, ?_⟩
    · rw [List.map_cons, List.map_cons, hturns]
      exact congrArg (fun outcome => (op, known, outcome) :: _) houtcome
    · rw [eventsOf, List.flatMap_cons, eventsOf, List.flatMap_cons]
      exact congrArg₂ (· ++ ·) hevents hlater

end Chip

namespace Device

theorem calls_eventsOf (turns : List (Turn σ)) :
    let w : World (.lines L F) σ := .answering answer
    callsOf (device.eventsOf w turns) =
      (device.accesses w turns).flatMap fun x =>
        callsOf ((device.answer x.call).run w x.world).events := by
  intro w
  rw [eventsOf, callsOf_flatMap, accesses, List.flatMap_assoc]
  exact congrArg turns.flatMap (funext fun t => (t.runOver_eq device answer).2.2)

theorem accesses_eq (w : World (.lines L F) σ) (turns : List (Turn σ)) :
    callsOf (Chip.eventsOf (w.through device.answer) turns) =
      (device.accesses w turns).map Exchange.answered := by
  rw [Chip.eventsOf, callsOf_flatMap, accesses, List.map_flatMap]
  exact congrArg turns.flatMap (funext fun t => callsOf_run _ _ t.world)

/-- An access of a session ends as its run over the bus does. -/
theorem returned_of_mem_accesses {w : World (.lines L F) σ} {turns : List (Turn σ)}
    {x : Exchange (.registers F) σ} (hx : x ∈ device.accesses w turns) :
    ((device.answer x.call).run w x.world).outcome = .returned x.reply := by
  obtain ⟨t, _, hx⟩ := List.mem_flatMap.1 hx
  obtain ⟨s', hreply⟩ := exchanges_answered _ hx
  exact World.returned_of_through hreply

variable [DecidableEq L]

/-- Accesses one after the other ship their writes, in the same order. -/
theorem accesses_ship (distinct : device.bus.clock ≠ device.bus.data) (w : World (.lines L F) σ)
    (xs : List (Exchange (.registers F) σ))
    (h : ∀ x ∈ xs, ((device.answer x.call).run w x.world).outcome = .returned x.reply)
    {earlier : List Delivery} {wire : Wire} (hwire : wire.Delivered earlier) :
    ∃ groups, List.Forall₂
        (fun x ds => Ships (x.call.writes.map (payload device.address)) x.reply.toBool ds) xs groups ∧
      ((xs.flatMap fun x => ((device.answer x.call).run w x.world).events).foldl
        (Wire.next device.bus.clock) wire).Delivered (groups.flatten.reverse ++ earlier) := by
  induction xs generalizing earlier wire with
  | nil => exact ⟨[], .nil, hwire⟩
  | cons x xs ih =>
    obtain ⟨hfirst, hrest⟩ := List.forall_mem_cons.1 h
    have hshipped := (answer_ships device distinct x.call wire).returned w hfirst
    obtain ⟨ds, hships, hwire⟩ := hshipped.delivers earlier hwire
    obtain ⟨groups, hgroups, hlater⟩ := ih hrest hwire
    refine ⟨ds :: groups, .cons hships hgroups, ?_⟩
    rw [List.flatMap_cons, List.foldl_append, List.flatten_cons, List.reverse_append,
      List.append_assoc]
    exact hlater

/-- The frames of some accesses, one after the other. -/
theorem accesses_frames (distinct : device.bus.clock ≠ device.bus.data) (w : World (.lines L F) σ)
    (xs : List (Exchange (.registers F) σ))
    (h : ∀ x ∈ xs, ((device.answer x.call).run w x.world).outcome = .returned x.reply)
    (levels : Levels) :
    ∃ frames, framesOf (waveform device.bus.clock levels
        (xs.flatMap fun x => ((device.answer x.call).run w x.world).events)) = frames.flatten ∧
      List.Forall₂ (fun x part => x.call.Contributes device.address x.reply part) xs frames := by
  have hnone : (Wire.mk levels []).Delivered [] := Ledger.nil levels
  obtain ⟨groups, hgroups, hships⟩ := device.accesses_ship distinct w xs h hnone
  rw [Wire.foldl_next, List.append_nil, List.nil_append] at hships
  -- The ledger has the latest frame first, and the groups of deliveries make groups of the frames.
  have hframes := List.rel_reverse hships.delivers
  rw [List.reverse_reverse] at hframes
  obtain ⟨frames, hflatten, hparts⟩ := forall₂_flatten hframes
  refine ⟨frames, hflatten, ?_⟩
  clear hflatten hframes hships
  induction hgroups generalizing frames with
  | nil =>
    obtain rfl := List.forall₂_nil_right_iff.1 hparts
    exact .nil
  | cons hship _ ih =>
    obtain ⟨part, parts, hpart, hrest, rfl⟩ := List.forall₂_cons_right_iff.1 hparts
    have hfirst := RegisterCall.contributes hship hpart
    exact .cons hfirst (ih (fun x hx => h x (List.mem_cons_of_mem _ hx)) parts hrest)

/-- The operations of a session over a bus go like those of a session with registers whose accesses
end, in order, as the accesses over the bus did: the same results, and the same is known of the
engines. The accesses are the same, and the frames on the bus are what they contribute, in order. -/
theorem session_refines (distinct : device.bus.clock ≠ device.bus.data) (ops : List Operation)
    (known : Option EngineStatus) (s : σ) (levels : Levels) :
    let w : World (.lines L F) σ := .answering answer
    let turns := device.session w ops known s
    let accesses := device.accesses w turns
    let abstract : World (.registers F) Nat :=
      .answering (scripted (replying (accesses.map fun x => x.reply)))
    let shadows := Chip.session abstract ops known 0
    turns.map Turn.operation = ops ∧
      (∀ x ∈ accesses, ((device.answer x.call).run w x.world).outcome = .returned x.reply) ∧
      callsOf (device.eventsOf w turns) = accesses.flatMap (fun x =>
        callsOf ((device.answer x.call).run w x.world).events) ∧
      turns.map (fun t => (t.operation, t.known, (t.runOver device w).outcome)) =
        shadows.map (fun t => (t.operation, t.known, (t.run abstract).outcome)) ∧
      callsOf (Chip.eventsOf abstract shadows) = accesses.map Exchange.answered ∧
      ∃ frames, framesOf (waveform device.bus.clock levels (device.eventsOf w turns)) =
          frames.flatten ∧
        List.Forall₂ (fun x part => x.call.Contributes device.address x.reply part)
          accesses frames := by
  intro w turns accesses abstract shadows
  have hturns : turns = Chip.session (w.through device.answer) ops known s :=
    device.session_eq answer ops known s
  have hreturned : ∀ x ∈ accesses, _ := fun x hx => device.returned_of_mem_accesses hx
  have hcalls := device.calls_eventsOf answer turns
  have hthrough := World.through_ne_none (device.answer_returns answer)
  -- The script has the replies of the accesses from its beginning on.
  have hanswered : callsOf (Chip.eventsOf (w.through device.answer)
      (Chip.session (w.through device.answer) ops known s)) = accesses.map Exchange.answered := by
    rw [← hturns]
    exact device.accesses_eq w turns
  have hscript := rehearses_replying accesses
  rw [← hanswered] at hscript
  obtain ⟨hshadows, hevents⟩ := Chip.session_scripted hthrough ops known s 0 hscript
  refine ⟨?_, hreturned, hcalls, ?_, ?_, ?_⟩
  · rw [hturns]
    exact Chip.operations_session hthrough ops known s
  · refine Eq.trans ?_ hshadows.symm
    rw [← hturns]
    refine congrArg (List.map · turns) (funext fun t => ?_)
    rw [(t.runOver_eq device answer).1]
  · exact (congrArg callsOf hevents).trans hanswered
  · rw [waveform_congr (hcalls.trans (callsOf_flatMap _ _).symm)]
    exact device.accesses_frames distinct w accesses hreturned levels

/-- An output faults while the second byte of the mux table is written. -/
theorem session_refines_broken :
    let device : Device UInt8 := ⟨⟨Bus.defaultClock, Bus.defaultData, Bus.defaultHalfPeriod⟩, 0x64⟩
    let w : World (.lines UInt8 Unit) Nat := .answering (brokenLines 313)
    let turns := device.session w [.uploadAndRun [1, 2] [3], .haltEngines] none 0
    let accesses := device.accesses w turns
    device.bus.clock ≠ device.bus.data ∧
      accesses.map (fun x => x.reply) = [.ok (), .ok (), .error (.io ()), .ok ()] ∧
      ∃ frames, framesOf (waveform device.bus.clock .idle (device.eventsOf w turns)) =
          frames.flatten ∧
        List.Forall₂ (fun x part => x.call.Contributes device.address x.reply part)
          accesses frames := by
  intro device w turns accesses
  have distinct : device.bus.clock ≠ device.bus.data := by decide
  have hreplies : accesses.map (fun x => x.reply) = [.ok (), .ok (), .error (.io ()), .ok ()] := by
    decide +kernel
  obtain ⟨_, _, _, _, _, hframes⟩ := session_refines device (brokenLines 313) distinct
    [.uploadAndRun [1, 2] [3], .haltEngines] none 0 .idle
  exact ⟨distinct, hreplies, hframes⟩

end Device

end Sessions

end LedSequencer
