import LedSequencer.Proofs.Routine.Calls
import LedSequencer.Proofs.Routine.Ensures
import Mathlib.Tactic.Choose

/-! Routines that are carried over to another interface. Main statements: such a run ends like the
run in a world that answers every call as its handler does, and it makes the calls of the handlers in
a row; and nothing but the replies, in their order, has a part in a run. -/
namespace LedSequencer

variable {I J : Interface} {N α σ τ υ : Type}

/-- The surroundings of a routine whose calls are made by `h` in the world `w`. A call returns if its
handler does. -/
def World.through (w : World J σ) (h : (c : I.Call) → Routine J N (I.Reply c)) : World I σ :=
  fun c s =>
    match ((h c).run w s).outcome with
    | .returned reply => some (reply, ((h c).run w s).world)
    | .cutOff | .aborted => none

theorem World.through_eq {w : World J σ} {h : (c : I.Call) → Routine J N (I.Reply c)} {c : I.Call}
    {s : σ} {reply : I.Reply c} (hreturned : ((h c).run w s).outcome = .returned reply) :
    w.through h c s = some (reply, ((h c).run w s).world) := by
  rw [through, hreturned]

/-- If all handlers return there is a reply to every call. -/
theorem World.through_answering {w : World J σ} {h : (c : I.Call) → Routine J N (I.Reply c)}
    (hreturns : ∀ c s, ∃ reply, ((h c).run w s).outcome = .returned reply) :
    ∃ answer, w.through h = .answering answer := by
  choose reply hreply using hreturns
  exact ⟨fun c s => (reply c s, ((h c).run w s).world), funext fun c => funext fun s =>
    through_eq (hreply c s)⟩

theorem World.through_ne_none {w : World J σ} {h : (c : I.Call) → Routine J N (I.Reply c)}
    (hreturns : ∀ c s, ∃ reply, ((h c).run w s).outcome = .returned reply) (c : I.Call) (s : σ) :
    w.through h c s ≠ none := by
  obtain ⟨answer, hanswer⟩ := through_answering hreturns
  rw [hanswer]
  exact nofun

theorem World.returned_of_through {w : World J σ} {h : (c : I.Call) → Routine J N (I.Reply c)}
    {c : I.Call} {s s' : σ} {reply : I.Reply c} (hreply : w.through h c s = some (reply, s')) :
    ((h c).run w s).outcome = .returned reply := by
  rw [through] at hreply
  split at hreply
  · rename_i other hreturned
    obtain ⟨rfl, _⟩ := Prod.mk.inj (Option.some.inj hreply)
    exact hreturned
  · exact absurd hreply nofun
  · exact absurd hreply nofun

structure Exchange (I : Interface) (σ : Type) where
  call : I.Call
  world : σ
  reply : I.Reply call

def Exchange.answered (x : Exchange I σ) : (c : I.Call) × I.Reply c := ⟨x.call, x.reply⟩

/-- A world that gives replies by their number. The state is how many there were. -/
def scripted (script : Nat → (c : I.Call) → I.Reply c) (c : I.Call) (n : Nat) : I.Reply c × Nat :=
  (script n c, n + 1)

/-- From its place `n` on the script has the replies to some calls. -/
def Rehearses (script : Nat → (c : I.Call) → I.Reply c) (n : Nat)
    (calls : List ((c : I.Call) × I.Reply c)) : Prop :=
  ∀ i call, calls[i]? = some call → script (n + i) call.1 = call.2

/-- There are scripts for any calls, as long as some reply can be given to those that are not among
them. -/
theorem exists_rehearses (hreply : ∀ c, Nonempty (I.Reply c))
    (calls : List ((c : I.Call) × I.Reply c)) : ∃ script, Rehearses script 0 calls := by
  -- At each place and for each call: the reply that is asked for, or else any.
  have hplace (i : Nat) (c : I.Call) : ∃ reply : I.Reply c,
      ∀ call, calls[i]? = some call → (h : call.1 = c) → h ▸ call.2 = reply := by
    by_cases hcall : ∃ call, calls[i]? = some call ∧ call.1 = c
    · obtain ⟨call, hcall, rfl⟩ := hcall
      refine ⟨call.2, fun other hother _ => ?_⟩
      obtain rfl : call = other := Option.some.inj (hcall.symm.trans hother)
      rfl
    · obtain ⟨reply⟩ := hreply c
      exact ⟨reply, fun call h hc => absurd ⟨call, h, hc⟩ hcall⟩
  choose script hscript using hplace
  refine ⟨script, fun i call hcall => ?_⟩
  rw [Nat.zero_add]
  exact (hscript i call.1 call hcall rfl).symm

section Scripts

variable {script : Nat → (c : I.Call) → I.Reply c} {n : Nat}

theorem rehearses_cons {call : (c : I.Call) × I.Reply c} {calls : List ((c : I.Call) × I.Reply c)} :
    Rehearses script n (call :: calls) ↔
      script n call.1 = call.2 ∧ Rehearses script (n + 1) calls := by
  refine ⟨fun h => ⟨h 0 call rfl, fun i later hlater => ?_⟩, ?_⟩
  · rw [Nat.add_right_comm]
    exact h (i + 1) later hlater
  · rintro ⟨hfirst, hrest⟩ (_ | i) later hlater
    · obtain rfl := Option.some.inj hlater
      exact hfirst
    · rw [← Nat.add_assoc, Nat.add_right_comm]
      exact hrest i later hlater

theorem rehearses_append {a b : List ((c : I.Call) × I.Reply c)} :
    Rehearses script n (a ++ b) ↔ Rehearses script n a ∧ Rehearses script (n + a.length) b := by
  induction a generalizing n with
  | nil => exact ⟨fun h => ⟨nofun, h⟩, And.right⟩
  | cons call a ih =>
    rw [List.cons_append, rehearses_cons, rehearses_cons, ih, and_assoc, List.length_cons,
      Nat.add_right_comm, Nat.add_assoc n]

end Scripts

namespace Routine

def exchanges (w : World I σ) : Routine I N α → σ → List (Exchange I σ)
  | done _, _ => []
  | call c next, s =>
    match w c s with
    | none => []
    | some (reply, s') => ⟨c, s, reply⟩ :: (next reply).exchanges w s'
  | note _ next, s => next.exchanges w s
  | abort, _ => []

section Exchanges

variable (w : World I σ)

theorem exchanges_call {c : I.Call} {next : I.Reply c → Routine I N α} {reply : I.Reply c}
    {s s' : σ} (h : w c s = some (reply, s')) :
    (call c next).exchanges w s = ⟨c, s, reply⟩ :: (next reply).exchanges w s' := by
  rw [exchanges, h]

theorem callsOf_run (p : Routine I N α) (s : σ) :
    callsOf (p.run w s).events = (p.exchanges w s).map Exchange.answered := by
  induction p generalizing s with
  | done a => rfl
  | call c next ih =>
    cases hw : w c s with
    | none =>
      have hrun : (call c next).run w s = ⟨.cutOff, s, []⟩ := by rw [run, runFrom, hw]
      rw [hrun, exchanges, hw]
      rfl
    | some answer =>
      obtain ⟨reply, s'⟩ := answer
      rw [run_call w hw, Run.events_after, callsOf_append, ih, exchanges_call w hw]
      rfl
  | note n next ih =>
    rw [calls_note]
    exact ih s
  | abort => rfl

/-- Every exchange is one with the world of the run. -/
theorem exchanges_answered {p : Routine I N α} {s : σ} {x : Exchange I σ}
    (hx : x ∈ p.exchanges w s) : ∃ s', w x.call x.world = some (x.reply, s') := by
  induction p generalizing s with
  | done a => exact absurd hx List.not_mem_nil
  | call c next ih =>
    cases hw : w c s with
    | none =>
      rw [exchanges, hw] at hx
      exact absurd hx List.not_mem_nil
    | some answer =>
      obtain ⟨reply, s'⟩ := answer
      rw [exchanges_call w hw] at hx
      obtain rfl | hx := List.mem_cons.1 hx
      · exact ⟨s', hw⟩
      · exact ih reply hx
  | note n next ih => exact ih hx
  | abort => exact absurd hx List.not_mem_nil

/-- So is every call among the events. -/
theorem answered_of_mem {p : Routine I N α} {s : σ} {c : I.Call} {reply : I.Reply c}
    (h : .called c reply ∈ (p.run w s).events) : ∃ s' s'', w c s' = some (reply, s'') := by
  have hcall : ⟨c, reply⟩ ∈ callsOf (p.run w s).events := List.mem_filterMap.2 ⟨_, h, rfl⟩
  rw [callsOf_run] at hcall
  obtain ⟨x, hx, hxc⟩ := List.mem_map.1 hcall
  obtain ⟨c', s', reply'⟩ := x
  cases hxc
  obtain ⟨s'', hanswer⟩ := exchanges_answered w hx
  exact ⟨s', s'', hanswer⟩

theorem outcome_ne_cutOff (hw : ∀ c s, w c s ≠ none) (p : Routine I N α) (s : σ) :
    (p.run w s).outcome ≠ .cutOff := by
  induction p generalizing s with
  | done a => exact nofun
  | call c next ih =>
    obtain ⟨⟨reply, s'⟩, hreply⟩ := Option.ne_none_iff_exists'.1 (hw c s)
    rw [run_call w hreply]
    exact ih reply s'
  | note n next ih =>
    rw [run_note]
    exact ih s
  | abort => exact nofun

/-- A run that is not cut off can be had from a script that has the replies of its calls. -/
theorem run_scripted {script : Nat → (c : I.Call) → I.Reply c} {p : Routine I N α} {s : σ} {n : Nat}
    (hends : (p.run w s).outcome ≠ .cutOff)
    (hscript : Rehearses script n (callsOf (p.run w s).events)) :
    let replay := p.run (.answering (scripted script)) n
    replay.outcome = (p.run w s).outcome ∧ replay.events = (p.run w s).events ∧
      replay.world = n + (callsOf (p.run w s).events).length := by
  -- By induction on the routine: a call that is answered is one place further on in the script.
  induction p generalizing s n with
  | done a => exact ⟨rfl, rfl, rfl⟩
  | call c next ih =>
    cases hw : w c s with
    | none => exact absurd (by rw [run, runFrom, hw]) hends
    | some answer =>
      obtain ⟨reply, s'⟩ := answer
      rw [run_call w hw] at hends hscript ⊢
      rw [Run.events_after, callsOf_append] at hscript
      obtain ⟨hfirst, hrest⟩ := rehearses_cons.1 hscript
      have hcall : (.answering (scripted script) : World I Nat) c n = some (reply, n + 1) :=
        congrArg (fun reply => some (reply, n + 1)) hfirst
      obtain ⟨houtcome, hevents, hworld⟩ := ih reply hends hrest
      rw [run_call _ hcall]
      refine ⟨houtcome, ?_, ?_⟩
      · rw [Run.events_after, Run.events_after, hevents]
      · rw [Run.events_after, callsOf_append, List.length_append]
        refine hworld.trans ?_
        rw [← Nat.add_assoc]
        rfl
  | note m next ih =>
    rw [run_note, run_note]
    rw [calls_note] at hscript
    rw [run_note] at hends
    obtain ⟨houtcome, hevents, hworld⟩ := ih hends hscript
    refine ⟨houtcome, ?_, ?_⟩
    · rw [Run.events_after, Run.events_after, hevents]
    · rw [Run.events_after, callsOf_append]
      exact hworld
  | abort => exact ⟨rfl, rfl, rfl⟩

end Exchanges

section Handlers

variable {w : World J σ} {h : (c : I.Call) → Routine J N (I.Reply c)}

/-- A run whose calls are made by handlers, all of which return. -/
theorem run_handle (hreturns : ∀ c s, ∃ reply, ((h c).run w s).outcome = .returned reply)
    (p : Routine I N α) (s : σ) :
    ((p.handle h).run w s).outcome = (p.run (w.through h) s).outcome ∧
      ((p.handle h).run w s).world = (p.run (w.through h) s).world ∧
      callsOf ((p.handle h).run w s).events =
        (p.exchanges (w.through h) s).flatMap fun x => callsOf ((h x.call).run w x.world).events := by
  induction p generalizing s with
  | done a => exact ⟨rfl, rfl, rfl⟩
  | call c next ih =>
    obtain ⟨reply, hreply⟩ := hreturns c s
    have hcall := World.through_eq hreply
    -- The handler runs first, and the rest from the world that it leaves.
    have hrun : ((call c next).handle h).run w s =
        (((next reply).handle h).run w ((h c).run w s).world).after ((h c).run w s).past := by
      rw [handle, run_bind, Run.andThen, hreply]
    obtain ⟨houtcome, hworld, hcalls⟩ := ih reply ((h c).run w s).world
    rw [hrun, run_call _ hcall, exchanges_call _ hcall, List.flatMap_cons, ← hcalls,
      Run.events_after, callsOf_append]
    exact ⟨houtcome, hworld, rfl⟩
  | note n next ih =>
    rw [handle, calls_note, run_note, run_note]
    exact ih s
  | abort => exact ⟨rfl, rfl, rfl⟩

/-- What a routine ensures for one observer it ensures for an observer of its handlers, if every
handler keeps the two in a relation. -/
theorem Ensures.handle {see : τ → Event I N → τ} {watch : υ → Event J N → υ} {R : τ → υ → Prop}
    (hcall : ∀ c t u, R t u →
      (h c).Ensures watch (fun reply u => R (see t (.called c reply)) u) u)
    (hnote : ∀ n t u, R t u → R (see t (.noted n)) (watch u (.noted n)))
    {p : Routine I N α} {Q : α → τ → Prop} {t : τ} {u : υ} (hp : p.Ensures see Q t) (hr : R t u) :
    (p.handle h).Ensures watch (fun a u => ∃ t, Q a t ∧ R t u) u := by
  induction p generalizing t u with
  | done a => exact ⟨t, hp, hr⟩
  | call c next ih =>
    rw [Routine.handle, ensures_bind]
    exact (hcall c t u hr).mono fun reply u hu => ih reply (hp reply) hu
  | note n next ih => exact ih hp (hnote n t u hr)
  | abort => exact hp

end Handlers

end Routine

end LedSequencer
