import LedSequencer.Pad.Basic
import LedSequencer.Proofs.Pad.Register
import LedSequencer.Proofs.Routine.Calls
import LedSequencer.Proofs.Routine.Ensures
import Mathlib.Data.List.Induction
import Mathlib.Logic.Function.Basic

/-! Requests to the pads one after the other, with any faults. Main statement: a request that fails
changes nothing and one that succeeds changes its own pad only, so every pad has the settings of the
last request for it that succeeded, and its reserved bits stay for ever. -/
namespace LedSequencer

variable {F σ : Type}

abbrev AnsweredPadCall (F : Type) := (c : PadCall) × c.Reply F

abbrev PadWords := UInt8 → UInt32

def PadCall.pad : PadCall → UInt8
  | read pad | write pad _ => pad

/-- The registers after an access, if they can answer so: a read that succeeds shows what a register
holds, and a write that succeeds changes it. An access that fails changes nothing. -/
def wordsAfter? (words : PadWords) : AnsweredPadCall F → Option PadWords
  | ⟨.read pad, .ok word⟩ => if word = words pad then some words else none
  | ⟨.write pad word, .ok ()⟩ => some (Function.update words pad word)
  | _ => some words

def wordsAfterAll? (words : PadWords) (calls : List (AnsweredPadCall F)) : Option PadWords :=
  calls.foldlM wordsAfter? words

theorem wordsAfterAll?_append (words : PadWords) (a b : List (AnsweredPadCall F)) :
    wordsAfterAll? words (a ++ b) =
      (wordsAfterAll? words a).bind fun words => wordsAfterAll? words b :=
  List.foldlM_append

theorem wordsAfter?_read {words now : PadWords} {pad : UInt8} {word : UInt32} :
    wordsAfter? (F := F) words ⟨.read pad, .ok word⟩ = some now ↔ word = words pad ∧ words = now :=
  (Option.ite_none_right_eq_some ..).trans (and_congr_right fun _ => Option.some_inj)

/-- The world has a register for each pad, and in every state they hold the given words. -/
def PadBank (w : World (.pads F) σ) (words : σ → PadWords) : Prop :=
  ∀ c s reply s', c.pad < 4 → w c s = some (reply, s') →
    wordsAfter? (words s) ⟨c, reply⟩ = some (words s')

/-- Pads with the faults of a script, which counts the accesses from 0 on. The state is what the
registers hold and how many accesses there were. -/
def faultyPads (script : Nat → Option F) (c : PadCall) (s : PadWords × Nat) :
    c.Reply F × (PadWords × Nat) :=
  let (words, n) := s
  match c, script n with
  | .read _, some fault => (.error fault, words, n + 1)
  | .write _ _, some fault => (.error fault, words, n + 1)
  | .read pad, none => (.ok (words pad), words, n + 1)
  | .write pad word, none => (.ok (), Function.update words pad word, n + 1)

theorem faultyPads_bank (script : Nat → Option F) :
    PadBank (.answering (faultyPads script)) Prod.fst := by
  rintro c ⟨words, n⟩ reply s' _ h
  have hanswer : faultyPads script c (words, n) = (reply, s') := Option.some.inj h
  cases c with
  | read pad =>
    cases hfault : script n with
    | some fault =>
      simp only [faultyPads, hfault] at hanswer
      obtain ⟨rfl, rfl⟩ := Prod.mk.inj hanswer
      rfl
    | none =>
      simp only [faultyPads, hfault] at hanswer
      obtain ⟨rfl, rfl⟩ := Prod.mk.inj hanswer
      exact if_pos rfl
  | write pad word =>
    cases hfault : script n with
    | some fault =>
      simp only [faultyPads, hfault] at hanswer
      obtain ⟨rfl, rfl⟩ := Prod.mk.inj hanswer
      rfl
    | none =>
      simp only [faultyPads, hfault] at hanswer
      obtain ⟨rfl, rfl⟩ := Prod.mk.inj hanswer
      rfl

structure PadRequest where
  pad : UInt8
  settings : PadSettings
  deriving DecidableEq

namespace PadRequest

def Fits (r : PadRequest) : Prop :=
  r.pad < 4 ∧ r.settings.drive ≤ 7

inductive Ends (r : PadRequest) :
    Except (PadFailure F) PadRegister → List (AnsweredPadCall F) → Prop
  | noPad (h : 4 ≤ r.pad) : r.Ends (.error (.invalidPad r.pad)) []
  | noDrive (hpad : r.pad < 4) (h : 7 < r.settings.drive) :
    r.Ends (.error (.invalidDrive r.settings.drive)) []
  | unread (h : r.Fits) (fault : F) :
    r.Ends (.error (.access fault)) [⟨.read r.pad, .error fault⟩]
  | unwritten (h : r.Fits) (found : PadRegister) (fault : F) :
    r.Ends (.error (.access fault)) [⟨.read r.pad, .ok found.word⟩,
      ⟨.write r.pad (found.apply r.settings).word, .error fault⟩]
  | written (h : r.Fits) (found : PadRegister) :
    r.Ends (.ok (found.apply r.settings)) [⟨.read r.pad, .ok found.word⟩,
      ⟨.write r.pad (found.apply r.settings).word, .ok ()⟩]

/-- What a request changes: nothing if it fails, and its own pad only if it succeeds. -/
def Changes (r : PadRequest) (words : PadWords) :
    Except (PadFailure F) PadRegister → PadWords → Prop
  | .ok control, now => control = PadRegister.apply ⟨words r.pad⟩ r.settings ∧
      now = Function.update words r.pad control.word
  | .error _, now => now = words

theorem configure_ends (r : PadRequest) :
    (Pad.configure (F := F) r.pad r.settings).run.Ensures (fun events e => events ++ [e])
      (fun result events => r.Ends result (callsOf events)) [] := by
  rw [Pad.configure]
  split
  · rename_i hpad
    exact .noPad hpad
  · rename_i hpad
    have hpad : r.pad < 4 := UInt8.not_le.1 hpad
    split
    · rename_i hdrive
      exact .noDrive hpad hdrive
    · rename_i hdrive
      have hfits : r.Fits := ⟨hpad, UInt8.not_lt.1 hdrive⟩
      rintro (fault | word)
      · exact .unread hfits fault
      · rintro (fault | ⟨⟩)
        · exact .unwritten hfits ⟨word⟩ fault
        · exact .written hfits ⟨word⟩

variable {r : PadRequest} {result : Except (PadFailure F) PadRegister}
  {calls before : List (AnsweredPadCall F)} {words now : PadWords}

/-- All accesses are to pads that there are. -/
theorem Ends.calls_pad (h : r.Ends result calls) : ∀ c ∈ calls, c.1.pad < 4 := by
  cases h with
  | noPad _ | noDrive _ _ => exact nofun
  | unread h fault => exact List.forall_mem_singleton.2 h.1
  | unwritten h found fault | written h found =>
    exact List.forall_mem_cons.2 ⟨h.1, List.forall_mem_singleton.2 h.1⟩

theorem Ends.changes (h : r.Ends result calls) (hnow : wordsAfterAll? words calls = some now) :
    r.Changes words result now := by
  cases h with
  | noPad _ | noDrive _ _ | unread _ _ => exact (Option.some.inj hnow).symm
  | unwritten _ found fault =>
    obtain ⟨_, hread, hnow⟩ := Option.bind_eq_some_iff.1 hnow
    obtain ⟨_, rfl⟩ := wordsAfter?_read.1 hread
    exact (Option.some.inj hnow).symm
  | written _ found =>
    obtain ⟨_, hread, hnow⟩ := Option.bind_eq_some_iff.1 hnow
    obtain ⟨hfound, rfl⟩ := wordsAfter?_read.1 hread
    exact ⟨by rw [← hfound], (Option.some.inj hnow).symm⟩

theorem Ends.drive_le {control : PadRegister}
    (h : r.Ends (F := F) (.ok control) calls) : r.settings.drive ≤ 7 := by
  cases h with
  | written h found => exact h.2

/-- Only the last access of a request may change anything, and there is at most one before it. -/
theorem Ends.waits (h : r.Ends result calls) (hnow : wordsAfterAll? words calls = some now)
    (hbefore : before <+: calls) :
    before = calls ∨ before.length ≤ 1 ∧ wordsAfterAll? words before = some words := by
  cases h with
  | noPad _ | noDrive _ _ => exact .inl (List.prefix_nil.1 hbefore)
  | unread _ fault =>
    rcases List.prefix_cons_iff.1 hbefore with rfl | ⟨more, rfl, hmore⟩
    · exact .inr ⟨Nat.zero_le 1, rfl⟩
    · obtain rfl := List.prefix_nil.1 hmore
      exact .inl rfl
  | unwritten _ found fault | written _ found =>
    rcases List.prefix_cons_iff.1 hbefore with rfl | ⟨more, rfl, hmore⟩
    · exact .inr ⟨Nat.zero_le 1, rfl⟩
    rcases List.prefix_cons_iff.1 hmore with rfl | ⟨_, rfl, hnone⟩
    · obtain ⟨_, hread, _⟩ := Option.bind_eq_some_iff.1 hnow
      obtain ⟨_, rfl⟩ := wordsAfter?_read.1 hread
      exact .inr ⟨Nat.le_refl 1, by rw [wordsAfterAll?, List.foldlM_cons, hread]; rfl⟩
    · obtain rfl := List.prefix_nil.1 hnone
      exact .inl rfl

end PadRequest

section Session

variable (answer : (c : PadCall) → σ → c.Reply F × σ)

structure PadTurn (σ : Type) where
  request : PadRequest
  world : σ

namespace PadTurn

variable (t : PadTurn σ)

def run : Run (.pads F) PadNotice σ (Except (PadFailure F) PadRegister) :=
  (Pad.configure t.request.pad t.request.settings).run.run (.answering answer) t.world

def calls : List (AnsweredPadCall F) := callsOf (t.run answer).events

def succeeds : Bool :=
  match (t.run answer).outcome with
  | .returned (.ok _) => true
  | _ => false

/-- The registers after a turn are those that its accesses leave. -/
theorem words_run {words : σ → PadWords} (h : PadBank (.answering answer) words) :
    wordsAfterAll? (words t.world) (t.calls answer) = some (words (t.run answer).world) := by
  obtain ⟨result, hresult⟩ := t.request.configure_ends.returns answer t.world
  exact Routine.run_view _ h _ _ (t.request.configure_ends.recorded _ hresult).calls_pad

/-- How a turn ends, and what it changes. -/
theorem ends {words : σ → PadWords} (h : PadBank (.answering answer) words) : ∃ result,
    (t.run answer).outcome = .returned result ∧ t.request.Ends result (t.calls answer) ∧
      t.request.Changes (words t.world) result (words (t.run answer).world) := by
  obtain ⟨result, hresult⟩ := t.request.configure_ends.returns answer t.world
  have hends := t.request.configure_ends.recorded _ hresult
  exact ⟨result, hresult, hends, hends.changes (t.words_run answer h)⟩

end PadTurn

namespace Pad

def after (requests : List PadRequest) (s : σ) : σ :=
  requests.foldl (fun s r => (PadTurn.run answer ⟨r, s⟩).world) s

def session : List PadRequest → σ → List (PadTurn σ)
  | [], _ => []
  | r :: requests, s => ⟨r, s⟩ :: session requests (PadTurn.run answer ⟨r, s⟩).world

def lastMade (turns : List (PadTurn σ)) (pad : UInt8) : Option PadSettings :=
  (turns.reverse.find? fun t => t.request.pad = pad ∧ t.succeeds answer).map fun t =>
    t.request.settings

variable (requests : List PadRequest) (r : PadRequest) (s : σ)

theorem after_snoc :
    after answer (requests ++ [r]) s = (PadTurn.run answer ⟨r, after answer requests s⟩).world := by
  rw [after, List.foldl_append]
  rfl

theorem session_snoc : session answer (requests ++ [r]) s =
    session answer requests s ++ [⟨r, after answer requests s⟩] := by
  induction requests generalizing s with
  | nil => rfl
  | cons first requests ih => exact congrArg (List.cons _) (ih _)

theorem session_requests : (session answer requests s).map PadTurn.request = requests := by
  induction requests generalizing s with
  | nil => rfl
  | cons r requests ih => exact congrArg (List.cons r) (ih _)

theorem lastMade_snoc (turns : List (PadTurn σ)) (t : PadTurn σ) (pad : UInt8) :
    lastMade answer (turns ++ [t]) pad =
      if t.request.pad = pad ∧ t.succeeds answer then some t.request.settings
      else lastMade answer turns pad := by
  rw [lastMade, List.reverse_append, List.reverse_singleton, List.singleton_append, List.find?_cons]
  by_cases hlast : t.request.pad = pad ∧ t.succeeds answer
  · rw [if_pos hlast, decide_eq_true hlast]
    rfl
  · rw [if_neg hlast, decide_eq_false hlast]
    rfl

/-- What the register of a pad holds, given what it held at first and the settings that were made
last. -/
def Holds (control initial : PadRegister) (made : Option PadSettings) : Prop :=
  control.reserved = initial.reserved ∧
    match made with
    | none => control = initial
    | some settings => control.top = 0x5A ∧ control.drive = settings.drive ∧
        control.hysteresis = settings.hysteresis ∧ control.slew = settings.slew

theorem Holds.apply {control initial : PadRegister} {made : Option PadSettings}
    (h : Holds control initial made) {settings : PadSettings} (hdrive : settings.drive ≤ 7) :
    Holds (control.apply settings) initial (some settings) := by
  refine ⟨(control.reserved_apply settings).trans h.1, control.top_apply settings, ?_,
    control.hysteresis_apply settings, control.slew_apply settings⟩
  rw [control.drive_apply settings, ← UInt8.toNat_inj, UInt8.toNat_mod]
  exact Nat.mod_eq_of_lt (Nat.lt_succ_of_le (UInt8.le_iff_toNat_le.1 hdrive))

/-- A turn makes the settings of its own pad if it succeeds. -/
theorem Holds.turn {words : σ → PadWords} (h : PadBank (.answering answer) words) {t : PadTurn σ}
    {pad : UInt8} {initial : PadRegister} {made : Option PadSettings}
    (hholds : Holds ⟨words t.world pad⟩ initial made) :
    Holds ⟨words (t.run answer).world pad⟩ initial
      (if t.request.pad = pad ∧ t.succeeds answer then some t.request.settings else made) := by
  obtain ⟨result, hresult, hends, hchanges⟩ := t.ends answer h
  cases result with
  | error e =>
    have hfails : t.succeeds answer = false := by rw [PadTurn.succeeds, hresult]
    have hsame : words (t.run answer).world = words t.world := hchanges
    rw [hsame, if_neg fun hmade => Bool.false_ne_true (hfails.symm.trans hmade.2)]
    exact hholds
  | ok control =>
    have hsucceeds : t.succeeds answer = true := by rw [PadTurn.succeeds, hresult]
    obtain ⟨rfl, hwords⟩ := hchanges
    rw [hwords]
    by_cases hpad : t.request.pad = pad
    · subst hpad
      rw [if_pos ⟨rfl, hsucceeds⟩, Function.update_self]
      exact hholds.apply hends.drive_le
    · rw [if_neg fun hmade => hpad hmade.1, Function.update_of_ne (Ne.symm hpad)]
      exact hholds

/-- After any requests a pad has the settings that were made last. -/
theorem holds_after {words : σ → PadWords} (h : PadBank (.answering answer) words) (pad : UInt8) :
    Holds ⟨words (after answer requests s) pad⟩ ⟨words s pad⟩
      (lastMade answer (session answer requests s) pad) := by
  -- The last request is the one that decides, so the induction is from the end.
  induction requests using List.reverseRecOn with
  | nil => exact ⟨rfl, rfl⟩
  | append_singleton requests r ih =>
    rw [after_snoc, session_snoc, lastMade_snoc]
    exact Holds.turn answer h ih

def accesses (turns : List (PadTurn σ)) : List (AnsweredPadCall F) :=
  turns.flatMap (PadTurn.calls answer)

/-- Between two accesses the registers are as some whole requests leave them, and at most one more
access was made since. -/
theorem words_between {words : σ → PadWords} (h : PadBank (.answering answer) words)
    {before : List (AnsweredPadCall F)}
    (hbefore : before <+: accesses answer (session answer requests s)) :
    ∃ made more, made <+: requests ∧ before = accesses answer (session answer made s) ++ more ∧
      more.length ≤ 1 ∧ wordsAfterAll? (words s) before = some (words (after answer made s)) := by
  induction requests generalizing s before with
  | nil => exact ⟨[], [], List.nil_prefix, List.prefix_nil.1 hbefore, Nat.zero_le 1, by
      rw [List.prefix_nil.1 hbefore]; rfl⟩
  | cons r requests ih =>
    let t : PadTurn σ := ⟨r, s⟩
    obtain ⟨result, _, hends, _⟩ := t.ends answer h
    have hwords := t.words_run answer h
    -- The point lies within the first request, or behind it.
    obtain ⟨rest, hrest⟩ := hbefore
    rcases List.append_eq_append_iff.1 hrest with ⟨later, hfirst, _⟩ | ⟨later, rfl, hlater⟩
    · rcases hends.waits hwords ⟨later, hfirst.symm⟩ with rfl | ⟨hlength, hsame⟩
      · exact ⟨[r], [], List.prefix_append [r] requests, by simp [session, accesses, t],
          Nat.zero_le 1, hwords⟩
      · exact ⟨[], before, List.nil_prefix, rfl, hlength, hsame⟩
    · obtain ⟨made, more, ⟨others, rfl⟩, rfl, hlength, hmade⟩ := ih _ ⟨rest, hlater.symm⟩
      refine ⟨r :: made, more, List.prefix_append (r :: made) others, ?_, hlength, ?_⟩
      · exact (List.append_assoc _ _ _).symm
      · rw [wordsAfterAll?_append, hwords]
        exact hmade

/-- Over any session each request ends as its arguments and the replies say, one that fails changes
nothing and one that succeeds changes its own pad only. At every point, also between two accesses of
a request, each pad has its reserved bits from the start, and the settings that were made last. -/
theorem session_made {words : σ → PadWords} (bank : PadBank (.answering answer) words) :
    let turns := session answer requests s
    let Settled (made : List PadRequest) (now : PadWords) := ∀ pad,
      Holds ⟨now pad⟩ ⟨words s pad⟩ (lastMade answer (session answer made s) pad)
    turns.map PadTurn.request = requests ∧
      (∀ t ∈ turns, ∃ result, (t.run answer).outcome = .returned result ∧
        t.request.Ends result (t.calls answer) ∧
        t.request.Changes (words t.world) result (words (t.run answer).world)) ∧
      (∀ made, made <+: requests → Settled made (words (after answer made s))) ∧
      ∀ before, before <+: accesses answer turns → ∃ made more now, made <+: requests ∧
        before = accesses answer (session answer made s) ++ more ∧ more.length ≤ 1 ∧
          wordsAfterAll? (words s) before = some now ∧ Settled made now := by
  intro turns Settled
  have hsettled (made : List PadRequest) : Settled made (words (after answer made s)) :=
    fun pad => holds_after answer made s bank pad
  refine ⟨session_requests answer requests s, fun t _ => t.ends answer bank,
    fun made _ => hsettled made, ?_⟩
  intro before hbefore
  obtain ⟨made, more, hmade, hsplit, hlength, hwords⟩ :=
    words_between answer requests s bank hbefore
  exact ⟨made, more, _, hmade, hsplit, hlength, hwords, hsettled made⟩

/-- The first request succeeds. The second one fails where it writes, the fourth access of all, and
the others ask for a pad and for a drive strength that there is not. -/
theorem session_made_broken :
    let answer := faultyPads fun n => if n = 3 then some () else none
    let requests : List PadRequest := [⟨1, ⟨true, false, 5⟩⟩, ⟨1, ⟨false, true, 7⟩⟩,
      ⟨4, ⟨true, true, 0⟩⟩, ⟨2, ⟨true, true, 8⟩⟩]
    let s : PadWords × Nat := (fun _ => 0xFFFFFFFF, 0)
    let now := (after answer requests s).1
    PadBank (.answering answer) Prod.fst ∧
      Holds ⟨now 1⟩ ⟨0xFFFFFFFF⟩ (some ⟨true, false, 5⟩) ∧ now 1 = 0x5AFFFFF5 ∧
        Holds ⟨now 2⟩ ⟨0xFFFFFFFF⟩ none := by
  intro answer requests s now
  have bank : PadBank (.answering answer) Prod.fst := faultyPads_bank _
  obtain ⟨_, _, hsettled, _⟩ := session_made answer requests s bank
  have hfirst : lastMade answer (session answer requests s) 1 = some ⟨true, false, 5⟩ := by
    decide +kernel
  have hsecond : lastMade answer (session answer requests s) 2 = none := by decide +kernel
  have hholds := hsettled requests List.prefix_rfl
  exact ⟨bank, hfirst ▸ hholds 1, by decide +kernel, hsecond ▸ hholds 2⟩

end Pad

end Session

end LedSequencer
