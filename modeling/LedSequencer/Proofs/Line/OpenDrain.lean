import LedSequencer.Line.OpenDrain
import LedSequencer.Line.Waveform
import LedSequencer.Notice
import LedSequencer.Proofs.Line.Holding
import LedSequencer.Proofs.Routine.Handle
import Mathlib.Data.List.Induction

/-! The levels of a pair of pins against those of the lines that it serves as. Main statement: a
sample drives the pin that it looks at, but where that pin was let go before this changes nothing, and
the levels of the pins change as those of the lines do. -/
namespace LedSequencer

namespace Levels

def afterDrives (levels : Levels) (drives : List (Bool × Bool)) : Levels :=
  drives.foldl (fun levels drive => levels.drive drive.1 drive.2) levels

def changes : Levels → List (Bool × Bool) → List (Bool × Bool)
  | _, [] => []
  | levels, drive :: drives =>
    let next := levels.drive drive.1 drive.2
    if next = levels then next.changes drives else drive :: next.changes drives

theorem afterDrives_append (levels : Levels) (a b : List (Bool × Bool)) :
    levels.afterDrives (a ++ b) = (levels.afterDrives a).afterDrives b :=
  List.foldl_append

theorem changes_append (levels : Levels) (a b : List (Bool × Bool)) :
    levels.changes (a ++ b) = levels.changes a ++ (levels.afterDrives a).changes b := by
  induction a generalizing levels with
  | nil => rfl
  | cons drive a ih =>
    rw [List.cons_append, changes, changes, ih]
    split
    · rfl
    · rfl

/-- The drives that change a level lead to the same levels as all of them. -/
theorem afterDrives_changes (levels : Levels) (drives : List (Bool × Bool)) :
    levels.afterDrives (levels.changes drives) = levels.afterDrives drives := by
  induction drives generalizing levels with
  | nil => rfl
  | cons drive drives ih =>
    rw [changes]
    split
    · rename_i hstill
      rw [hstill, ih, afterDrives, afterDrives, List.foldl_cons, hstill]
    · exact ih _

theorem afterDrives_congr {levels : Levels} {a b : List (Bool × Bool)}
    (h : levels.changes a = levels.changes b) : levels.afterDrives a = levels.afterDrives b := by
  rw [← afterDrives_changes levels a, h, afterDrives_changes]

/-- Drives to where the lines are anyway change nothing. -/
theorem changes_of_still {levels : Levels} {drives : List (Bool × Bool)}
    (h : ∀ drive ∈ drives, levels.drive drive.1 drive.2 = levels) : levels.changes drives = [] := by
  induction drives with
  | nil => rfl
  | cons drive drives ih =>
    obtain ⟨hfirst, hrest⟩ := List.forall_mem_cons.1 h
    rw [changes, hfirst, if_pos rfl]
    exact ih hrest

/-- Letting go of a data line that is high has no effect, and a receiver sees no edge. -/
theorem drive_data_high {levels : Levels} (h : levels.data = true) :
    levels.drive false true = levels ∧ levels.edge? false true = none := by
  obtain ⟨clock, data⟩ := levels
  obtain rfl : data = true := h
  cases clock <;> exact ⟨rfl, rfl⟩

end Levels

section Lines

variable {L F : Type} [DecidableEq L]

def lineDriven? (clock : L) (c : AnsweredCall L F) : Option (Bool × Bool) :=
  (.called c.1 c.2 : Event (.lines L F) Empty).driven? clock

def lineDrives (clock : L) (calls : List (AnsweredCall L F)) : List (Bool × Bool) :=
  calls.filterMap (lineDriven? clock)

theorem lineDrives_append (clock : L) (a b : List (AnsweredCall L F)) :
    lineDrives clock (a ++ b) = lineDrives clock a ++ lineDrives clock b :=
  List.filterMap_append

/-- Every sample is one of the line `data`, and behind a drive of that line to high that none to low
has followed: wherever the levels started, the line is high. -/
def SampledHigh (clock data : L) (calls : List (AnsweredCall L F)) : Prop :=
  ∀ before line reply after, calls = before ++ ⟨.sample line, reply⟩ :: after →
    line = data ∧ ∀ levels : Levels, (levels.afterDrives (lineDrives clock before)).data = true

theorem SampledHigh.of_append {clock data : L} {a b : List (AnsweredCall L F)}
    (h : SampledHigh clock data (a ++ b)) : SampledHigh clock data a := by
  intro before line reply after hsplit
  apply h before line reply (after ++ b)
  rw [hsplit, List.append_assoc, List.cons_append]

end Lines

abbrev AnsweredPinCall (P F : Type) := (c : PinCall P) × c.Reply F

namespace PinPair
open Routine

variable {P F N σ : Type}

theorem pin_injective {pair : PinPair P} (hpins : pair.clock ≠ pair.data) :
    Function.Injective pair.pin := by
  rintro (_ | _) (_ | _) h
  · rfl
  · exact absurd h hpins
  · exact absurd h.symm hpins
  · rfl

/-- Whatever the pins answer, so does every line call on them. -/
theorem answer_returns (pair : PinPair P) (answer : (c : PinCall P) → σ → c.Reply F × σ)
    (c : (Interface.lines Signal F).Call) (s : σ) :
    ∃ reply, ((pair.answer c : Routine (.pins P F) N _).run (.answering answer) s).outcome =
      .returned reply := by
  have hanswer : (pair.answer c : Routine (.pins P F) N _).Ensures (fun _ _ => ())
      (fun _ _ => True) () := by
    cases c with
    | request line | release line => trivial
    | drive line high | settle us | wait ms => exact fun _ => trivial
    | sample line =>
      rintro (_ | _)
      · trivial
      · exact fun _ => trivial
  exact hanswer.returns answer s

/-- What a sample of a pin shows is a bit. -/
theorem sample_level (pair : PinPair P) {answer : (c : PinCall P) → σ → c.Reply F × σ}
    {line : Signal} {s : σ} {level : UInt8}
    (h : ((pair.sample line : Routine (.pins P F) N _).run (.answering answer) s).outcome =
      .returned (.ok level)) : level ≤ 1 := by
  have hbit : (pair.sample line : Routine (.pins P F) N _).Ensures (fun _ _ => ())
      (fun reply _ => ∀ level, reply = .ok level → level ≤ 1) () := by
    rintro (fault | _)
    · exact nofun
    · rintro (fault | high) level ⟨⟩
      cases high <;> decide
  exact hbit.returned _ h level rfl

variable [DecidableEq P] (pair : PinPair P)

def driven? (clockLine : Signal) : AnsweredPinCall P F → Option (Bool × Bool)
  -- Every pin but that of the clock counts as the data pin.
  | ⟨.set pin high, .ok ()⟩ => some (decide (pin = pair.pin clockLine), high)
  | _ => none

def drives (clockLine : Signal) (calls : List (AnsweredPinCall P F)) : List (Bool × Bool) :=
  calls.filterMap (pair.driven? clockLine)

theorem drives_append (clockLine : Signal) (a b : List (AnsweredPinCall P F)) :
    pair.drives clockLine (a ++ b) = pair.drives clockLine a ++ pair.drives clockLine b :=
  List.filterMap_append

section Answers

variable {pair} (hpins : pair.clock ≠ pair.data) (clockLine : Signal)
include hpins

/-- Any line call but a sample drives the pins as it drives the lines. -/
theorem answer_drives {c : LineCall Signal} (hc : ∀ line, c ≠ .sample line) :
    (pair.answer c : Routine (.pins P F) N _).Ensures (fun events e => events ++ [e])
      (fun reply events => pair.drives clockLine (callsOf events) =
        lineDrives (F := F) clockLine [⟨c, reply⟩]) [] := by
  cases c with
  | request line | release line => rfl
  | settle us | wait ms => exact fun _ => rfl
  | sample line => exact absurd rfl (hc line)
  | drive line high =>
    rintro (fault | _)
    · rfl
    · have hline : decide (pair.pin line = pair.pin clockLine) = decide (line = clockLine) :=
        decide_eq_decide.2 (pin_injective hpins).eq_iff
      show [(decide (pair.pin line = pair.pin clockLine), high)] =
        [(decide (line = clockLine), high)]
      rw [hline]

/-- A sample of the data line lets go of its pin, and drives nothing else. -/
theorem sample_drives {line : Signal} (hline : line ≠ clockLine) :
    (pair.answer (.sample line) : Routine (.pins P F) N _).Ensures (fun events e => events ++ [e])
      (fun _ events => ∀ drive ∈ pair.drives clockLine (callsOf events), drive = (false, true))
      [] := by
  have hpin : decide (pair.pin line = pair.pin clockLine) = false :=
    decide_eq_false fun h => hline (pin_injective hpins h)
  have hset : ∀ drive ∈ [(decide (pair.pin line = pair.pin clockLine), true)],
      drive = (false, true) := by
    rw [hpin]
    exact fun drive hdrive => List.mem_singleton.1 hdrive
  -- The pin is driven before it is read, and a fault there drives nothing.
  rintro (fault | _)
  · exact nofun
  · exact fun _ => hset

end Answers

section Exchanges

variable (answer : (c : PinCall P) → σ → c.Reply F × σ)

def callsFor (x : Exchange (.lines Signal F) σ) : List (AnsweredPinCall P F) :=
  callsOf ((pair.answer x.call : Routine (.pins P F) (Notice F) _).run (.answering answer)
    x.world).events

variable {pair} (hpins : pair.clock ≠ pair.data)
variable {clockLine dataLine : Signal} (hlines : clockLine ≠ dataLine)
include hpins hlines

/-- Whoever samples a data line that is high drives nothing but that, and no level changes. -/
theorem sample_still {levels : Levels} (hhigh : levels.data = true)
    {x : Exchange (.lines Signal F) σ} (hcall : x.call = .sample dataLine) :
    ∀ drive ∈ pair.drives clockLine (pair.callsFor answer x),
      levels.drive drive.1 drive.2 = levels ∧ levels.edge? drive.1 drive.2 = none := by
  obtain ⟨reply, hreply⟩ := pair.answer_returns (N := Notice F) answer x.call x.world
  have hdrives := sample_drives (F := F) (N := Notice F) hpins clockLine (Ne.symm hlines)
  rw [← hcall] at hdrives
  intro drive hdrive
  obtain rfl := hdrives.recorded _ hreply drive hdrive
  exact Levels.drive_data_high hhigh

/-- One line call: the levels of the pins change as those of the lines do, if a data line is high
when it is sampled. -/
theorem callsFor_changes {levels : Levels} {x : Exchange (.lines Signal F) σ} {s' : σ}
    (hx : (World.answering answer).through (pair.answer (N := Notice F)) x.call x.world =
      some (x.reply, s'))
    (hsampled : ∀ line, x.call = .sample line → line = dataLine ∧ levels.data = true) :
    levels.changes (pair.drives clockLine (pair.callsFor answer x)) =
      levels.changes (lineDrives clockLine [x.answered]) := by
  by_cases hcall : ∃ line, x.call = .sample line
  · obtain ⟨line, hcall⟩ := hcall
    obtain ⟨rfl, hhigh⟩ := hsampled line hcall
    have hstill := Levels.changes_of_still fun drive hdrive =>
      (sample_still answer hpins hlines hhigh hcall drive hdrive).1
    obtain ⟨c, s, reply⟩ := x
    obtain rfl : c = .sample line := hcall
    exact hstill
  · -- Any other call is one on the pin of its line.
    have hdrives := answer_drives (F := F) (N := Notice F) hpins clockLine
      fun line h => hcall ⟨line, h⟩
    have heq := hdrives.recorded _ (World.returned_of_through hx)
    rw [callsFor, heq]
    rfl

/-- The same for line calls in a row. -/
theorem flatMap_changes {xs : List (Exchange (.lines Signal F) σ)}
    (hxs : ∀ x ∈ xs, ∃ s', (World.answering answer).through (pair.answer (N := Notice F)) x.call
      x.world = some (x.reply, s'))
    (hsampled : SampledHigh clockLine dataLine (xs.map Exchange.answered)) (levels : Levels) :
    levels.changes (pair.drives clockLine (xs.flatMap (pair.callsFor answer))) =
      levels.changes (lineDrives clockLine (xs.map Exchange.answered)) := by
  -- By induction from behind: what is known of a sample is known of the calls before it.
  induction xs using List.reverseRecOn with
  | nil => rfl
  | append_singleton xs x ih =>
    obtain ⟨hearlier, hlast⟩ := List.forall_mem_append.1 hxs
    rw [List.map_append] at hsampled
    have hchanges := ih hearlier hsampled.of_append
    obtain ⟨s', hx⟩ := List.forall_mem_singleton.1 hlast
    have hhere (line : Signal) (hcall : x.call = .sample line) : line = dataLine ∧
        (levels.afterDrives (lineDrives clockLine (xs.map Exchange.answered))).data = true := by
      obtain ⟨c, s, reply⟩ := x
      obtain rfl : c = .sample line := hcall
      obtain ⟨hline, hhigh⟩ := hsampled _ line reply [] rfl
      exact ⟨hline, hhigh levels⟩
    rw [List.flatMap_append, List.flatMap_singleton, List.map_append, drives_append,
      lineDrives_append, Levels.changes_append, Levels.changes_append, hchanges,
      Levels.afterDrives_congr hchanges]
    exact congrArg _ (callsFor_changes answer hpins hlines hx hhere)

end Exchanges

end PinPair

/-- Pins that read low. The pin call with the number `broken` fails. -/
def brokenPins {P : Type} (broken : Nat) : (c : PinCall P) → Nat → PinCall.Reply Unit c × Nat
  | .set _ _, n => (if n = broken then .error () else .ok (), n + 1)
  | .isHigh _, n => (if n = broken then .error () else .ok false, n + 1)
  | .settle _, n | .wait _, n => ((), n)

end LedSequencer
