import LedSequencer.Proofs.Bus.Session
import LedSequencer.Proofs.Bus.Transfers
import LedSequencer.Proofs.Bus.Verdict
import LedSequencer.Proofs.Line.OpenDrain
import LedSequencer.Proofs.Routine.Returns

/-! Samples on a bus. Main statement: a bus samples its data line only where it has let go of it, so
on a pair of pins, where a sample drives the pin that it looks at, levels and results are those of
lines that a sample leaves alone. -/
namespace LedSequencer
open Routine

variable {L F σ α : Type}

def LineCall.LeavesHigh (clock data : L) : LineCall L → Prop
  | .sample line => line = data
  | .drive line high => line = clock ∨ high = true
  | .request _ | .release _ | .settle _ | .wait _ => True

def LineCall.NoSample (c : LineCall L) : Prop := ∀ line, c ≠ .sample line

section Sampled

variable [DecidableEq L] {clock data : L} {calls : List (AnsweredCall L F)}

theorem data_afterDrives (h : ∀ c ∈ calls, c.1.LeavesHigh clock data) {levels : Levels}
    (hhigh : levels.data = true) :
    (levels.afterDrives (lineDrives clock calls)).data = true := by
  induction calls generalizing levels with
  | nil => exact hhigh
  | cons c calls ih =>
    obtain ⟨hfirst, hrest⟩ := List.forall_mem_cons.1 h
    obtain ⟨c, reply⟩ := c
    cases c with
    | request line | release line | settle us | wait ms | sample line => exact ih hrest hhigh
    | drive line high =>
      rcases reply with fault | _
      · exact ih hrest hhigh
      · apply ih hrest
        by_cases hline : line = clock
        · rw [decide_eq_true hline]
          exact hhigh
        · rw [decide_eq_false hline]
          exact hfirst.resolve_left hline

theorem sampledHigh_of_no_sample (h : ∀ c ∈ calls, c.1.NoSample) :
    SampledHigh clock data calls := by
  rintro before line reply after rfl
  exact absurd rfl (h _ (List.mem_append_right before List.mem_cons_self) line)

/-- The data line may be sampled once it was driven to high, as long as it is left so. -/
theorem sampledHigh_of_leavesHigh (distinct : clock ≠ data)
    (h : ∀ c ∈ calls, c.1.LeavesHigh clock data) :
    SampledHigh clock data (⟨.drive data true, .ok ()⟩ :: calls) := by
  intro before line reply after hsplit
  cases before with
  | nil => exact absurd (List.cons.inj hsplit).1 nofun
  | cons c before =>
    obtain ⟨rfl, rfl⟩ := List.cons.inj hsplit
    obtain ⟨hbefore, hafter⟩ := List.forall_mem_append.1 h
    refine ⟨(List.forall_mem_cons.1 hafter).1, fun levels => ?_⟩
    apply data_afterDrives hbefore
    rw [decide_eq_false distinct.symm]
    rfl

theorem SampledHigh.append {a b : List (AnsweredCall L F)} (ha : SampledHigh clock data a)
    (hb : SampledHigh clock data b) : SampledHigh clock data (a ++ b) := by
  intro before line reply after hsplit
  -- The sample falls into the second part, or into the first.
  rcases List.append_eq_append_iff.1 hsplit with ⟨mid, rfl, hmid⟩ | ⟨mid, hmid, hlater⟩
  · obtain ⟨hline, hhigh⟩ := hb mid line reply after hmid
    refine ⟨hline, fun levels => ?_⟩
    rw [lineDrives_append, Levels.afterDrives_append]
    exact hhigh _
  · cases mid with
    | nil =>
      obtain ⟨hline, hhigh⟩ := hb [] line reply after hlater.symm
      exact ⟨hline, fun levels => hhigh _⟩
    | cons c mid =>
      obtain ⟨rfl, _⟩ := List.cons.inj hlater
      exact ha before line reply mid hmid

end Sampled

namespace Bus

variable [DecidableEq L] (bus : Bus L)

def SamplesHigh (events : List (Event (.lines L F) (Notice F))) : Prop :=
  SampledHigh bus.clock bus.data (callsOf events)

theorem samplesHigh_joins : Joins (bus.SamplesHigh (F := F)) := by
  refine ⟨sampledHigh_of_no_sample nofun, fun {a b} ha hb => ?_⟩
  rw [SamplesHigh, callsOf_append]
  exact ha.append hb

theorem stepwise_samplesHigh : bus.Stepwise (F := F) fun act => act.run.Adds bus.SamplesHigh := by
  have hquiet {act : Action L F Unit} (h : act.run.Makes LineCall.NoSample) :
      act.run.Adds bus.SamplesHigh := h.adds.mono fun events => sampledHigh_of_no_sample
  have hsettle : (bus.settle : Action L F Unit).run.Makes LineCall.NoSample :=
    bus.makes_settle nofun
  refine bus.stepwise_adds bus.samplesHigh_joins (fun _ => sampledHigh_of_no_sample nofun)
    (hquiet hsettle) (fun high => hquiet ?_) (fun high => hquiet ?_)
  · exact (bus.makes_setClock nofun).andThen fun _ => hsettle
  · exact (bus.makes_setData nofun).andThen fun _ => hsettle

/-- What follows may sample the data line, if it leaves it high. -/
theorem setData_true_samplesHigh (distinct : bus.clock ≠ bus.data) {rest : Action L F α}
    (h : rest.run.Makes (LineCall.LeavesHigh bus.clock bus.data)) :
    (do bus.setData true; rest).run.Adds bus.SamplesHigh := by
  intro past
  rw [ensures_run_bind, ensures_setData]
  constructor
  · intro fault
    refine ⟨_, rfl, sampledHigh_of_no_sample ?_⟩
    exact List.forall_mem_singleton.2 nofun
  · refine (h.adds _).mono ?_
    rintro a _ ⟨more, rfl, hmore⟩
    exact ⟨_, List.append_assoc _ _ _, sampledHigh_of_leavesHigh distinct hmore⟩

theorem closed_samplesHigh (distinct : bus.clock ≠ bus.data) :
    bus.Closed (F := F) fun act => act.run.Adds bus.SamplesHigh where
  toStepwise := bus.stepwise_samplesHigh
  acknowledge := by
    simp only [letGo, bind_assoc, pure_bind]
    apply bus.stepwise_samplesHigh.setClock_then false
    -- From here on the data line is let go: what follows drives nothing but the clock.
    apply bus.setData_true_samplesHigh distinct
    have hclock (high : Bool) : LineCall.LeavesHigh bus.clock bus.data (.drive bus.clock high) :=
      .inl rfl
    have hsample : LineCall.LeavesHigh bus.clock bus.data (.sample bus.data) := rfl
    exact (bus.makes_settle trivial).andThen fun _ => (bus.makes_sampleData hsample).andThen fun _ =>
      (bus.makes_receiveBit hclock hsample trivial).andThen fun _ => trivial

theorem perform_samplesHigh (distinct : bus.clock ≠ bus.data) (c : BusCall) :
    (bus.perform c : Routine (.lines L F) (Notice F) _).Adds bus.SamplesHigh := by
  have hclosed := bus.closed_samplesHigh (F := F) distinct
  cases c with
  | write address register value => exact hclosed.transact address register value
  | writeBlock address start data => exact hclosed.writeBlock address start data

end Bus

section Levels

def Failure.Plain (failure : Failure F) : Prop := ∀ level, failure ≠ .invalidLevel level

/-- An event that is no sample of anything but a bit. -/
def Event.ShowsBit : Event (.lines L F) (Notice F) → Prop
  | .called (.sample _) (.ok level) => level ≤ 1
  | _ => True

namespace Watch

structure Plain (watch : Watch F) : Prop where
  due : ∀ failure ∈ watch.due, failure.Plain
  missed : ∀ failure ∈ watch.missed, failure.Plain
  failures : ∀ failure ∈ watch.failures, failure.Plain

theorem plain_clear {due : List (Failure F)} (h : ∀ failure ∈ due, failure.Plain) :
    (clear due).Plain :=
  ⟨h, fun _ hmem => absurd hmem (Option.not_mem_none _), fun _ hmem => absurd hmem List.not_mem_nil⟩

theorem Plain.fail {watch : Watch F} (h : watch.Plain) {fresh : List (Failure F)}
    (hfresh : ∀ failure ∈ fresh, failure.Plain) : (watch.fail fresh).Plain :=
  ⟨h.due, h.missed, List.forall_mem_append.2 ⟨h.failures, hfresh⟩⟩

theorem Plain.drive {watch : Watch F} (h : watch.Plain) {fresh : List (Failure F)}
    (hfresh : ∀ failure ∈ fresh, failure.Plain) : (watch.drive fresh).Plain := by
  have hmissed : ∀ failure ∈ watch.missed.toList, failure.Plain := fun failure hmem =>
    h.missed failure (Option.mem_toList.1 hmem)
  have hfail := h.fail (List.forall_mem_append.2 ⟨hfresh, hmissed⟩)
  exact ⟨hfail.due, nofun, hfail.failures⟩

theorem Plain.acknowledge {watch : Watch F} (h : watch.Plain) (late : Bool) {level : UInt8}
    (hbit : level ≤ 1) : (watch.acknowledge late level).Plain := by
  have htold : Plain { watch with due := watch.due.tail, turned := false } :=
    ⟨fun failure hmem => h.due failure (List.mem_of_mem_tail hmem), h.missed, h.failures⟩
  have hnack : ∀ failure ∈ watch.due.head?, failure.Plain := fun failure hmem =>
    h.due failure (List.mem_of_mem_head? hmem)
  unfold Watch.acknowledge
  split_ifs with _ hlevel
  · exact htold
  · exact absurd hlevel (UInt8.not_lt.2 hbit)
  · exact ⟨htold.due, hnack, htold.failures⟩
  · exact htold.fail fun failure hmem => hnack failure (Option.mem_toList.1 hmem)

theorem Plain.next {watch : Watch F} (h : watch.Plain) (late : Bool)
    {e : Event (.lines L F) (Notice F)} (he : e.ShowsBit) : (watch.next late e).Plain := by
  have hfault (fault : F) : ∀ failure ∈ [Failure.io fault], failure.Plain :=
    List.forall_mem_singleton.2 nofun
  cases e with
  | noted n => exact h
  | called c reply =>
    cases c with
    | request line | release line | settle us | wait ms => exact h
    | drive line high =>
      rcases reply with fault | _
      · exact h.drive (hfault fault)
      · exact h.drive nofun
    | sample line =>
      rcases reply with fault | level
      · exact h.fail (hfault fault)
      · rw [Watch.next]
        split_ifs
        · exact h.acknowledge late he
        · exact ⟨h.due, h.missed, h.failures⟩

theorem Plain.foldl_next {watch : Watch F} (h : watch.Plain) (late : Bool)
    {events : List (Event (.lines L F) (Notice F))} (hevents : ∀ e ∈ events, e.ShowsBit) :
    (events.foldl (Watch.next late) watch).Plain := by
  induction events generalizing watch with
  | nil => exact h
  | cons e events ih =>
    obtain ⟨hfirst, hrest⟩ := List.forall_mem_cons.1 hevents
    exact ih (h.next late hfirst) hrest

end Watch

/-- What the bytes of a call fail with if they are not acknowledged is not about a level. -/
theorem BusCall.plain_nacks (c : BusCall) :
    ∀ failure ∈ (c.nacks : List (Failure F)), failure.Plain := by
  have hframe (address : UInt8) (w : UInt8 × UInt8) :
      ∀ failure ∈ (frameNacks address w : List (Failure F)), failure.Plain := by
    simp only [frameNacks, List.forall_mem_cons]
    exact ⟨nofun, nofun, nofun, nofun⟩
  cases c with
  | write address register value => exact hframe address (register, value)
  | writeBlock address start data =>
    intro failure hmem
    obtain ⟨w, _, hmem⟩ := List.mem_flatMap.1 hmem
    exact hframe address w failure hmem

namespace Bus

variable (bus : Bus L) {answer : (c : LineCall L) → σ → c.Reply F × σ}

/-- Where every sample shows a bit no call fails because of a level. -/
theorem perform_plain (c : BusCall) {s : σ}
    (hbits : ∀ e ∈ ((bus.perform c).run (.answering answer) s).events, e.ShowsBit)
    {failure : Failure F}
    (h : ((bus.perform c).run (.answering answer) s).outcome = .returned (.error failure)) :
    failure.Plain := by
  by_cases fits : ∀ address start data, c = .writeBlock address start data → data.length ≤ 32
  · have htold := (bus.perform_tells c fits).returned _ h
    have hplain := Watch.plain_clear (c.plain_nacks (F := F))
    exact (hplain.foldl_next true hbits).failures _ (List.mem_of_mem_head? htold)
  · -- The data do not fit into a page, and the call fails at once.
    obtain ⟨address, start, data, rfl, hlong⟩ : ∃ address start data,
        c = .writeBlock address start data ∧ ¬ data.length ≤ 32 := by
      simpa only [not_forall, exists_prop] using fits
    have hpage : data.length > Page.size := Nat.not_le.1 hlong
    rw [perform, writeBlock, if_pos hpage] at h
    cases h
    intro level hlevel
    cases hlevel

/-- On such lines calls in a row all end, and none because of a level. -/
theorem performAll_plain [DecidableEq L] (distinct : bus.clock ≠ bus.data)
    (hbits : ∀ line s level, (answer (.sample line) s).1 = .ok level → level ≤ 1)
    (calls : List BusCall) (s : σ) :
    ∃ results, ((bus.performAll calls).run (.answering answer) s).outcome = .returned results ∧
      ∀ result ∈ results, ∀ failure, result = .error failure → failure.Plain := by
  have hreturns (c : BusCall) (s : σ) :
      ∃ result, ((bus.perform c).run (.answering answer) s).outcome = .returned result := by
    obtain ⟨result, hresult, _⟩ := (bus.perform_samplesHigh distinct c).run answer s
    exact ⟨result, hresult⟩
  have hshows (c : BusCall) (s : σ) :
      ∀ e ∈ ((bus.perform c).run (.answering answer) s).events, e.ShowsBit := by
    intro e he
    match e, he with
    | .called (.sample line) (.ok level), he =>
      obtain ⟨s', s'', hanswer⟩ := answered_of_mem _ he
      exact hbits line s' level (congrArg Prod.fst (Option.some.inj hanswer))
    | .called (.sample _) (.error _), _ | .called (.request _) _, _ | .called (.release _) _, _
    | .called (.drive _ _) _, _ | .called (.settle _) _, _ | .called (.wait _) _, _
    | .noted _, _ => trivial
  obtain ⟨runs, -, ⟨results, hresults, hall⟩, -⟩ := mapM'_runs hreturns calls s
  have hplain : List.Forall₂ (fun (result : Except (Failure F) Unit) (_ : BusCall × σ) =>
      (∀ failure, result = .error failure → failure.Plain) ∧ True) results runs := by
    apply List.Forall₂.flip
    refine hall.imp fun r result hresult => ⟨?_, trivial⟩
    rintro failure rfl
    exact bus.perform_plain r.1 (hshows r.1 r.2) hresult
  rw [performAll_eq]
  exact ⟨results, hresults, ((List.forall₂_and_left _ _).1 hplain).1⟩

end Bus

end Levels

section Pins

namespace Bus

variable {P : Type} [DecidableEq P] {pair : PinPair P} {bus : Bus Signal}
variable (answer : (c : PinCall P) → σ → c.Reply F × σ)

/-- Calls on a bus that is a pair of pins, whatever the pins answer and wherever their levels start.
The pin calls are those of the line calls in a row. A sample is one of the data line and behind a
drive of its pin to high that none to low has followed; so what the sample itself drives changes no
level and makes no edge. The calls end, and none because of a level. On lines with the same replies,
where a sample only looks, they have the same results, and the levels change in the same way. The bus
is taken and given up without a call on the pins and never in vain. -/
theorem samples_change_nothing (hpins : pair.clock ≠ pair.data) (hlines : bus.clock ≠ bus.data)
    (calls : List BusCall) (s : σ) :
    let w : World (.pins P F) σ := .answering answer
    let lines : World (.lines Signal F) σ := w.through (pair.answer (N := Notice F))
    let session : Routine (.lines Signal F) (Notice F) (List (Except (Failure F) Unit)) :=
      bus.performAll calls
    let onPins := (session.handle pair.answer).run w s
    let exchanges := session.exchanges lines s
    callsOf onPins.events = exchanges.flatMap (pair.callsFor answer) ∧
      (∀ before x after line, exchanges = before ++ x :: after → x.call = .sample line →
        line = bus.data ∧ ∀ levels : Levels,
          let here := levels.afterDrives
            (pair.drives bus.clock (before.flatMap (pair.callsFor answer)))
          here.data = true ∧ ∀ drive ∈ pair.drives bus.clock (pair.callsFor answer x),
            here.drive drive.1 drive.2 = here ∧ here.edge? drive.1 drive.2 = none) ∧
      (∃ results, onPins.outcome = .returned results ∧
        ∀ result ∈ results, ∀ level, result ≠ .error (.invalidLevel level)) ∧
      (∃ script, Rehearses script 0 (exchanges.map Exchange.answered)) ∧
      (∀ script, Rehearses script 0 (exchanges.map Exchange.answered) →
        let onLines := session.run (.answering (scripted script)) 0
        onLines.outcome = onPins.outcome ∧ ∀ levels : Levels,
          levels.changes (lineDrives bus.clock (callsOf onLines.events)) =
            levels.changes (pair.drives bus.clock (callsOf onPins.events))) ∧
      ∀ act ∈ [(bus.acquire : Action Signal F Unit), bus.release], ∀ s,
        let run := (act.run.handle pair.answer).run w s
        run.outcome = .returned (.ok ()) ∧ run.world = s ∧ callsOf run.events = [] := by
  intro w lines session onPins exchanges
  have hreturns := pair.answer_returns (N := Notice F) answer
  obtain ⟨houtcome, _, hcalls⟩ := run_handle hreturns session s
  obtain ⟨reply, hreply⟩ : ∃ reply, lines = .answering reply := World.through_answering hreturns
  have hanswered : ∀ x ∈ exchanges, ∃ s', lines x.call x.world = some (x.reply, s') := fun x hx =>
    exchanges_answered lines hx
  have hsampled : SampledHigh bus.clock bus.data (exchanges.map Exchange.answered) := by
    obtain ⟨_, _, h⟩ := (adds_mapM' bus.samplesHigh_joins
      (bus.perform_samplesHigh hlines) calls).run reply s
    rw [← performAll_eq, ← hreply, SamplesHigh, callsOf_run] at h
    exact h
  refine ⟨hcalls, ?_, ?_, ?_, ?_, ?_⟩
  · -- Up to a sample the pins are where the lines are, and there the data line is high.
    intro before x after line hsplit hcall
    rw [hsplit] at hanswered hsampled
    rw [List.map_append] at hsampled
    obtain ⟨hbefore, _⟩ := List.forall_mem_append.1 hanswered
    obtain ⟨c, s', level⟩ := x
    obtain rfl : c = .sample line := hcall
    obtain ⟨rfl, hhigh⟩ := hsampled _ line level _ rfl
    refine ⟨rfl, fun levels => ?_⟩
    have hchanges := PinPair.flatMap_changes answer hpins hlines hbefore hsampled.of_append levels
    have hhere := hhigh levels
    rw [← Levels.afterDrives_congr hchanges] at hhere
    exact ⟨hhere, PinPair.sample_still answer hpins hlines hhere rfl⟩
  · -- A pin is high or low, so there is no other level to fail with.
    have hbits (line : Signal) (s : σ) (level : UInt8)
        (h : (reply (.sample line) s).1 = .ok level) : level ≤ 1 := by
      have hline : lines (.sample line) s = some (.ok level, (reply (.sample line) s).2) := by
        rw [hreply, ← h]
        rfl
      exact pair.sample_level (World.returned_of_through hline)
    obtain ⟨results, hresults, hplain⟩ := bus.performAll_plain hlines hbits calls s
    rw [← hreply] at hresults
    refine ⟨results, houtcome.trans hresults, ?_⟩
    rintro result hresult level rfl
    exact hplain _ hresult _ rfl level rfl
  · exact exists_rehearses (fun c => ⟨(reply c s).1⟩) _
  · -- The replies alone decide how the calls go on, and the samples added no change of a level.
    intro script hscript onLines
    have hends : (session.run lines s).outcome ≠ .cutOff :=
      outcome_ne_cutOff lines (World.through_ne_none hreturns) session s
    rw [← callsOf_run] at hscript
    obtain ⟨hsame, hevents, _⟩ := run_scripted _ hends hscript
    refine ⟨hsame.trans houtcome.symm, fun levels => ?_⟩
    rw [hcalls, hevents, callsOf_run]
    exact (PinPair.flatMap_changes answer hpins hlines hanswered hsampled levels).symm
  · simp only [List.forall_mem_cons]
    exact ⟨fun s => ⟨rfl, rfl, rfl⟩, fun s => ⟨rfl, rfl, rfl⟩, nofun⟩

/-- The clock and the data line swapped, and a write that breaks off when its first sample lets go of
the data pin. -/
theorem samples_change_nothing_swapped :
    let pair : PinPair Bool := ⟨false, true⟩
    let bus : Bus Signal := ⟨.data, .clock, defaultHalfPeriod⟩
    let session : Routine (.lines Signal Unit) (Notice Unit) (List (Except (Failure Unit) Unit)) :=
      bus.performAll [.write 0x64 0x3F 0xFF]
    let onPins := (session.handle pair.answer).run (.answering (brokenPins 29)) 0
    pair.clock ≠ pair.data ∧ bus.clock ≠ bus.data ∧
      onPins.outcome = .returned [.error (.io ())] ∧
      ∃ script,
        let onLines := session.run (.answering (scripted script)) 0
        onLines.outcome = onPins.outcome ∧
          Levels.idle.changes (lineDrives bus.clock (callsOf onLines.events)) =
            Levels.idle.changes (pair.drives bus.clock (callsOf onPins.events)) := by
  have hpins : (⟨false, true⟩ : PinPair Bool).clock ≠ (⟨false, true⟩ : PinPair Bool).data := by
    decide
  have hlines : (⟨.data, .clock, defaultHalfPeriod⟩ : Bus Signal).clock ≠
      (⟨.data, .clock, defaultHalfPeriod⟩ : Bus Signal).data := by
    decide
  obtain ⟨_, _, _, ⟨script, hscript⟩, hsame, _⟩ := samples_change_nothing (brokenPins 29) hpins hlines
    [.write 0x64 0x3F 0xFF] 0
  obtain ⟨houtcome, hchanges⟩ := hsame script hscript
  exact ⟨hpins, hlines, by decide +kernel, script, houtcome, hchanges .idle⟩

end Bus

end Pins

end LedSequencer
