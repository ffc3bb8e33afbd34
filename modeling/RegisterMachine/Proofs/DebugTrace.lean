import Mathlib.Data.List.Forall2
import RegisterMachine.Proofs.Effects
import RegisterMachine.Proofs.Reachable

/-!
# The debug trace

The record of a machine that is traced and the lines that it printed are two views of one history:
which instructions were fetched, what was in the registers then, and which runs returned. Whatever a
caller does with the machine, the record shows the line of the listing for each instruction fetched,
and the output has the value for each that was executed and prints one.

* `Program.ShowsLine`: a message shows the line of the listing at an index.
* `Event`: an instruction is fetched, or a run returns.
* `Machine.stepEvents`, `Machine.runEvents`, `Machine.History`: the events of a step, of a run and of
  a sequence of actions, in the order in which they come.
* `Machine.Follows`: what a machine has put on record, counted and printed since it was another.
* `Machine.marked`: the debug messages that begin with a mark.

Principal results: `Machine.follows_step`, `Machine.follows_run`, `Machine.History.follows` (record,
count and output follow the events of a step, a run and any sequence of actions) and
`Machine.debug_trace_follows_listing`.
-/

set_option autoImplicit false

namespace RegisterMachine

theorem Program.getElem?_listing (p : Program) (i : Nat) :
    p.listing[i]? = p[i]?.map fun ins => ins.line i := by
  unfold listing
  rw [List.getElem?_map, List.getElem?_zipIdx, Array.getElem?_toList]
  cases p[i]? <;> simp

/-- The message shows the line of the listing at an index. -/
def Program.ShowsLine (p : Program) (message : String) (pc : Nat) : Prop :=
  ∃ line, p.listing[pc]? = some line ∧ message = "exec " ++ String.ofList line

/-! ## Events -/

/-- What happens to a machine that a caller can see in its record. -/
inductive Event where
  /-- An instruction is fetched, and finds the bank as it is. -/
  | fetched (pc : Nat) (ins : Instruction) (b : Bank)
  /-- A run returns. -/
  | returned (status : Status) (steps : Nat)

namespace Event

/-- The entry that tells of an event. -/
def entry : Event → LogEntry
  | .fetched pc ins _ => .executing pc ins
  | .returned status steps => .stopped status steps

/-- The index of the instruction that is fetched. -/
def pc? : Event → Option Nat
  | .fetched pc _ _ => some pc
  | .returned _ _ => none

/-- The value that is printed: that of the source of a `PRN`, if it can be read. -/
def printed? : Event → Option Float
  | .fetched _ ins b => if ins.op = .known .prn then (ins.src.value b).toOption else none
  | .returned _ _ => none

/-- The instruction that is fetched stands in the program at its index. -/
def Of (p : Program) : Event → Prop
  | .fetched pc ins _ => p[pc]? = some ins
  | .returned _ _ => True

/-- Whether the message of an event begins with a mark. -/
def isMarked (mark : String) (event : Event) : Bool :=
  mark.toList.isPrefixOf event.entry.message.toList

@[simp] theorem isMarked_exec_fetched (pc : Nat) (ins : Instruction) (b : Bank) :
    isMarked "exec " (.fetched pc ins b) = true := by
  unfold isMarked entry LogEntry.message
  simp only [String.toList_append]
  rfl

@[simp] theorem isMarked_exec_returned (status : Status) (steps : Nat) :
    isMarked "exec " (.returned status steps) = false := by
  unfold isMarked entry LogEntry.message
  simp only [String.toList_append]
  rfl

@[simp] theorem isMarked_stopped_fetched (pc : Nat) (ins : Instruction) (b : Bank) :
    isMarked "stopped: " (.fetched pc ins b) = false := by
  unfold isMarked entry LogEntry.message
  simp only [String.toList_append]
  rfl

@[simp] theorem isMarked_stopped_returned (status : Status) (steps : Nat) :
    isMarked "stopped: " (.returned status steps) = true := by
  unfold isMarked entry LogEntry.message
  simp only [String.toList_append]
  rfl

end Event

namespace Machine

/-! ## Debug messages -/

/-- The entries on record that are no warnings, in the order in which they came. -/
def debugLog (m : Machine) : List LogEntry := m.log.toList.filter (·.level == .debug)

/-- The debug messages on record that begin with a mark. -/
def marked (m : Machine) (mark : String) : List String :=
  (m.debugLog.map LogEntry.message).filter fun t => mark.toList.isPrefixOf t.toList

@[simp] theorem trace_tracing (m : Machine) (e : LogEntry) : (m.trace e).tracing = m.tracing := by
  unfold trace record; split <;> rfl

@[simp] theorem fetch_tracing (m : Machine) (ins : Instruction) :
    (m.fetch ins).tracing = m.tracing := trace_tracing m _

@[simp] theorem apply_tracing (m : Machine) (e : Effect) : (m.apply e).tracing = m.tracing := by
  cases e with
  | jump t => unfold apply jump record; dsimp only; split <;> rfl
  | _ => rfl

theorem debugLog_trace {m : Machine} {e : LogEntry} (ht : m.tracing = true)
    (he : e.level = .debug) : (m.trace e).debugLog = m.debugLog ++ [e] := by
  simp [debugLog, trace, ht, record, List.filter_append, he]

theorem debugLog_fetch {m : Machine} (ht : m.tracing = true) (ins : Instruction) :
    (m.fetch ins).debugLog = m.debugLog ++ [.executing m.pc ins] :=
  debugLog_trace ht rfl

@[simp] theorem debugLog_apply (m : Machine) (e : Effect) : (m.apply e).debugLog = m.debugLog := by
  cases e with
  | jump t =>
    unfold apply jump
    dsimp only
    split
    · simp [debugLog, record, List.filter_append, LogEntry.level]
    · rfl
  | _ => rfl

/-! ## The events of a machine -/

/-- The events of a step: the instruction at hand is fetched, if there is one. -/
def stepEvents (m : Machine) : List Event :=
  if m.isDone then [] else m.program[m.pc]?.toList.map fun ins => .fetched m.pc ins m.bank

/-- The events of a run before it ends. -/
def runEvents : Nat → Machine → List Event
  | 0, _ => []
  | fuel + 1, m =>
    if m.isDone then []
    else
      match m.exceeded? with
      | some _ => []
      | none =>
        match m.step with
        | (m', none) => m.stepEvents ++ runEvents fuel m'
        | (_, some _) => m.stepEvents

/-- The events of the end of a run that leaves a machine: it returns, unless it fails. -/
def endEvents (m : Machine) (e : Ending) : List Event :=
  if e = .stopped then [.returned m.status m.steps] else []

theorem endEvents_stopped (m : Machine) : m.endEvents .stopped = [.returned m.status m.steps] :=
  if_pos rfl

theorem endEvents_failed (m : Machine) (f : Fault) : m.endEvents (.failed f) = [] :=
  if_neg (by simp)

/-- Where a sequence of actions leads, with the events on the way. -/
inductive History : List Action → Machine → List Event → Machine → Prop where
  | nil (m : Machine) : History [] m [] m
  | step {as : List Action} {m m' : Machine} {events : List Event}
      (others : History as m.step.1 events m') :
      History (.step :: as) m (m.stepEvents ++ events) m'
  | run {as : List Action} {m m1 m' : Machine} {e : Ending} {fuel : Nat} {events : List Event}
      (ends : m.run fuel = (m1, e)) (finished : e ≠ .unfinished) (others : History as m1 events m') :
      History (.run :: as) m (m.runEvents fuel ++ m1.endEvents e ++ events) m'
  | setLimit {as : List Action} {m m' : Machine} {events : List Event} (l : Option Int)
      (others : History as (m.withLimit l) events m') : History (.setLimit l :: as) m events m'
  | write {as : List Action} {m m' : Machine} {events : List Event} (r : Register) (x : Float)
      (others : History as { m with bank := m.bank.write r x } events m') :
      History (.write r x :: as) m events m'

theorem Driven.exists_history {as : List Action} {m m' : Machine} (h : Driven as m m') :
    ∃ events, History as m events m' := by
  induction h with
  | nil m => exact ⟨[], .nil m⟩
  | cons first _ ih =>
    obtain ⟨events, hevents⟩ := ih
    cases first with
    | step => exact ⟨_, .step hevents⟩
    | run ends finished => exact ⟨_, .run ends finished hevents⟩
    | setLimit _ l => exact ⟨_, .setLimit l hevents⟩
    | write _ r x => exact ⟨_, .write r x hevents⟩

/-! ## What follows from the events -/

/-- What a machine has put on record, counted and printed since it was another one are the events
told. -/
structure Follows (m : Machine) (events : List Event) (m' : Machine) : Prop where
  program : m'.program = m.program
  tracing : m'.tracing = m.tracing
  /-- The instructions fetched are those of the program. -/
  within : ∀ event ∈ events, event.Of m.program
  /-- If the machine is traced, the events are on record. -/
  record : m.tracing = true → m'.debugLog = m.debugLog ++ events.map Event.entry
  /-- The instructions fetched are counted. -/
  steps : m'.steps = m.steps + (events.filterMap Event.pc?).length
  /-- The values printed are those of the instructions that print. -/
  output : m'.output.toList = m.output.toList ++
    (events.filterMap Event.printed?).map fun x => String.ofList (Number.text x)

namespace Follows

variable {m m1 m' : Machine} {events events' : List Event}

theorem refl (hprogram : m'.program = m.program) (htracing : m'.tracing = m.tracing)
    (hlog : m'.log = m.log) (hsteps : m'.steps = m.steps) (houtput : m'.output = m.output) :
    Follows m [] m' where
  program := hprogram
  tracing := htracing
  within _ h := by cases h
  record _ := by simp [debugLog, hlog]
  steps := hsteps
  output := by simp [houtput]

theorem trans (h : Follows m events m1) (h' : Follows m1 events' m') :
    Follows m (events ++ events') m' where
  program := h'.program.trans h.program
  tracing := h'.tracing.trans h.tracing
  within event hevent := by
    rcases List.mem_append.1 hevent with hevent | hevent
    · exact h.within event hevent
    · rw [← h.program]
      exact h'.within event hevent
  record ht := by
    rw [h'.record (h.tracing.trans ht), h.record ht, List.map_append, List.append_assoc]
  steps := by
    rw [h'.steps, h.steps, List.filterMap_append, List.length_append, Nat.add_assoc]
  output := by
    rw [h'.output, h.output, List.filterMap_append, List.map_append, List.append_assoc]

end Follows

theorem mem_stepEvents {m : Machine} {event : Event} (h : event ∈ m.stepEvents) :
    ∃ ins, m.program[m.pc]? = some ins ∧ event = .fetched m.pc ins m.bank := by
  unfold stepEvents at h
  split at h
  · cases h
  · obtain ⟨ins, hins, rfl⟩ := List.mem_map.1 h
    exact ⟨ins, Option.mem_toList.1 hins, rfl⟩

theorem filterMap_pc_stepEvents (m : Machine) : m.stepEvents.filterMap Event.pc? = m.fetches := by
  unfold stepEvents fetches
  cases hd : m.isDone with
  | true => rfl
  | false =>
    cases hf : m.program[m.pc]? with
    | none => simp [Array.getElem?_eq_none_iff.1 hf]
    | some ins => simp [(Array.getElem?_eq_some_iff.1 hf).1, Event.pc?]

/-- A step prints what its event tells. -/
theorem filterMap_printed_stepEvents (m : Machine) :
    m.stepEvents.filterMap Event.printed? = (m.performs.bind Effect.number?).toList := by
  unfold stepEvents performs
  cases m.isDone with
  | true => rfl
  | false =>
    cases m.program[m.pc]? with
    | none => rfl
    | some ins =>
      have hprinted : (Event.fetched m.pc ins m.bank).printed? =
          (ins.effect m.bank).toOption.bind Effect.number? :=
        (Instruction.number?_effect m.bank ins).symm
      show [Event.fetched m.pc ins m.bank].filterMap Event.printed? =
        ((ins.effect m.bank).toOption.bind Effect.number?).toList
      rw [← hprinted]
      cases h : (Event.fetched m.pc ins m.bank).printed? <;> simp [h]

theorem debugLog_step {m : Machine} (ht : m.tracing = true) :
    m.step.1.debugLog = m.debugLog ++ m.stepEvents.map Event.entry := by
  cases hs : m.step with
  | mk m' f =>
    cases stepped_of_step hs with
    | rest hd => simp [stepEvents, hd]
    | halt hb hl => simp [stepEvents, hl, debugLog]
    | refuse ins r hb hf he => simp [stepEvents, hb, hf, debugLog_fetch ht, Event.entry]
    | execute ins e hb hf he => simp [stepEvents, hb, hf, debugLog_fetch ht, Event.entry]

theorem step_tracing (m : Machine) : m.step.1.tracing = m.tracing := by
  cases hs : m.step with
  | mk m' f => cases stepped_of_step hs <;> simp

/-- **A step follows its events.** -/
theorem follows_step (m : Machine) : Follows m m.stepEvents m.step.1 where
  program := step_program m
  tracing := step_tracing m
  within event hevent := by
    obtain ⟨ins, hf, rfl⟩ := mem_stepEvents hevent
    exact hf
  record := debugLog_step
  steps := by rw [step_steps_eq, filterMap_pc_stepEvents]
  output := by rw [output_step, filterMap_printed_stepEvents]

theorem follows_stopped (m : Machine) :
    Follows m [.returned m.status m.steps] (m.trace (.stopped m.status m.steps)) where
  program := trace_program m _
  tracing := trace_tracing m _
  within event hevent := by
    rw [List.mem_singleton.1 hevent]
    trivial
  record ht := debugLog_trace ht rfl
  steps := trace_steps m _
  output := by
    rw [trace_output]
    exact (List.append_nil _).symm

/-- **A run follows its events**, and those of its end come last. -/
theorem Ran.follows {fuel : Nat} {m m' : Machine} {es : List Effect} {e : Ending}
    (h : Ran fuel m es m' e) : Follows m (m.runEvents fuel ++ m'.endEvents e) m' := by
  induction h with
  | unfinished => exact .refl rfl rfl rfl rfl rfl
  | @stopped m _ hd => simpa [runEvents, hd, endEvents_stopped] using follows_stopped m
  | @exceeded m _ _ hb hx =>
    have hsame : Follows m [] m := .refl rfl rfl rfl rfl rfl
    simpa [runEvents, hb, hx, endEvents_failed] using hsame
  | @failed m m1 _ _ hb hx hs =>
    have hstep := follows_step m
    rw [hs] at hstep
    simpa [runEvents, hb, hx, hs, endEvents_failed] using hstep
  | @step m m1 _ _ _ _ hb hx hs _ ih =>
    have hstep := follows_step m
    rw [hs] at hstep
    simpa [runEvents, hb, hx, hs] using hstep.trans ih

theorem follows_run {fuel : Nat} {m m' : Machine} {e : Ending} (h : m.run fuel = (m', e)) :
    Follows m (m.runEvents fuel ++ m'.endEvents e) m' := by
  have hran := ran fuel m
  rw [h] at hran
  exact hran.follows

/-- **Whatever a caller does with a machine, it follows its history.** -/
theorem History.follows {as : List Action} {m m' : Machine} {events : List Event}
    (h : History as m events m') : Follows m events m' := by
  induction h with
  | nil m => exact .refl rfl rfl rfl rfl rfl
  | step _ ih => exact (follows_step _).trans ih
  | run ends _ _ ih => exact (follows_run ends).trans ih
  | @setLimit _ m _ _ l _ ih =>
    have hlimit : Follows m [] (m.withLimit l) := .refl rfl rfl rfl rfl rfl
    exact hlimit.trans ih
  | @write _ m _ _ r x _ ih =>
    have hwrite : Follows m [] { m with bank := m.bank.write r x } := .refl rfl rfl rfl rfl rfl
    exact hwrite.trans ih

/-! ## Marked messages -/

theorem Follows.marked_eq {m m' : Machine} {events : List Event} (h : Follows m events m')
    (ht : m.tracing = true) (mark : String) :
    m'.marked mark =
      m.marked mark ++ (events.filter (·.isMarked mark)).map fun event => event.entry.message := by
  simp only [marked, h.record ht, List.map_append, List.filter_append, List.filter_map,
    List.map_map]
  rfl

/-- The message of an instruction that is fetched shows its line of the listing. -/
theorem showsLine_exec {p : Program} {events : List Event} (h : ∀ event ∈ events, event.Of p) :
    List.Forall₂ p.ShowsLine
      ((events.filter (·.isMarked "exec ")).map fun event => event.entry.message)
      (events.filterMap Event.pc?) := by
  induction events with
  | nil => exact .nil
  | cons event events ih =>
    obtain ⟨hevent, hevents⟩ := List.forall_mem_cons.1 h
    cases event with
    | fetched pc ins b =>
      -- what is fetched stands in the program, so the listing has a line for it
      rw [List.filter_cons_of_pos (Event.isMarked_exec_fetched pc ins b)]
      have hline : p.listing[pc]? = some (ins.line pc) := by
        rw [Program.getElem?_listing, show p[pc]? = some ins from hevent]
        rfl
      exact .cons ⟨_, hline, rfl⟩ (ih hevents)
    | returned status steps =>
      rw [List.filter_cons_of_neg (by simp)]
      exact ih hevents

theorem filter_stopped_stepEvents (m : Machine) :
    m.stepEvents.filter (·.isMarked "stopped: ") = [] := by
  refine List.filter_eq_nil_iff.2 fun event hevent => ?_
  obtain ⟨ins, -, rfl⟩ := mem_stepEvents hevent
  simp

theorem filter_stopped_runEvents (fuel : Nat) (m : Machine) :
    (m.runEvents fuel).filter (·.isMarked "stopped: ") = [] := by
  induction fuel generalizing m with
  | zero => rfl
  | succ fuel ih =>
    unfold runEvents
    split
    · rfl
    · split
      · rfl
      · split
        · rw [List.filter_append, filter_stopped_stepEvents, ih, List.append_nil]
        · exact filter_stopped_stepEvents m

theorem History.showsLine {p : Program} {b : Bank} {limit : Option Int} {as : List Action}
    {events : List Event} {m : Machine} (h : History as (start p b limit true) events m) :
    List.Forall₂ p.ShowsLine (m.marked "exec ") (events.filterMap Event.pc?) := by
  have hmarked := h.follows.marked_eq rfl "exec "
  rw [hmarked]
  exact showsLine_exec h.follows.within

/-- **The debug trace follows the listing along the path of execution.** Whatever a caller does with
a machine that is traced, with any faults on the way, there is a history of it, and record, count and
output are those of the history. There are as many messages of executed instructions as instructions
were counted, and each shows the line of the listing at the index of the instruction fetched, in
order, also for an instruction that is refused or jumps out of the program. The lines printed are the
values of the sources of the `PRN`s that could read them, in order. A run that returns adds one
message of its end, with the status and the count that it leaves; a run that fails adds none, and
neither does a step. -/
theorem debug_trace_follows_listing (p : Program) (b : Bank) (limit : Option Int)
    {as : List Action} {m : Machine} (h : Driven as (start p b limit true) m) :
    (m.marked "exec ").length = m.steps ∧
    (∃ events, History as (start p b limit true) events m) ∧
    (∀ events, History as (start p b limit true) events m →
      List.Forall₂ p.ShowsLine (m.marked "exec ") (events.filterMap Event.pc?) ∧
      m.output.toList =
        (events.filterMap Event.printed?).map fun x => String.ofList (Number.text x)) ∧
    m.step.1.marked "stopped: " = m.marked "stopped: " ∧
    ∀ fuel m', (m.run fuel = (m', .stopped) → m'.marked "stopped: " = m.marked "stopped: " ++
        ["stopped: status=" ++ m'.status.name ++ " steps=" ++ toString m'.steps]) ∧
      ∀ f, m.run fuel = (m', .failed f) → m'.marked "stopped: " = m.marked "stopped: " := by
  obtain ⟨events, hevents⟩ := h.exists_history
  have ht : m.tracing = true := hevents.follows.tracing
  refine ⟨?_, ⟨events, hevents⟩, fun events hevents => ⟨hevents.showsLine, ?_⟩, ?_, ?_⟩
  · rw [hevents.showsLine.length_eq, hevents.follows.steps]
    exact (Nat.zero_add _).symm
  · exact hevents.follows.output
  · rw [(follows_step m).marked_eq ht, filter_stopped_stepEvents]
    exact List.append_nil _
  · intro fuel m'
    constructor
    · intro hrun
      rw [(follows_run hrun).marked_eq ht, List.filter_append, filter_stopped_runEvents,
        endEvents_stopped, List.nil_append,
        List.filter_cons_of_pos (Event.isMarked_stopped_returned _ _)]
      rfl
    · intro f hrun
      rw [(follows_run hrun).marked_eq ht, List.filter_append, filter_stopped_runEvents,
        endEvents_failed]
      exact List.append_nil _

/-- A number is printed by a step, then a run jumps out of the program, then another run returns at
once. -/
theorem debug_trace_follows_listing_jump_out :
    let p : Program :=
      #[{ op := .known .prn, src := .number 2.0 }, { op := .known .jmp, src := .index 9 }]
    ∃ m, Driven [.step, .run, .run] (start p Bank.zero none true) m ∧ m.status = .jumpedOut ∧
      (m.marked "exec ").length = 2 ∧ ∃ events,
        History [.step, .run, .run] (start p Bank.zero none true) events m ∧
        m.output.toList =
          (events.filterMap Event.printed?).map fun x => String.ofList (Number.text x) := by
  intro p
  let m0 := start p Bank.zero none true
  have hrun : m0.step.1.run 2 = (_, .stopped) := rfl
  have hagain : (m0.step.1.run 2).1.run 1 = (_, .stopped) := rfl
  have hdriven : Driven [.step, .run, .run] m0 ((m0.step.1.run 2).1.run 1).1 :=
    .cons (.step _) (.cons (.run hrun (by decide)) (.cons (.run hagain (by decide)) (.nil _)))
  obtain ⟨hcount, ⟨events, hevents⟩, hhistory, -, -⟩ :=
    debug_trace_follows_listing p Bank.zero none hdriven
  exact ⟨_, hdriven, rfl, hcount, events, hevents, (hhistory events hevents).2⟩

end Machine

end RegisterMachine
