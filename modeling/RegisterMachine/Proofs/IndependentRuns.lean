import RegisterMachine.CommandLine.Calculator
import RegisterMachine.Proofs.Heron
import RegisterMachine.Proofs.Reachable
import RegisterMachine.Proofs.Settings
import RegisterMachine.Proofs.Text.Cutting

/-!
# Runs that know nothing of each other

The command that takes square roots reads its input word by word and runs Heron's program for each
number before it looks at the next word. Each run starts from a bank of its own, so what is printed
for a number is what a run for that number alone would print. The first word that is no number, or
the first run that is cut off, ends the command; what was printed before stays printed.

* `Leading`: the numbers that a list of words starts with, and the word that ends them.
* `Prints`: the line that a run for one number prints.

Principal results: `Settings.run_within`, `Settings.run_cut_off` (one run, with a limit that is high
enough or not), `runNumbers_within` (the runs for several numbers) and `values_run_independently`.
-/

set_option autoImplicit false

namespace RegisterMachine.CommandLine.Calculator

open Heron Number

/-! ## The numbers of a text -/

/-- The longest stretch of numbers at the beginning of a list of words, and the word after it if
there is one. -/
def Leading (ws : List (List Char)) (xs : List Float) (bad : Option (List Char)) : Prop :=
  ∃ good rest, ws = good ++ rest ∧ List.Forall₂ (fun w x => readReal? w = some x) good xs ∧
    bad = rest.head? ∧ ∀ w, bad = some w → readReal? w = none

theorem Leading.ofWords_eq {ws : List (List Char)} {xs : List Float} {bad : Option (List Char)}
    (h : Leading ws xs bad) : Values.ofWords ws = ⟨xs, bad⟩ := by
  obtain ⟨good, rest, rfl, hgood, rfl, hbad⟩ := h
  induction hgood with
  | nil =>
    cases rest with
    | nil => rfl
    | cons w rest =>
      rw [List.nil_append, Values.ofWords, hbad w rfl]
      rfl
  | cons hw _ ih =>
    rw [List.cons_append, Values.ofWords, hw, ih]

theorem Leading.of_nil {xs : List Float} {bad : Option (List Char)} (h : Leading [] xs bad) :
    xs = [] ∧ bad = none := by
  have hwords := h.ofWords_eq
  rw [Values.ofWords, Values.mk.injEq] at hwords
  exact ⟨hwords.1.symm, hwords.2.symm⟩

/-! ## One run -/

/-- A run of Heron's program for a number, from a bank that holds that number and the count and is
zero elsewhere, prints this line and no other. -/
def Prints (n : Nat) (x : Float) (line : String) : Prop :=
  ∃ fuel m, (Machine.start Heron.program { r1 := x, r2 := whole n } none false).run fuel =
    (m, .stopped) ∧ m.output = #[line]

theorem Prints.eq {n : Nat} {x : Float} {line line' : String} (h : Prints n x line)
    (h' : Prints n x line') : line = line' := by
  obtain ⟨fuel, m, hrun, hout⟩ := h
  obtain ⟨fuel', m', hrun', hout'⟩ := h'
  cases Machine.run_unique hrun hrun' (by simp) (by simp)
  rw [hout] at hout'
  exact Array.singleton_inj.1 hout'

/-- The line for a number. -/
def lineOf (n : Nat) (x : Float) : String := String.ofList (Number.text (root x n))

theorem prints_lineOf {n : Nat} (hn : n ≤ 2 ^ 53) (x : Float) : Prints n x (lineOf n x) := by
  obtain ⟨m, hrun, hm⟩ := run_of_count (b := { r1 := x, r2 := whole n }) hn (value?_whole hn) false
  exact ⟨_, m, hrun, hm.output⟩

theorem logLines_eq_nil {m : Machine} (h : m.InOrder) (hs : m.status ≠ .jumpedOut) :
    logLines false m.log = [] := by
  have hsilent : m.log.toList.filter (·.level == .warning) = [] := h.silent hs
  simp [logLines, hsilent]

namespace Settings

variable {s : Settings} {n : Nat}

theorem run_eq (hcount : s.iterations = n) (hn : n ≤ 2 ^ 53) (fuel : Nat) (x : Float) :
    s.run fuel x = .ok ((Machine.start Heron.program { r1 := x, r2 := whole n } s.limit
      s.isDebug).runWith fuel) := by
  unfold run
  rw [hcount, start_natCast x hn]
  rfl

theorem inOrder_runWith (b : Bank) (limit : Option Int) (tracing : Bool) (fuel : Nat) :
    ((Machine.start Heron.program b limit tracing).runWith fuel).1.InOrder := by
  obtain ⟨k, hk⟩ := Machine.exists_runWith_eq fuel (Machine.start Heron.program b limit tracing)
  rw [hk]
  exact (Machine.start_inOrder Heron.program b limit tracing).run k

/-- With a limit that is high enough, or none, a run prints its line. -/
theorem run_within (hcount : s.iterations = n) (hn : n ≤ 2 ^ 53)
    (hlimit : ∀ limit, s.limit = some limit → 10 * n + 6 ≤ limit) {fuel : Nat}
    (hfuel : s.limit = none → 10 * n + 8 ≤ fuel) (x : Float) :
    ∃ m, s.run fuel x = .ok (m, .stopped) ∧ m.output = #[lineOf n x] ∧
      (s.isDebug = false → logLines s.isDebug m.log = []) := by
  have horder := inOrder_runWith { r1 := x, r2 := whole n } s.limit s.isDebug fuel
  have hrun : ∃ m, (Machine.start Heron.program { r1 := x, r2 := whole n } s.limit
      s.isDebug).runWith fuel = (m, .stopped) ∧
        Finished (10 * n + 6) (result { r1 := x, r2 := whole n } n) m := by
    cases hl : s.limit with
    | some limit =>
      exact runWith_of_count_of_le (b := { r1 := x, r2 := whole n }) hn (value?_whole hn) s.isDebug
        (hlimit limit hl) fuel
    | none =>
      obtain ⟨m, hrun, hm⟩ :=
        run_of_count (b := { r1 := x, r2 := whole n }) hn (value?_whole hn) s.isDebug
      exact ⟨m, Machine.runWith_of_run hrun (by simp) fun _ => hfuel hl, hm⟩
  obtain ⟨m, hrun, hm⟩ := hrun
  rw [hrun] at horder
  refine ⟨m, by rw [run_eq hcount hn, hrun], hm.output, fun hdebug => ?_⟩
  rw [hdebug]
  exact logLines_eq_nil horder (by rw [hm.status]; decide)

/-- With any other limit that can be written out, a run is cut off before it prints. -/
theorem run_cut_off (hcount : s.iterations = n) (hn : n ≤ 2 ^ 53) {limit : Int}
    (hlimit : s.limit = some limit) (htext : hasText limit = true) (hlt : limit < 10 * n + 6)
    (fuel : Nat) (x : Float) :
    ∃ m pc, s.run fuel x = .ok (m, .failed (.limitExceeded limit pc)) ∧ m.output = #[] ∧
      (s.isDebug = false → logLines s.isDebug m.log = []) := by
  have horder := inOrder_runWith { r1 := x, r2 := whole n } s.limit s.isDebug fuel
  obtain ⟨m, hrun, hstatus, hout⟩ := runWith_cut_off (b := { r1 := x, r2 := whole n }) hn
    (value?_whole hn) s.isDebug hlt fuel
  rw [Fault.atLimit_of_hasText htext] at hrun
  rw [hlimit, hrun] at horder
  refine ⟨m, m.pc, by rw [run_eq hcount hn, hlimit, hrun], hout, fun hdebug => ?_⟩
  rw [hdebug]
  exact logLines_eq_nil horder (by rw [hstatus]; decide)

theorem buildLog_eq_nil (hdebug : s.isDebug = false) : s.buildLog = [] := by
  unfold buildLog
  rw [hdebug]
  rfl

end Settings

/-! ## Several runs -/

/-- **The runs for several numbers** print the lines of the numbers, one after the other. -/
theorem runNumbers_within {s : Settings} {n fuel : Nat}
    (h : ∀ x, ∃ m, s.run fuel x = .ok (m, .stopped) ∧ m.output = #[lineOf n x] ∧
      (s.isDebug = false → logLines s.isDebug m.log = [])) (xs : List Float) (r : Report) :
    ∃ log, (s.isDebug = false → log = []) ∧ runNumbers fuel s r xs =
      ({ r with out := r.out ++ xs.map (lineOf n), err := r.err ++ log }, true) := by
  induction xs generalizing r with
  | nil => exact ⟨[], fun _ => rfl, by simp [runNumbers]⟩
  | cons x xs ih =>
    obtain ⟨m, hrun, hout, hlog⟩ := h x
    obtain ⟨log, hquiet, hrest⟩ :=
      ih ((r.print m.output.toList).printErr (logLines s.isDebug m.log))
    refine ⟨logLines s.isDebug m.log ++ log, fun hdebug => ?_, ?_⟩
    · rw [hlog hdebug, hquiet hdebug, List.nil_append]
    · unfold runNumbers
      rw [hrun]
      dsimp only
      rw [hrest, hout]
      simp [Report.print, Report.printErr]

/-- The first run that is cut off ends the command. -/
theorem runNumbers_cut_off {s : Settings} {fuel : Nat} {limit : Int} {x : Float}
    (h : ∃ m pc, s.run fuel x = .ok (m, .failed (.limitExceeded limit pc)) ∧ m.output = #[] ∧
      (s.isDebug = false → logLines s.isDebug m.log = [])) (xs : List Float) (r : Report) :
    ∃ log pc, (s.isDebug = false → log = []) ∧ runNumbers fuel s r (x :: xs) =
      ({ r with
          err := r.err ++ log ++ ["error: " ++ (Error.fault (.limitExceeded limit pc)).message],
          outcome := .exit 1 }, false) := by
  obtain ⟨m, pc, hrun, hout, hlog⟩ := h
  refine ⟨logLines s.isDebug m.log, pc, hlog, ?_⟩
  unfold runNumbers
  rw [hrun]
  dsimp only
  rw [hout]
  simp [Report.print, Report.printErr, Report.fail, Report.finish, Error.isReported]

/-! ## The command -/

/-- What the command answers once all runs are over: a word that ended the numbers is reported. -/
theorem main_of_runs {fuel : Nat} {args : List Word} {input : List Char} {s : Settings}
    {ws : List (List Char)} {xs : List Float} {bad : Option (List Char)}
    (hargs : grammar.readAll {} args = .ok s) (hmode : s.mode = .stdin)
    (hlisting : s.listing = false) (hwords : Text.Parts Text.isBlank input ws)
    (hnumbers : Leading ws xs bad) {r : Report} {ended : Bool}
    (hruns : runNumbers fuel s { err := s.buildLog } xs = (r, ended)) :
    main fuel args input =
      if ended then bad.elim r fun w => r.fail (.notANumber w) else r := by
  have hread : Values.read input = ⟨xs, bad⟩ := by
    unfold Values.read
    rw [Text.words_eq_iff.2 hwords, hnumbers.ofWords_eq]
  have hmain : main fuel args input = runValues fuel s input := by
    unfold main
    rw [hargs]
    dsimp only
    rw [hmode]
  have hempty : Report.printErr (if s.listing then { out := listing, err := s.buildLog } else {})
      s.buildLog = { err := s.buildLog } := by
    rw [hlisting]
    rfl
  rw [hmain]
  unfold runValues
  dsimp only
  rw [hempty, hread]
  dsimp only
  rw [hruns]
  cases ended with
  | false => rfl
  | true => cases bad <;> rfl

theorem fail_notANumber (r : Report) (w : List Char) :
    r.fail (.notANumber w) = { r with
      err := r.err ++ ["error: not a number: " ++ String.ofList (Text.quoted w)],
      outcome := .exit 1 } := by
  have hline : "error: " ++ (Error.notANumber w).message =
      "error: not a number: " ++ String.ofList (Text.quoted w) := by
    show "error: " ++ ("not a number: " ++ String.ofList (Text.quoted w)) = _
    rw [← String.append_assoc]
    rfl
  rw [← hline]
  rfl

/-- **The numbers of the input are run one by one and independently.** Let the input start with the
numbers `xs`. With a limit of at least `10 * n + 6`, or none, each of them is answered with the line
that a run for it alone prints; then the command ends, with an error if a word is left that is no
number. With any other limit nothing is printed: the run for the first number is cut off, if there
is one. The log is empty unless the command is told to trace its runs. -/
theorem values_run_independently {fuel n : Nat} {args : List Word} {input : List Char}
    {s : Settings} {ws : List (List Char)} {xs : List Float} {bad : Option (List Char)}
    (hargs : grammar.readAll {} args = .ok s) (hmode : s.mode = .stdin)
    (hlisting : s.listing = false) (hcount : s.iterations = n) (hn : n ≤ 2 ^ 53)
    (hfuel : s.limit = none → 10 * n + 8 ≤ fuel)
    (hwords : Text.Parts Text.isBlank input ws) (hnumbers : Leading ws xs bad) :
    ∃ log, (s.isDebug = false → log = []) ∧
      ((∀ limit, s.limit = some limit → 10 * n + 6 ≤ limit) →
        ∃ out, List.Forall₂ (Prints n) xs out ∧
          (bad = none → main fuel args input = { out := out, err := log, outcome := .exit 0 }) ∧
          ∀ w, bad = some w → main fuel args input =
            { out := out,
              err := log ++ ["error: not a number: " ++ String.ofList (Text.quoted w)],
              outcome := .exit 1 }) ∧
      ∀ limit, s.limit = some limit → limit < 10 * n + 6 →
        (ws = [] → main fuel args input = { out := [], err := log, outcome := .exit 0 }) ∧
        (xs ≠ [] → ∃ pc, main fuel args input =
          { out := [],
            err := log ++ ["error: " ++ (Error.fault (.limitExceeded limit pc)).message],
            outcome := .exit 1 }) ∧
        ∀ w, xs = [] → bad = some w → main fuel args input =
          { out := [],
            err := log ++ ["error: not a number: " ++ String.ofList (Text.quoted w)],
            outcome := .exit 1 } := by
  have hmain := @main_of_runs fuel args input s ws xs bad hargs hmode hlisting hwords hnumbers
  by_cases hlimit : ∀ limit, s.limit = some limit → 10 * n + 6 ≤ limit
  · obtain ⟨log, hquiet, hruns⟩ := runNumbers_within
      (fun x => s.run_within hcount hn hlimit hfuel x) xs { err := s.buildLog }
    have hanswer := hmain hruns
    refine ⟨s.buildLog ++ log, fun hdebug => ?_, fun _ => ?_, fun limit hl hlt => ?_⟩
    · rw [s.buildLog_eq_nil hdebug, hquiet hdebug, List.nil_append]
    · refine ⟨xs.map (lineOf n), ?_, ?_, ?_⟩
      · exact List.forall₂_map_right_iff.2 (List.forall₂_same.2 fun x _ => prints_lineOf hn x)
      · rintro rfl
        exact hanswer
      · rintro w rfl
        exact hanswer.trans (fail_notANumber _ w)
    · exact absurd hlt (Int.not_lt.2 (hlimit limit hl))
  · obtain ⟨limit, hl, hlt⟩ : ∃ limit, s.limit = some limit ∧ limit < 10 * n + 6 := by
      simpa using hlimit
    have hunique : ∀ limit', s.limit = some limit' → limit' = limit := by
      intro limit' hl'
      rw [hl] at hl'
      exact (Option.some.inj hl').symm
    cases xs with
    | nil =>
      have hanswer := @hmain { err := s.buildLog } true rfl
      refine ⟨s.buildLog, s.buildLog_eq_nil, fun h => absurd h hlimit, fun limit' hl' _ => ?_⟩
      refine ⟨?_, fun h => absurd rfl h, ?_⟩
      · rintro rfl
        rw [hnumbers.of_nil.2] at hanswer
        exact hanswer
      · rintro w - rfl
        exact hanswer.trans (fail_notANumber _ w)
    | cons x xs =>
      have htext := hasText_of_readAll hargs limit hl
      obtain ⟨log, pc, hquiet, hruns⟩ := runNumbers_cut_off
        (s.run_cut_off hcount hn hl htext hlt fuel x) xs { err := s.buildLog }
      refine ⟨s.buildLog ++ log, fun hdebug => ?_, fun h => absurd h hlimit,
        fun limit' hl' _ => ?_⟩
      · rw [s.buildLog_eq_nil hdebug, hquiet hdebug, List.nil_append]
      · rw [hunique limit' hl']
        refine ⟨?_, fun _ => ⟨pc, hmain hruns⟩, fun w h => (by cases h)⟩
        rintro rfl
        cases hnumbers.of_nil.1

/-- Settings found by evaluation: a count, a limit, and the default for everything else that
matters to a run. -/
theorem exists_settings {args : List Word} {n : Nat} {limit : Int}
    (h : (match grammar.readAll {} args with
      | .ok s => decide (s.mode = .stdin ∧ s.listing = false ∧ s.iterations = n ∧
          s.limit = some limit ∧ s.isDebug = false)
      | .error _ => false) = true) :
    ∃ s, grammar.readAll {} args = .ok s ∧ s.mode = .stdin ∧ s.listing = false ∧
      s.iterations = n ∧ s.limit = some limit ∧ s.isDebug = false := by
  split at h
  · rename_i s hs
    exact ⟨s, hs, of_decide_eq_true h⟩
  · cases h

/-- One improvement for four takes 16 instructions. With as many allowed its line is printed before
the next word is refused; with one less nothing is printed, and the next word is not looked at. -/
theorem values_run_independently_four :
    main 0 ["--iterations=1".toList, "--max-steps=16".toList] "4 x".toList =
      { out := ["2.5"],
        err := ["error: not a number: " ++ String.ofList (Text.quoted ['x'])],
        outcome := .exit 1 } ∧
    ∃ pc, main 0 ["--iterations=1".toList, "--max-steps=15".toList] "4 x".toList =
      { out := [], err := ["error: " ++ (Error.fault (.limitExceeded 15 pc)).message],
        outcome := .exit 1 } := by
  have hwords : Text.Parts Text.isBlank "4 x".toList [['4'], ['x']] :=
    Text.words_eq_iff.1 (by decide +kernel)
  have hfour : readReal? ['4'] = some 4.0 := by decide +kernel
  have hnumbers : Leading [['4'], ['x']] [4.0] (some ['x']) := by
    refine ⟨[['4']], [['x']], rfl, .cons hfour .nil, rfl, ?_⟩
    rintro w ⟨⟩
    decide +kernel
  have hline : lineOf 1 4.0 = "2.5" := by decide +kernel
  constructor
  · obtain ⟨s, hs, hmode, hlisting, hcount, hl, hdebug⟩ :=
      @exists_settings ["--iterations=1".toList, "--max-steps=16".toList] 1 16 (by decide +kernel)
    obtain ⟨log, hquiet, hwithin, -⟩ := @values_run_independently 0 1 _ _ s _ _ _ hs hmode hlisting
      hcount (by decide) (fun h => absurd (h.symm.trans hl) (by simp)) hwords hnumbers
    obtain ⟨out, hout, -, hbad⟩ := hwithin fun limit h => by
      rw [hl] at h
      cases h
      decide
    have houts : out = ["2.5"] := by
      cases hout with
      | cons hprints hrest =>
        cases hrest
        rw [hprints.eq (prints_lineOf (by decide) 4.0), hline]
    rw [hbad _ rfl, houts, hquiet hdebug, List.nil_append]
  · obtain ⟨s, hs, hmode, hlisting, hcount, hl, hdebug⟩ :=
      @exists_settings ["--iterations=1".toList, "--max-steps=15".toList] 1 15 (by decide +kernel)
    obtain ⟨log, hquiet, -, hcut⟩ := @values_run_independently 0 1 _ _ s _ _ _ hs hmode hlisting
      hcount (by decide) (fun h => absurd (h.symm.trans hl) (by simp)) hwords hnumbers
    obtain ⟨pc, hends⟩ := (hcut 15 hl (by decide)).2.1 (by simp)
    rw [hquiet hdebug, List.nil_append] at hends
    exact ⟨pc, hends⟩

end RegisterMachine.CommandLine.Calculator
