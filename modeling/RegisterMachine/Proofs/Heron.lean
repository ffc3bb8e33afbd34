import RegisterMachine.Heron
import RegisterMachine.Proofs.Number.Whole
import RegisterMachine.Proofs.StepLimit

/-!
# What Heron's program computes

The counter in `R3` starts at zero and goes up by one with each pass through the loop. As a binary64
number it takes all whole values up to `2 ^ 53` and stays at the last. The test at the head of the
loop compares it with `R2`. So if `R2` is one of these values the program makes that many passes,
and if it is not the program never comes to its end.

* `improve`: what one pass makes of the estimate.
* `Amid`, `Reaches`: the machine is in the middle of the program, after a number of steps.
* `looped`: the bank at the head of the loop after a number of passes.
* `result`, `Finished`: the machine at the end of the program.

Principal results: `Reaches.pass` and `Reaches.leave` (what the test at the head of the loop leads
to), `reaches_looped` (a pass for each value of the counter that is not that of `R2`),
`improves_as_often_as_told` and `endless_without_count`.
-/

set_option autoImplicit false

namespace RegisterMachine.Heron

open Machine Number

/-! ## Improving the estimate -/

/-- What one pass makes of an estimate of the square root of `x`. -/
def improve (x e : Float) : Float := (divide x e + e) * 0.5

/-- What one pass through the loop makes of the bank. -/
def pass (b : Bank) : Bank :=
  { b with r3 := b.r3 + 1.0, r4 := 0.0, r5 := improve b.r1 b.r5, r6 := improve b.r1 b.r5 }

/-! ## In the middle of the program -/

/-- The program with its slot filled: the loop is left for the last instruction, which prints. -/
theorem program_eq : program = #[
    ins .mov (.number 1.0) (.register .r5),
    ins .mov (.number 0.0) (.register .r3),
    ins .mov (.register .r3) (.register .r4),
    ins .equal (.register .r2) (.register .r4),
    ins .jmt (.register .r4) (.index 12),
    ins .mov (.register .r1) (.register .r6),
    ins .div (.register .r5) (.register .r6),
    ins .add (.register .r5) (.register .r6),
    ins .mul (.number 0.5) (.register .r6),
    ins .mov (.register .r6) (.register .r5),
    ins .add (.number 1.0) (.register .r3),
    ins .jmp (.index 2) .absent,
    ins .prn (.register .r6) .absent] := rfl

theorem program_size : program.size = 13 := by rw [program_eq]; rfl

/-- The machine is at an index of the program, with `k` instructions behind it, nothing printed and
more to do. -/
structure Amid (k pc : Nat) (b : Bank) (m : Machine) : Prop where
  program : m.program = program
  bank : m.bank = b
  pc : m.pc = pc
  steps : m.steps = k
  status : m.status = .running
  output : m.output = #[]

/-- The machine has halted at the end of the program after `k` instructions, one of which printed
`R6`. -/
structure Finished (k : Nat) (b : Bank) (m : Machine) : Prop where
  status : m.status = .halted
  pc : m.pc = 13
  steps : m.steps = k
  bank : m.bank = b
  output : m.output = #[String.ofList (Number.text b.r6)]

theorem Finished.trace {k : Nat} {b : Bank} {m : Machine} (h : Finished k b m) (e : LogEntry) :
    Finished k b (m.trace e) where
  status := by simp [h.status]
  pc := by simp [h.pc]
  steps := by simp [h.steps]
  bank := by simp [h.bank]
  output := by simp [h.output]

/-- After `k` steps the machine is in the middle of the program. -/
def Reaches (m : Machine) (k pc : Nat) (b : Bank) : Prop :=
  ∃ m', after k m = (m', none) ∧ Amid k pc b m'

theorem reaches_start (b : Bank) (limit : Option Int) (tracing : Bool) :
    Reaches (Machine.start program b limit tracing) 0 0 b :=
  ⟨_, rfl, rfl, rfl, rfl, rfl, rfl, rfl⟩

theorem truth_ofTruth (c : Bool) : truth (ofTruth c) = c := by cases c <;> decide +kernel

theorem exit_effect (b : Bank) (c : Bool) :
    (ins .jmt (.register .r4) (.index 12)).effect { b with r4 := ofTruth c } =
      .ok (if c then .jump 12 else .proceed) := by
  show Except.ok (if truth (ofTruth c) then Effect.jump 12 else .proceed) = _
  rw [truth_ofTruth]

namespace Amid

variable {m : Machine} {k pc : Nat} {b : Bank}

theorem step {i : Instruction} {e : Effect} (h : Amid k pc b m)
    (hf : Heron.program[pc]? = some i) (he : i.effect b = .ok e) :
    m.step = ((m.fetch i).apply e, none) := by
  refine (Stepped.execute i e ?_ ?_ ?_).step_eq
  · simp [isDone, h.status]
  · rw [h.program, h.pc, hf]
  · rw [h.bank, he]

theorem fetch (h : Amid k pc b m) (i : Instruction) : Amid (k + 1) pc b (m.fetch i) where
  program := by simp [h.program]
  bank := by simp [h.bank]
  pc := by simp [h.pc]
  steps := by simp [h.steps]
  status := by simp [h.status]
  output := by simp [h.output]

theorem advance (h : Amid k pc b m) : Amid k (pc + 1) b m.advance :=
  ⟨h.program, h.bank, congrArg (· + 1) h.pc, h.steps, h.status, h.output⟩

theorem write (h : Amid k pc b m) (r : Register) (x : Float) :
    Amid k pc (b.write r x) { m with bank := m.bank.write r x } :=
  ⟨h.program, congrArg (·.write r x) h.bank, h.pc, h.steps, h.status, h.output⟩

theorem jump {t : Nat} (h : Amid k pc b m) (ht : t ≤ 13) : Amid k t b (m.jump t) := by
  have hinside : (t : Int) ≤ m.program.size := by
    rw [h.program, program_size]
    exact_mod_cast ht
  rw [jump_inside (Int.natCast_nonneg t) hinside, Int.toNat_natCast]
  exact ⟨h.program, h.bank, rfl, h.steps, h.status, h.output⟩

end Amid

namespace Reaches

variable {m : Machine} {k pc : Nat} {b : Bank}

/-! ### Single instructions -/

theorem store {r : Register} {x : Float} (h : Reaches m k pc b) (i : Instruction)
    (hf : program[pc]? = some i) (he : i.effect b = .ok (.store r x)) :
    Reaches m (k + 1) (pc + 1) (b.write r x) := by
  obtain ⟨m', hk, hm⟩ := h
  exact ⟨_, (after_succ hk).trans (hm.step hf he), ((hm.fetch i).write r x).advance⟩

theorem proceed (h : Reaches m k pc b) (i : Instruction) (hf : program[pc]? = some i)
    (he : i.effect b = .ok .proceed) : Reaches m (k + 1) (pc + 1) b := by
  obtain ⟨m', hk, hm⟩ := h
  exact ⟨_, (after_succ hk).trans (hm.step hf he), (hm.fetch i).advance⟩

theorem jump {t : Nat} (h : Reaches m k pc b) (i : Instruction) (hf : program[pc]? = some i)
    (he : i.effect b = .ok (.jump t)) (ht : t ≤ 13) : Reaches m (k + 1) t b := by
  obtain ⟨m', hk, hm⟩ := h
  exact ⟨_, (after_succ hk).trans (hm.step hf he), (hm.fetch i).jump ht⟩

/-! ### Stretches of the program -/

theorem opening (h : Reaches m k 0 b) :
    Reaches m (k + 2) 2 { b with r3 := 0.0, r5 := 1.0 } :=
  (h.store (ins .mov (.number 1.0) (.register .r5)) rfl rfl)
    |>.store (ins .mov (.number 0.0) (.register .r3)) rfl rfl

theorem test (h : Reaches m k 2 b) :
    Reaches m (k + 2) 4 { b with r4 := ofTruth (b.r3 == b.r2) } :=
  (h.store (ins .mov (.register .r3) (.register .r4)) rfl rfl)
    |>.store (ins .equal (.register .r2) (.register .r4)) rfl rfl

theorem improvement (h : Reaches m k 5 b) :
    Reaches m (k + 7) 2 { b with
      r3 := b.r3 + 1.0, r5 := improve b.r1 b.r5, r6 := improve b.r1 b.r5 } := by
  have h6 : Reaches m (k + 1) 6 { b with r6 := b.r1 } :=
    h.store (ins .mov (.register .r1) (.register .r6)) rfl rfl
  have h7 : Reaches m (k + 2) 7 { b with r6 := divide b.r1 b.r5 } :=
    h6.store (ins .div (.register .r5) (.register .r6)) rfl rfl
  have h8 : Reaches m (k + 3) 8 { b with r6 := divide b.r1 b.r5 + b.r5 } :=
    h7.store (ins .add (.register .r5) (.register .r6)) rfl rfl
  have h9 : Reaches m (k + 4) 9 { b with r6 := improve b.r1 b.r5 } :=
    h8.store (ins .mul (.number 0.5) (.register .r6)) rfl rfl
  have h10 : Reaches m (k + 5) 10 { b with r5 := improve b.r1 b.r5, r6 := improve b.r1 b.r5 } :=
    h9.store (ins .mov (.register .r6) (.register .r5)) rfl rfl
  have h11 : Reaches m (k + 6) 11 { b with
      r3 := b.r3 + 1.0, r5 := improve b.r1 b.r5, r6 := improve b.r1 b.r5 } :=
    h10.store (ins .add (.number 1.0) (.register .r3)) rfl rfl
  exact h11.jump (ins .jmp (.index 2) .absent) rfl rfl (by decide)

theorem pass (h : Reaches m k 2 b) (hne : (b.r3 == b.r2) = false) :
    Reaches m (k + 10) 2 (Heron.pass b) := by
  have htest := h.test
  rw [hne] at htest
  exact (htest.proceed (ins .jmt (.register .r4) (.index 12)) rfl (exit_effect b false)).improvement

theorem leave (h : Reaches m k 2 b) (heq : (b.r3 == b.r2) = true) :
    Reaches m (k + 3) 12 { b with r4 := 1.0 } := by
  have htest := h.test
  rw [heq] at htest
  exact htest.jump (ins .jmt (.register .r4) (.index 12)) rfl (exit_effect b true) (by decide)

/-- The last instruction prints, and the step after it halts. -/
theorem closing (h : Reaches m k 12 b) :
    ∃ m', after (k + 2) m = (m', none) ∧ Finished (k + 1) b m' := by
  obtain ⟨m', hk, hm⟩ := h
  have hprint := (after_succ hk).trans
    (hm.step (i := ins .prn (.register .r6) .absent) (e := .print b.r6) rfl rfl)
  have hf := hm.fetch (ins .prn (.register .r6) .absent)
  generalize m'.fetch (ins .prn (.register .r6) .absent) = n at hprint hf
  -- the machine as it was before printing, moved on to the end
  have hn := hf.advance
  have hstatus : (n.apply (.print b.r6)).status = .running := hn.status
  have hend : (n.apply (.print b.r6)).program.size ≤ (n.apply (.print b.r6)).pc := by
    rw [apply_program, hf.program, program_size]
    exact hn.pc.ge
  refine ⟨_, (after_succ hprint).trans (step_at_end (by simp [isDone, hstatus]) hend), rfl, hn.pc,
    hn.steps, hn.bank, ?_⟩
  show n.output.push _ = _
  rw [hf.output]
  rfl

/-- At every step before, the machine was at work too, and had printed nothing. -/
theorem earlier {l : Nat} (h : Reaches m (k + l) pc b) (h0 : m.steps = 0) :
    ∃ m', after k m = (m', none) ∧ m'.status = .running ∧ m'.steps = k ∧ m'.output = #[] := by
  obtain ⟨n, hn, hend⟩ := h
  obtain ⟨m', hk, hl⟩ := after_split hn
  have hrunning : m'.isDone = false := by
    cases hd : m'.isDone with
    | false => rfl
    | true =>
      rw [after_of_done hd] at hl
      cases hl
      simp [isDone, hend.status] at hd
  have hsteps : m'.steps = k := by
    have hle := after_steps_le k m
    have hge := after_steps_le l m'
    rw [hk, h0, Nat.zero_add] at hle
    rw [hl] at hge
    exact Nat.le_antisymm hle (by have := hend.steps.symm.trans_le hge; omega)
  have hprinted : m'.output.size ≤ n.output.size := by
    have hkeeps := after_keeps (P := fun n => m'.output.size ≤ n.output.size)
      (fun n hn => hn.trans (output_size_le_step n)) l (Nat.le_refl m'.output.size)
    rwa [hl] at hkeeps
  rw [hend.output] at hprinted
  refine ⟨m', hk, ?_, hsteps, Array.eq_empty_of_size_eq_zero (Nat.le_zero.1 hprinted)⟩
  simpa [isDone] using hrunning

end Reaches

/-! ## The loop -/

/-- The bank at the head of the loop after a number of passes. -/
def looped (b : Bank) (j : Nat) : Bank :=
  { r1 := b.r1, r2 := b.r2, r3 := whole (min j (2 ^ 53)),
    r4 := if j = 0 then b.r4 else 0.0,
    r5 := (improve b.r1)^[j] 1.0,
    r6 := if j = 0 then b.r6 else (improve b.r1)^[j] 1.0 }

theorem looped_zero (b : Bank) : looped b 0 = { b with r3 := 0.0, r5 := 1.0 } := by
  have hzero : whole 0 = 0.0 := by decide +kernel
  simp [looped, hzero]

theorem pass_looped (b : Bank) (j : Nat) : pass (looped b j) = looped b (j + 1) := by
  simp only [pass, looped, whole_min_add_one, Function.iterate_succ_apply', Nat.succ_ne_zero,
    if_false]

/-- The loop is gone through as long as the counter takes values other than that of `R2`. -/
theorem reaches_looped {b : Bank} {j : Nat}
    (hne : ∀ i < j, value? b.r2 ≠ some ((min i (2 ^ 53) : Nat) : ℚ)) (limit : Option Int)
    (tracing : Bool) :
    Reaches (Machine.start program b limit tracing) (2 + 10 * j) 2 (looped b j) := by
  induction j with
  | zero =>
    rw [looped_zero]
    exact (reaches_start b limit tracing).opening
  | succ j ih =>
    have hdiffers : ((looped b j).r3 == (looped b j).r2) = false := by
      refine Bool.eq_false_iff.2 fun heq => hne j (Nat.lt_succ_self j) ?_
      exact (whole_beq_iff (Nat.min_le_right j (2 ^ 53))).1 heq
    rw [← pass_looped]
    exact (ih fun i hi => hne i (Nat.lt_succ_of_lt hi)).pass hdiffers

/-! ## Counts that are reached -/

/-- The bank at the end of the program after a number of passes. -/
def result (b : Bank) (n : Nat) : Bank :=
  { r1 := b.r1, r2 := b.r2, r3 := whole n, r4 := 1.0,
    r5 := (improve b.r1)^[n] 1.0,
    r6 := if n = 0 then b.r6 else (improve b.r1)^[n] 1.0 }

/-- What `R3` to `R5` held at the start, and `R6` unless there is no pass, leaves no trace. -/
theorem result_congr {b b' : Bank} {n : Nat} (h1 : b'.r1 = b.r1) (h2 : b'.r2 = b.r2)
    (h6 : n = 0 → b'.r6 = b.r6) : result b' n = result b n := by
  unfold result
  rw [h1, h2]
  split
  · rename_i hzero
    rw [h6 hzero]
  · rfl

section Counted

variable {b : Bank} {n : Nat}

/-- If `R2` is a number that the counter reaches, so is the last instruction. -/
theorem reaches_last (hn : n ≤ 2 ^ 53) (h2 : value? b.r2 = some (n : ℚ)) (limit : Option Int)
    (tracing : Bool) :
    Reaches (Machine.start program b limit tracing) (10 * n + 5) 12 (result b n) := by
  have hbefore : ∀ i < n, value? b.r2 ≠ some ((min i (2 ^ 53) : Nat) : ℚ) := by
    intro i hi heq
    rw [h2, Nat.min_eq_left (Nat.le_of_lt (hi.trans_le hn))] at heq
    have hcast : (n : ℚ) = (i : ℚ) := Option.some.inj heq
    exact hi.ne' (by exact_mod_cast hcast)
  have hequal : ((looped b n).r3 == (looped b n).r2) = true := by
    show (whole (min n (2 ^ 53)) == b.r2) = true
    rw [Nat.min_eq_left hn]
    exact (whole_beq_iff hn).2 h2
  have hbank : { looped b n with r4 := 1.0 } = result b n := by
    unfold looped result
    rw [Nat.min_eq_left hn]
  have hleft := (reaches_looped hbefore limit tracing).leave hequal
  rwa [hbank, show 2 + 10 * n + 3 = 10 * n + 5 by omega] at hleft

theorem after_of_count (hn : n ≤ 2 ^ 53) (h2 : value? b.r2 = some (n : ℚ)) (limit : Option Int)
    (tracing : Bool) :
    ∃ m, after (10 * n + 7) (Machine.start program b limit tracing) = (m, none) ∧
      Finished (10 * n + 6) (result b n) m :=
  (reaches_last hn h2 limit tracing).closing

theorem run_of_count (hn : n ≤ 2 ^ 53) (h2 : value? b.r2 = some (n : ℚ)) (tracing : Bool) :
    ∃ m, (Machine.start program b none tracing).run (10 * n + 8) = (m, .stopped) ∧
      Finished (10 * n + 6) (result b n) m := by
  obtain ⟨m, hafter, hm⟩ := after_of_count hn h2 none tracing
  have hd : m.isDone = true := by simp [isDone, hm.status]
  exact ⟨_, run_of_after_done rfl hafter hd, hm.trace _⟩

theorem runWith_of_count_of_le (hn : n ≤ 2 ^ 53) (h2 : value? b.r2 = some (n : ℚ))
    (tracing : Bool) {limit : Int} (hle : 10 * n + 6 ≤ limit) (fuel : Nat) :
    ∃ m, (Machine.start program b (some limit) tracing).runWith fuel = (m, .stopped) ∧
      Finished (10 * n + 6) (result b n) m := by
  obtain ⟨m, hrun, hm⟩ := run_of_count hn h2 tracing
  have hsteps := hm.steps
  exact ⟨_, runWith_of_le hrun (by simp) (by omega) fuel, hm.status, hm.pc, hm.steps, hm.bank,
    hm.output⟩

/-- A limit of fewer instructions cuts the run off before the last one, the one that prints. -/
theorem runWith_cut_off (hn : n ≤ 2 ^ 53) (h2 : value? b.r2 = some (n : ℚ)) (tracing : Bool)
    {limit : Int} (hlt : limit < 10 * n + 6) (fuel : Nat) :
    ∃ m, (Machine.start program b (some limit) tracing).runWith fuel =
      (m, .failed (.atLimit limit m.pc)) ∧ m.status = .running ∧ m.output = #[] := by
  obtain ⟨m, hrun, hm⟩ := run_of_count hn h2 tracing
  have hsteps := hm.steps
  have hlong : ∀ fuel m' e, (Machine.start program b none tracing).run fuel = (m', e) →
      e ≠ .unfinished → max limit 0 < (m'.steps : Int) := by
    intro fuel m' e h he
    cases run_unique h hrun he (by simp)
    omega
  obtain ⟨m', hafter, -, hcut⟩ := run_withLimit_of_gt rfl rfl hlong
  have hlast := reaches_last hn h2 none tracing
  rw [show 10 * n + 5 = (max limit 0).toNat + (10 * n + 5 - (max limit 0).toNat) by omega] at hlast
  obtain ⟨m'', hafter', hstatus, -, hout⟩ := hlast.earlier rfl
  rw [hafter] at hafter'
  cases hafter'
  exact ⟨_, runWith_eq rfl hcut (by simp) fuel, hstatus, hout⟩

theorem runWith_of_count_of_lt (hn : n ≤ 2 ^ 53) (h2 : value? b.r2 = some (n : ℚ))
    (tracing : Bool) {limit : Int} (hlt : limit < 10 * n + 6) (fuel : Nat) :
    ∃ m, (Machine.start program b (some limit) tracing).runWith fuel =
      (m, .failed (.atLimit limit m.pc)) := by
  obtain ⟨m, hrun, -, -⟩ := runWith_cut_off hn h2 tracing hlt fuel
  exact ⟨m, hrun⟩

end Counted

/-! ## The square root -/

/-- What the square root of `x` comes to after `n` improvements. -/
def root (x : Float) (n : Nat) : Float := if n = 0 then 0.0 else (improve x)^[n] 1.0

theorem start_natCast (x : Float) {n : Nat} (hn : n ≤ 2 ^ 53) :
    start (.real x) (.int n) = .ok { r1 := x, r2 := whole n } := by
  have hcount : Scalar.toReal (.int n) = .ok (whole n) := by
    simp only [Scalar.toReal, ofInt?_natCast hn]
  unfold start Bank.ofScalars
  rw [hcount]
  rfl

/-- The square root with a count is a run from a bank that holds the number and the count. -/
theorem squareRoot_natCast (fuel : Nat) (x : Float) {n : Nat} (hn : n ≤ 2 ^ 53)
    (limit : Option Int) :
    squareRoot fuel (.real x) (.int n) limit =
      answer ((Machine.start program { r1 := x, r2 := whole n } limit false).runWith fuel) := by
  unfold squareRoot
  rw [start_natCast x hn]
  rfl

theorem answer_of_finished {k n : Nat} {x : Float} {m : Machine}
    (h : Finished k (result { r1 := x, r2 := whole n } n) m) :
    answer (m, .stopped) = .ok (some (root x n)) := by
  show Except.ok (some m.bank.r6) = _
  rw [h.bank]
  rfl

section Root

variable (x : Float) {n : Nat}

/-- Without a limit the square root is what the improvements come to, given enough fuel. -/
theorem squareRoot_unlimited (hn : n ≤ 2 ^ 53) {fuel : Nat} (hfuel : 10 * n + 8 ≤ fuel) :
    squareRoot fuel (.real x) (.int n) none = .ok (some (root x n)) := by
  obtain ⟨m, hrun, hm⟩ := run_of_count (b := { r1 := x, r2 := whole n }) hn (value?_whole hn) false
  have hmore := run_mono hrun (by simp) (fuel - (10 * n + 8))
  rw [Nat.add_sub_cancel' hfuel] at hmore
  rw [squareRoot_natCast fuel x hn, ← answer_of_finished hm, ← hmore]
  rfl

theorem squareRoot_of_le (hn : n ≤ 2 ^ 53) {limit : Int} (hle : 10 * n + 6 ≤ limit) (fuel : Nat) :
    squareRoot fuel (.real x) (.int n) (some limit) = .ok (some (root x n)) := by
  obtain ⟨m, hrun, hm⟩ :=
    runWith_of_count_of_le (b := { r1 := x, r2 := whole n }) hn (value?_whole hn) false hle fuel
  rw [squareRoot_natCast fuel x hn, hrun, answer_of_finished hm]

theorem squareRoot_of_lt (hn : n ≤ 2 ^ 53) {limit : Int} (hlt : limit < 10 * n + 6) (fuel : Nat) :
    ∃ pc, squareRoot fuel (.real x) (.int n) (some limit) =
      .error (.fault (.atLimit limit pc)) := by
  obtain ⟨m, hrun⟩ :=
    runWith_of_count_of_lt (b := { r1 := x, r2 := whole n }) hn (value?_whole hn) false hlt fuel
  exact ⟨m.pc, by rw [squareRoot_natCast fuel x hn, hrun]; rfl⟩

end Root

/-- **The program makes as many improvements as `R2` says**, if `R2` is a whole number from zero to
`2 ^ 53`. Then it halts after `10 * n + 6` instructions with the estimate in `R6`, printed once, and
the counter at `n`; what `R3` to `R5` held, and `R6` unless `n` is zero, does not matter. A limit of
at least that many instructions changes nothing, and any other cuts the run off, which is told
unless the limit has too many digits. The square root of a number is the estimate under the same
conditions. -/
theorem improves_as_often_as_told (b : Bank) (tracing : Bool) {n : Nat} (hn : n ≤ 2 ^ 53)
    (h2 : value? b.r2 = some (n : ℚ)) :
    (∃ m, (Machine.start program b none tracing).run (10 * n + 8) = (m, .stopped) ∧
      Finished (10 * n + 6) (result b n) m ∧ value? m.bank.r3 = some (n : ℚ)) ∧
    (∀ b' : Bank, b'.r1 = b.r1 → b'.r2 = b.r2 → (n = 0 → b'.r6 = b.r6) →
      ∃ m, (Machine.start program b' none tracing).run (10 * n + 8) = (m, .stopped) ∧
        Finished (10 * n + 6) (result b n) m) ∧
    (∀ (limit : Int) (fuel : Nat),
      (10 * n + 6 ≤ limit →
        ∃ m, (Machine.start program b (some limit) tracing).runWith fuel = (m, .stopped) ∧
          Finished (10 * n + 6) (result b n) m) ∧
      (limit < 10 * n + 6 →
        ∃ m, (Machine.start program b (some limit) tracing).runWith fuel =
          (m, .failed (.atLimit limit m.pc)))) ∧
    (∀ fuel ≥ 10 * n + 8, squareRoot fuel (.real b.r1) (.int n) none = .ok (some (root b.r1 n))) ∧
    ∀ (limit : Int) (fuel : Nat),
      (10 * n + 6 ≤ limit →
        squareRoot fuel (.real b.r1) (.int n) (some limit) = .ok (some (root b.r1 n))) ∧
      (limit < 10 * n + 6 →
        ∃ pc, squareRoot fuel (.real b.r1) (.int n) (some limit) =
          .error (.fault (.atLimit limit pc))) := by
  refine ⟨?_, ?_, ?_, ?_, ?_⟩
  · obtain ⟨m, hrun, hm⟩ := run_of_count hn h2 tracing
    exact ⟨m, hrun, hm, by rw [hm.bank]; exact value?_whole hn⟩
  · intro b' h1' h2' h6'
    rw [← result_congr h1' h2' h6']
    exact run_of_count hn (h2' ▸ h2) tracing
  · exact fun limit fuel => ⟨fun hle => runWith_of_count_of_le hn h2 tracing hle fuel,
      fun hlt => runWith_of_count_of_lt hn h2 tracing hlt fuel⟩
  · exact fun fuel hfuel => squareRoot_unlimited b.r1 hn hfuel
  · exact fun limit fuel => ⟨fun hle => squareRoot_of_le b.r1 hn hle fuel,
      fun hlt => squareRoot_of_lt b.r1 hn hlt fuel⟩

/-- Two improvements of the square root of four. -/
theorem improves_as_often_as_told_twice :
    value? 2.0 = some ((2 : Nat) : ℚ) ∧
      ∃ m, (Machine.start program { r1 := 4.0, r2 := 2.0 } none false).run 28 = (m, .stopped) ∧
        m.steps = 26 ∧ m.bank.r6 = 2.05 ∧ m.output.size = 1 ∧
          squareRoot 0 (.real 4.0) (.int 2) (some 26) = .ok (some 2.05) ∧
            ∃ pc, squareRoot 0 (.real 4.0) (.int 2) (some 25) =
              .error (.fault (.limitExceeded 25 pc)) := by
  have htwo : value? 2.0 = some ((2 : Nat) : ℚ) :=
    (whole_beq_iff (by decide)).1 (by decide +kernel)
  have hroot : root 4.0 2 = 2.05 := by decide +kernel
  obtain ⟨⟨m, hrun, hm, -⟩, -, -, -, hlimits⟩ :=
    improves_as_often_as_told { r1 := 4.0, r2 := 2.0 } false (by decide) htwo
  refine ⟨htwo, m, hrun, hm.steps, ?_, by rw [hm.output]; rfl, ?_, (hlimits 25 0).2 (by decide)⟩
  · rw [hm.bank]
    exact hroot
  · rw [← hroot]
    exact (hlimits 26 0).1 (by decide)

/-- Two improvements under a limit with too many digits: there is no square root, but the fault is
not that of the limit. -/
theorem squareRoot_without_limit_fault :
    longLimit < 10 * (2 : Nat) + 6 ∧ ∀ fuel pc,
      squareRoot fuel (.real 4.0) (.int (2 : Nat)) (some longLimit) ≠
        .error (.fault (.limitExceeded longLimit pc)) := by
  have hlt : longLimit < 10 * (2 : Nat) + 6 := Int.lt_of_le_of_lt longLimit_nonpos (by decide)
  refine ⟨hlt, fun fuel pc h => ?_⟩
  obtain ⟨pc', hcut⟩ := squareRoot_of_lt 4.0 (by decide) hlt fuel
  rw [hcut, atLimit_longLimit] at h
  cases h

/-! ## Counts that are never reached -/

section Endless

variable {b : Bank} (h2 : ∀ n : Nat, n ≤ 2 ^ 53 → value? b.r2 ≠ some (n : ℚ)) (tracing : Bool)

include h2

/-- After any number of steps the machine is at work, since it still is after as many passes. -/
theorem after_without_count (limit : Option Int) (k : Nat) :
    ∃ m, after k (Machine.start program b limit tracing) = (m, none) ∧ m.status = .running ∧
      m.steps = k ∧ m.output = #[] := by
  have hloop := reaches_looped (j := k)
    (fun i _ => h2 (min i (2 ^ 53)) (Nat.min_le_right i (2 ^ 53))) limit tracing
  rw [show 2 + 10 * k = k + (2 + 9 * k) by omega] at hloop
  exact hloop.earlier rfl

theorem run_without_count (fuel : Nat) :
    ((Machine.start program b none tracing).run fuel).2 = .unfinished := by
  rcases after_of_run rfl (Prod.eta ((Machine.start program b none tracing).run fuel)).symm with
    ⟨-, k, m, hm, hd, -⟩ | ⟨f, k, -, hf⟩ | hun
  · obtain ⟨m', hm', hstatus, -, -⟩ := after_without_count h2 tracing none k
    rw [hm'] at hm
    cases hm
    simp [isDone, hstatus] at hd
  · obtain ⟨m', hm', -, -, -⟩ := after_without_count h2 tracing none k
    rw [hm'] at hf
    cases hf
  · exact hun

theorem runWith_without_count (limit : Int) (fuel : Nat) :
    ∃ m, (Machine.start program b (some limit) tracing).runWith fuel =
      (m, .failed (.atLimit limit m.pc)) ∧ m.output = #[] := by
  obtain ⟨m, hafter, -, hcut⟩ := run_withLimit_of_gt (n := limit) rfl rfl fun fuel m e hrun he => by
    have hun := run_without_count h2 tracing fuel
    rw [hrun] at hun
    exact absurd hun he
  obtain ⟨m', hm', -, -, hout⟩ := after_without_count h2 tracing none (max limit 0).toNat
  rw [hafter] at hm'
  cases hm'
  exact ⟨_, runWith_eq rfl hcut (by simp) fuel, hout⟩

end Endless

/-- **The program never stops on a count it cannot reach**: if `R2` is no whole number from zero to
`2 ^ 53`, every step leaves the machine at work with nothing printed. So every limit is exceeded,
which is told unless it has too many digits, and a run without one does not end. -/
theorem endless_without_count (b : Bank) (tracing : Bool)
    (h2 : ∀ n : Nat, n ≤ 2 ^ 53 → value? b.r2 ≠ some (n : ℚ)) :
    (∀ (limit : Option Int) (k : Nat),
      ∃ m, after k (Machine.start program b limit tracing) = (m, none) ∧ m.status = .running ∧
        m.steps = k ∧ m.output = #[]) ∧
    (∀ (limit : Int) (fuel : Nat),
      ∃ m, (Machine.start program b (some limit) tracing).runWith fuel =
        (m, .failed (.atLimit limit m.pc)) ∧ m.output = #[]) ∧
    ∀ fuel, ((Machine.start program b none tracing).run fuel).2 = .unfinished :=
  ⟨after_without_count h2 tracing, runWith_without_count h2 tracing, run_without_count h2 tracing⟩

/-- Two and a half is no count. -/
theorem value?_fraction_ne (n : Nat) : value? 2.5 ≠ some (n : ℚ) := by
  have hvalue : value? 2.5 = some (5 / 2) := by
    have hratio : ratio (pattern 2.5) = (5 * 2 ^ 50, 2 ^ 51) := by decide +kernel
    have hsign : isNegative 2.5 = false := by decide +kernel
    unfold value?
    rw [if_pos (by decide +kernel), hratio, hsign]
    norm_num
  intro heq
  rw [hvalue] at heq
  have hcast : (5 / 2 : ℚ) = n := Option.some.inj heq
  rw [div_eq_iff (by norm_num)] at hcast
  have hnat : 5 = n * 2 := by exact_mod_cast hcast
  omega

/-- There are no two and a half improvements. -/
theorem endless_without_count_fraction :
    (∀ n : Nat, n ≤ 2 ^ 53 → value? 2.5 ≠ some (n : ℚ)) ∧
      ∀ fuel, ((Machine.start program { r1 := 4.0, r2 := 2.5 } none false).run fuel).2 =
        .unfinished := by
  have hnot : ∀ n : Nat, n ≤ 2 ^ 53 → value? 2.5 ≠ some (n : ℚ) := fun n _ => value?_fraction_ne n
  exact ⟨hnot, (endless_without_count { r1 := 4.0, r2 := 2.5 } false hnot).2.2⟩

/-- Nor does the fault of a limit with too many digits tell that they are never made. -/
theorem endless_without_limit_fault :
    (∀ n : Nat, n ≤ 2 ^ 53 → value? 2.5 ≠ some (n : ℚ)) ∧ ∀ fuel m pc,
      (Machine.start program { r1 := 4.0, r2 := 2.5 } (some longLimit) false).runWith fuel ≠
        (m, .failed (.limitExceeded longLimit pc)) := by
  refine ⟨fun n _ => value?_fraction_ne n, fun fuel m pc h => ?_⟩
  obtain ⟨m', hcut, -⟩ := runWith_without_count (b := { r1 := 4.0, r2 := 2.5 })
    (fun n _ => value?_fraction_ne n) false longLimit fuel
  rw [hcut, atLimit_longLimit] at h
  cases h

end RegisterMachine.Heron
