import Mathlib.Data.List.Induction
import RegisterMachine.Builder
import RegisterMachine.Proofs.Number.ReadBack

/-!
# Construction as a log of calls

A caller of a builder sees what its calls answer. From the calls and their answers alone the program
can be told: an instruction stands at the index at which it was appended and gives way only to a
replacement that was answered with success, and a call that is refused leaves no trace.

* `Builder.Call`, `Builder.Answer`, `Builder.call`: one call with its answer. A refused call leaves
  the builder as it was.
* `Builder.built`, `Builder.transcript`: the builder after calls on a new one, and the calls with
  what they answered.
* `Answer.DecidedBy`, `Answer.DecidedAt`: when a call is refused, and with which complaint.
* `Builder.appended`, `Builder.slots`, `Builder.lastPatch?`, `Builder.final`: what a transcript says
  about the instructions that were appended, the indices that were answered, the last replacement at
  an index, the program.

Principal results: `Builder.call_effected` (a call appends, replaces or leaves alone, as its answer
says), `Replayed.step` and `replayed` (the transcript tells the program, after one more call and
after all), `Builder.transcript_replays`.
-/

set_option autoImplicit false

namespace RegisterMachine

/-! ## Arguments that stand for operands -/

/-- Whether an argument is an operand, a register or nothing. -/
def Argument.IsOperandLike : Argument → Prop
  | .operand _ | .register _ | .scalar .absent => True
  | _ => False

/-- Of two arguments that do not both stand for operands, the first that does not. -/
def Argument.blamed (src dst : Argument) : Argument :=
  if src.toOperand?.isSome then dst else src

theorem Argument.toOperand_cases (a : Argument) :
    (a.IsOperandLike ∧ ∃ o, a.toOperand? = some o ∧ a.toOperand = .ok o) ∨
      (¬ a.IsOperandLike ∧ a.toOperand? = none ∧ a.toOperand = .error (.ofArgument a)) := by
  cases a with
  | operand o => exact .inl ⟨trivial, o, rfl, rfl⟩
  | register r => exact .inl ⟨trivial, _, rfl, rfl⟩
  | scalar s =>
    cases s with
    | absent => exact .inl ⟨trivial, _, rfl, rfl⟩
    | _ => exact .inr ⟨id, rfl, rfl⟩
  | operator op => exact .inr ⟨id, rfl, rfl⟩
  | foreign shown => exact .inr ⟨id, rfl, rfl⟩

/-- An instruction is made of arguments if both stand for operands; else the first that does not is
complained about. -/
theorem Instruction.ofArguments_cases (op : Opcode) (src dst : Argument) :
    ((src.IsOperandLike ∧ dst.IsOperandLike) ∧ ∃ s d, src.toOperand? = some s ∧
      dst.toOperand? = some d ∧ ofArguments op src dst = .ok ⟨op, s, d⟩) ∨
    (¬ (src.IsOperandLike ∧ dst.IsOperandLike) ∧
      ofArguments op src dst = .error (.ofArgument (Argument.blamed src dst))) := by
  obtain ⟨hs, s, hs?, hs!⟩ | ⟨hs, hs?, hs!⟩ := src.toOperand_cases
  · obtain ⟨hd, d, hd?, hd!⟩ | ⟨hd, -, hd!⟩ := dst.toOperand_cases
    · exact .inl ⟨⟨hs, hd⟩, s, d, hs?, hd?, by rw [ofArguments, hs!, hd!]; rfl⟩
    · refine .inr ⟨fun h => hd h.2, ?_⟩
      rw [ofArguments, hs!, hd!, Argument.blamed, hs?]
      rfl
  · refine .inr ⟨fun h => hs h.1, ?_⟩
    rw [ofArguments, hs!, Argument.blamed, hs?]
    rfl

/-- The complaint about an argument shows its text, or is the failure to show it. -/
theorem BuildError.ofArgument_cases (a : Argument) :
    (∃ text, a.shown = .ok text ∧ ofArgument a = .unusable text) ∨
      ∃ e, a.shown = .error e ∧ ofArgument a = .unworded e := by
  cases h : a.shown with
  | ok text => exact .inl ⟨text, rfl, by rw [ofArgument, h]⟩
  | error e => exact .inr ⟨e, rfl, by rw [ofArgument, h]⟩

namespace Builder

/-! ## Calls and answers -/

/-- What a caller can ask of a builder. -/
inductive Call where
  | emit (op : Opcode) (src dst : Argument)
  | reserve
  | patch (index : Int) (op : Opcode) (src dst : Argument)
  | finish

/-- What a caller is answered. -/
inductive Answer where
  /-- The call had its effect. -/
  | done
  /-- The index of a reserved slot. -/
  | slot (index : Nat)
  /-- The program so far. -/
  | program (p : Program)
  /-- The call failed. -/
  | refused (e : BuildError)

/-- The outcome of a change that may fail: a failure leaves the builder as it was. -/
def settle (b : Builder) : Except BuildError Builder → Builder × Answer
  | .ok b' => (b', .done)
  | .error e => (b, .refused e)

/-- The builder after a call, and the answer. -/
def call (b : Builder) : Call → Builder × Answer
  | .emit op src dst => b.settle (b.emit op src dst)
  | .reserve => (b.reserve.2, .slot b.reserve.1)
  | .patch index op src dst => b.settle (b.patch index op src dst)
  | .finish => (b, .program b.finish)

/-- A call with its answer. -/
structure Entry where
  call : Call
  answer : Answer

/-- The builder after calls. -/
def after (b : Builder) (cs : List Call) : Builder := cs.foldl (fun b c => (b.call c).1) b

/-- Calls, each with what it is answered when its turn comes. -/
def answers (b : Builder) : List Call → List Entry
  | [] => []
  | c :: cs => ⟨c, (b.call c).2⟩ :: (b.call c).1.answers cs

/-- The builder after calls on a new one. -/
def built (cs : List Call) : Builder := empty.after cs

/-- Calls on a new builder with what they are answered. -/
def transcript (cs : List Call) : List Entry := empty.answers cs

theorem after_append (b : Builder) (cs ds : List Call) :
    b.after (cs ++ ds) = (b.after cs).after ds := List.foldl_append

theorem answers_append (b : Builder) (cs ds : List Call) :
    b.answers (cs ++ ds) = b.answers cs ++ (b.after cs).answers ds := by
  induction cs generalizing b with
  | nil => rfl
  | cons c cs ih => exact congrArg _ (ih _)

theorem answers_calls (b : Builder) (cs : List Call) : (b.answers cs).map Entry.call = cs := by
  induction cs generalizing b with
  | nil => rfl
  | cons c cs ih => exact congrArg _ (ih _)

theorem built_concat (cs : List Call) (c : Call) : built (cs ++ [c]) = ((built cs).call c).1 :=
  after_append _ _ _

/-- Earlier answers stay as they are, and the new one is that of the builder so far. -/
theorem transcript_concat (cs : List Call) (c : Call) :
    transcript (cs ++ [c]) = transcript cs ++ [⟨c, ((built cs).call c).2⟩] :=
  answers_append _ _ _

theorem answers_getElem? (b : Builder) (cs : List Call) (j : Nat) :
    (b.answers cs)[j]? = cs[j]?.map fun c => ⟨c, ((b.after (cs.take j)).call c).2⟩ := by
  induction cs generalizing b j with
  | nil => rfl
  | cons c cs ih =>
    cases j with
    | zero => rfl
    | succ j => exact ih _ j

/-- A call has an answer at its place in a sequence of calls on a new builder. -/
def Answered (cs : List Call) (j : Nat) (c : Call) (a : Answer) : Prop :=
  (transcript cs)[j]? = some ⟨c, a⟩

namespace Answered

variable {cs : List Call} {j : Nat} {c : Call} {a : Answer}

theorem call_eq (h : Answered cs j c a) : cs[j]? = some c := by
  have hc : ((transcript cs).map Entry.call)[j]? = some c := by
    rw [List.getElem?_map, h]
    rfl
  rwa [transcript, answers_calls] at hc

theorem answer_eq (h : Answered cs j c a) : a = ((built (cs.take j)).call c).2 := by
  have hat := answers_getElem? empty cs j
  rw [h.call_eq, Option.map_some] at hat
  exact congrArg Entry.answer (Option.some.inj (h.symm.trans hat))

end Answered

/-! ## What a transcript says -/

/-- The instruction that a call gives. -/
def Call.instruction? : Call → Option Instruction
  | .emit op src dst | .patch _ op src dst =>
    match src.toOperand?, dst.toOperand? with
    | some s, some d => some ⟨op, s, d⟩
    | _, _ => none
  | .reserve => some { op := .known .nop }
  | .finish => none

namespace Entry

/-- Whether an entry is an appended instruction or a reserved slot. -/
def grows : Entry → Bool
  | ⟨.emit .., .done⟩ | ⟨.reserve, .slot _⟩ => true
  | _ => false

/-- The index that an entry answers. -/
def slot? : Entry → Option Nat
  | ⟨_, .slot i⟩ => some i
  | _ => none

/-- The instruction that an entry appended. -/
def appended? (e : Entry) : Option Instruction := if e.grows then e.call.instruction? else none

/-- The instruction that an entry put at an index in place of another. -/
def patchedAt? (i : Nat) (e : Entry) : Option Instruction :=
  match e with
  | ⟨.patch index op src dst, .done⟩ =>
    if index = i then (Call.patch index op src dst).instruction? else none
  | _ => none

end Entry

/-- The instructions that were appended, in order. -/
def appended (es : List Entry) : List Instruction := es.filterMap Entry.appended?

/-- The indices that were answered, in order. -/
def slots (es : List Entry) : List Nat := es.filterMap Entry.slot?

/-- The instruction of the last successful replacement at an index. -/
def lastPatch? (es : List Entry) (i : Nat) : Option Instruction :=
  es.reverse.findSome? (Entry.patchedAt? i)

/-- The program according to a transcript: at each index what was put there last, and where nothing
was replaced what was appended there. -/
def final (es : List Entry) : List Instruction :=
  (appended es).mapIdx fun i ins => (lastPatch? es i).getD ins

theorem filterMap_concat {α : Type} (f : Entry → Option α) (es : List Entry) (e : Entry) :
    (es ++ [e]).filterMap f = es.filterMap f ++ (f e).toList := by
  rw [List.filterMap_append]
  cases h : f e <;> simp [h]

theorem lastPatch?_concat (es : List Entry) (e : Entry) (i : Nat) :
    lastPatch? (es ++ [e]) i = (e.patchedAt? i).or (lastPatch? es i) := by
  rw [lastPatch?, List.reverse_append, lastPatch?]
  cases h : e.patchedAt? i <;> simp [h]

/-- An entry that appended nothing adds nothing to what a transcript says about appending. -/
theorem concat_of_not_grows (es : List Entry) {e : Entry} (hg : e.grows = false)
    (hs : e.slot? = none) :
    (es ++ [e]).countP Entry.grows = es.countP Entry.grows ∧
      appended (es ++ [e]) = appended es ∧ slots (es ++ [e]) = slots es := by
  have ha : e.appended? = none := by rw [Entry.appended?, hg]; rfl
  refine ⟨?_, ?_, ?_⟩
  · rw [List.countP_append, List.countP_singleton, hg]
    rfl
  · rw [appended, filterMap_concat, ha, Option.toList_none, List.append_nil, appended]
  · rw [slots, filterMap_concat, hs, Option.toList_none, List.append_nil, slots]

/-! ## What a call does -/

/-- What an entry did to the builder that answered it. -/
inductive Effected (b : Builder) (e : Entry) : Builder → Prop where
  /-- An instruction was appended, and an index in the answer is its own. -/
  | grew (ins : Instruction) (grows : e.grows = true) (appended : e.appended? = some ins)
      (slot : ∀ i ∈ e.slot?, i = b.size) (patched : ∀ i, e.patchedAt? i = none) :
      Effected b e (b.push ins)
  /-- An instruction inside the program was replaced. -/
  | replaced (i : Nat) (ins : Instruction) (inside : i < b.size) (grows : e.grows = false)
      (slot : e.slot? = none)
      (patched : ∀ j, e.patchedAt? j = if i = j then some ins else none) :
      Effected b e (b.replace i ins)
  /-- Nothing happened. -/
  | kept (grows : e.grows = false) (slot : e.slot? = none)
      (patched : ∀ i, e.patchedAt? i = none) : Effected b e b

theorem patch_of_outside (b : Builder) {index : Int} (op : Opcode) (src dst : Argument)
    (h : index < 0 ∨ (b.size : Int) ≤ index) :
    b.patch index op src dst = .error (.ofIndex index b.size) := by
  rw [patch, if_pos h]
  rfl

theorem patch_of_inside (b : Builder) {index : Int} (op : Opcode) (src dst : Argument)
    (h : ¬ (index < 0 ∨ (b.size : Int) ≤ index)) :
    b.patch index op src dst =
      (Instruction.ofArguments op src dst).map fun ins => b.replace index.toNat ins := by
  rw [patch, if_neg h]
  cases Instruction.ofArguments op src dst <;> rfl

theorem emit_eq (b : Builder) (op : Opcode) (src dst : Argument) :
    b.emit op src dst = (Instruction.ofArguments op src dst).map b.push := by
  rw [emit]
  cases Instruction.ofArguments op src dst <;> rfl

/-- **A call appends, replaces or leaves alone**, and its answer tells which. -/
theorem call_effected (b : Builder) (c : Call) : Effected b ⟨c, (b.call c).2⟩ (b.call c).1 := by
  cases c with
  | emit op src dst =>
    rw [call, emit_eq]
    obtain ⟨-, s, d, hs, hd, hok⟩ | ⟨-, herr⟩ := Instruction.ofArguments_cases op src dst
    · rw [hok]
      refine .grew ⟨op, s, d⟩ rfl ?_ (fun i hi => nomatch hi) fun _ => rfl
      simp [Entry.appended?, Entry.grows, Except.map, settle, Call.instruction?, hs, hd]
    · rw [herr]
      exact .kept rfl rfl fun _ => rfl
  | reserve => exact .grew placeholder rfl rfl (fun i hi => (Option.some.inj hi).symm) fun _ => rfl
  | patch index op src dst =>
    rw [call]
    by_cases hout : index < 0 ∨ (b.size : Int) ≤ index
    · rw [patch_of_outside b op src dst hout]
      exact .kept rfl rfl fun _ => rfl
    · rw [patch_of_inside b op src dst hout]
      obtain ⟨-, s, d, hs, hd, hok⟩ | ⟨-, herr⟩ := Instruction.ofArguments_cases op src dst
      · rw [hok]
        refine .replaced index.toNat ⟨op, s, d⟩ (by omega) rfl rfl fun j => ?_
        have hj : index = (j : Int) ↔ index.toNat = j := by omega
        simp [Entry.patchedAt?, Except.map, settle, Call.instruction?, hs, hd, hj]
      · rw [herr]
        exact .kept rfl rfl fun _ => rfl
  | finish => exact .kept rfl rfl fun _ => rfl

@[simp] theorem size_push (b : Builder) (ins : Instruction) : (b.push ins).size = b.size + 1 :=
  Array.size_push ins

theorem code_replace {b : Builder} {i : Nat} (h : i < b.size) (ins : Instruction) :
    (b.replace i ins).code = b.code.setIfInBounds i ins := by
  rw [replace, Array.getElem?_eq_getElem h]

theorem size_replace {b : Builder} {i : Nat} (h : i < b.size) (ins : Instruction) :
    (b.replace i ins).size = b.size := by
  rw [size, code_replace h, Array.size_setIfInBounds, size]

/-! ## The transcript tells the program -/

/-- What a transcript says about the builder that answered it. -/
structure Replayed (b : Builder) (es : List Entry) : Prop where
  /-- The size is the number of instructions appended and of slots reserved. -/
  size : b.size = es.countP Entry.grows
  length : (appended es).length = b.size
  /-- Answered indices are those of instructions, and they increase. -/
  bounded : ∀ i ∈ slots es, i < b.size
  increasing : (slots es).Pairwise (· < ·)
  /-- Nothing is replaced past the end. -/
  patches : ∀ i, b.size ≤ i → lastPatch? es i = none
  code : ∀ i, b.code[i]? = (appended es)[i]?.map fun ins => (lastPatch? es i).getD ins

namespace Replayed

variable {b b' : Builder} {es : List Entry} {e : Entry}

theorem nil : Replayed empty [] :=
  ⟨rfl, rfl, fun _ h => absurd h List.not_mem_nil, .nil, fun _ _ => rfl, fun _ => rfl⟩

/-- A call that appends keeps the transcript true. -/
theorem grew (h : Replayed b es) {ins : Instruction} (hg : e.grows = true)
    (ha : e.appended? = some ins) (hs : ∀ i ∈ e.slot?, i = b.size)
    (hp : ∀ i, e.patchedAt? i = none) : Replayed (b.push ins) (es ++ [e]) := by
  have happ : appended (es ++ [e]) = appended es ++ [ins] := by
    rw [appended, filterMap_concat, ha, Option.toList_some, appended]
  have hlast : ∀ i, lastPatch? (es ++ [e]) i = lastPatch? es i := fun i => by
    rw [lastPatch?_concat, hp, Option.none_or]
  have hslots : slots (es ++ [e]) = slots es ++ e.slot?.toList := filterMap_concat _ es e
  refine ⟨?_, ?_, fun i hi => ?_, ?_, fun i hi => ?_, fun i => ?_⟩
  · rw [size_push, h.size, List.countP_append, List.countP_singleton, if_pos hg]
  · rw [happ, List.length_append, h.length, size_push, List.length_singleton]
  · rw [hslots, List.mem_append, Option.mem_toList] at hi
    rw [size_push]
    obtain hi | hi := hi
    · exact Nat.lt_succ_of_lt (h.bounded i hi)
    · exact hs i hi ▸ Nat.lt_succ_self _
  · rw [hslots, List.pairwise_append]
    refine ⟨h.increasing, ?_, fun i hi j hj => ?_⟩
    · cases e.slot? <;> simp
    · exact hs j (Option.mem_toList.1 hj) ▸ h.bounded i hi
  · rw [size_push] at hi
    rw [hlast, h.patches i (Nat.le_of_succ_le hi)]
  · rw [happ, hlast, push, Array.getElem?_push, List.getElem?_append, h.length]
    by_cases hi : i = b.size
    · rw [hi, if_pos (show b.size = b.code.size from rfl), if_neg (Nat.lt_irrefl _), Nat.sub_self,
        h.patches _ (Nat.le_refl _)]
      rfl
    · rw [if_neg (show ¬ i = b.code.size from hi), h.code i]
      by_cases hlt : i < b.size
      · rw [if_pos hlt]
      · have hout : (appended es)[i]? = none := List.getElem?_eq_none (by rw [h.length]; omega)
        have hnew : [ins][i - b.size]? = none := List.getElem?_eq_none (by simp; omega)
        rw [if_neg hlt, hout, hnew]

/-- A call that replaces keeps the transcript true. -/
theorem replaced (h : Replayed b es) {i : Nat} {ins : Instruction} (hi : i < b.size)
    (hg : e.grows = false) (hs : e.slot? = none)
    (hp : ∀ j, e.patchedAt? j = if i = j then some ins else none) :
    Replayed (b.replace i ins) (es ++ [e]) := by
  obtain ⟨hcount, happ, hslots⟩ := concat_of_not_grows es hg hs
  have hlast : ∀ j, lastPatch? (es ++ [e]) j = if i = j then some ins else lastPatch? es j := by
    intro j
    rw [lastPatch?_concat, hp]
    split <;> rfl
  have hsize := size_replace hi ins
  refine ⟨?_, ?_, ?_, hslots ▸ h.increasing, fun j hj => ?_, fun j => ?_⟩
  · rw [hsize, hcount, h.size]
  · rw [happ, h.length, hsize]
  · rw [hslots, hsize]
    exact h.bounded
  · rw [hsize] at hj
    rw [hlast, if_neg (Nat.ne_of_lt (Nat.lt_of_lt_of_le hi hj)), h.patches j hj]
  · rw [code_replace hi, Array.getElem?_setIfInBounds, happ, hlast]
    by_cases hij : i = j
    · subst hij
      have hat : i < (appended es).length := h.length.symm ▸ hi
      rw [if_pos rfl, if_pos (show i < b.code.size from hi), if_pos rfl,
        List.getElem?_eq_getElem hat]
      rfl
    · rw [if_neg hij, if_neg hij, h.code j]

theorem kept (h : Replayed b es) (hg : e.grows = false) (hs : e.slot? = none)
    (hp : ∀ i, e.patchedAt? i = none) : Replayed b (es ++ [e]) := by
  obtain ⟨hcount, happ, hslots⟩ := concat_of_not_grows es hg hs
  have hlast : ∀ i, lastPatch? (es ++ [e]) i = lastPatch? es i := fun i => by
    rw [lastPatch?_concat, hp, Option.none_or]
  refine ⟨hcount ▸ h.size, happ ▸ h.length, hslots ▸ h.bounded, hslots ▸ h.increasing,
    fun i hi => ?_, fun i => ?_⟩
  · rw [hlast, h.patches i hi]
  · rw [happ, hlast, h.code i]

/-- **One more call keeps the transcript true.** -/
theorem step (h : Replayed b es) (he : Effected b e b') : Replayed b' (es ++ [e]) := by
  cases he with
  | grew ins hg ha hs hp => exact h.grew hg ha hs hp
  | replaced i ins hi hg hs hp => exact h.replaced hi hg hs hp
  | kept hg hs hp => exact h.kept hg hs hp

theorem code_eq_final (h : Replayed b es) : b.code.toList = final es := by
  refine List.ext_getElem? fun i => ?_
  rw [final, List.getElem?_mapIdx, Array.getElem?_toList, h.code i]

end Replayed

/-- **After any calls the transcript is true.** -/
theorem replayed (cs : List Call) : Replayed (built cs) (transcript cs) := by
  induction cs using List.reverseRecOn with
  | nil => exact .nil
  | append_singleton cs c ih =>
    rw [built_concat, transcript_concat]
    exact ih.step (call_effected _ c)

/-- The call that appends an instruction as it stands. -/
def Call.ofInstruction (ins : Instruction) : Call :=
  .emit ins.op (.operand ins.src) (.operand ins.dst)

theorem code_after_ofInstruction (b : Builder) (l : List Instruction) :
    (b.after (l.map Call.ofInstruction)).code.toList = b.code.toList ++ l := by
  induction l generalizing b with
  | nil => exact (List.append_nil _).symm
  | cons ins l ih =>
    have hpush : (b.push ins).code.toList = b.code.toList ++ [ins] := Array.toList_push
    calc (b.after ((ins :: l).map Call.ofInstruction)).code.toList
        = ((b.push ins).after (l.map Call.ofInstruction)).code.toList := rfl
      _ = b.code.toList ++ [ins] ++ l := by rw [ih, hpush]
      _ = b.code.toList ++ ins :: l := by rw [List.append_assoc, List.singleton_append]

/-! ## When calls are refused -/

/-- Whether an answer is that an index is outside the program. -/
def Answer.IsBadIndex (a : Answer) : Prop := ∃ index length, a = .refused (.badIndex index length)

/-- How a call is answered that its arguments decide. -/
structure Answer.DecidedBy (a : Answer) (src dst : Argument) : Prop where
  /-- It has its effect if both stand for operands. -/
  done : a = .done ↔ src.IsOperandLike ∧ dst.IsOperandLike
  /-- Otherwise the complaint shows the first that does not. -/
  unusable : ∀ text, a = .refused (.unusable text) ↔
    ¬ (src.IsOperandLike ∧ dst.IsOperandLike) ∧ (Argument.blamed src dst).shown = .ok text
  /-- If that cannot be shown, the answer is why. -/
  unworded : ∀ e, a = .refused (.unworded e) ↔
    ¬ (src.IsOperandLike ∧ dst.IsOperandLike) ∧ (Argument.blamed src dst).shown = .error e
  inside : ¬ a.IsBadIndex

theorem settle_ofArguments (b : Builder) (op : Opcode) (src dst : Argument)
    (f : Instruction → Builder) :
    (b.settle ((Instruction.ofArguments op src dst).map f)).2.DecidedBy src dst := by
  obtain ⟨hlike, s, d, -, -, hok⟩ | ⟨hlike, herr⟩ := Instruction.ofArguments_cases op src dst
  · rw [hok]
    exact ⟨iff_of_true rfl hlike, fun _ => iff_of_false (fun h => nomatch h) fun h => h.1 hlike,
      fun _ => iff_of_false (fun h => nomatch h) fun h => h.1 hlike, fun ⟨_, _, h⟩ => nomatch h⟩
  · obtain ⟨shown, hshown, hcomplaint⟩ | ⟨e, hshown, hcomplaint⟩ :=
      BuildError.ofArgument_cases (Argument.blamed src dst)
    · rw [herr, hcomplaint]
      refine ⟨iff_of_false (fun h => nomatch h) hlike, fun text => ?_, fun e => ?_,
        fun ⟨_, _, h⟩ => nomatch h⟩
      · simp [settle, Except.map, hlike, hshown]
      · simp [settle, Except.map, hshown]
    · rw [herr, hcomplaint]
      refine ⟨iff_of_false (fun h => nomatch h) hlike, fun text => ?_, fun e => ?_,
        fun ⟨_, _, h⟩ => nomatch h⟩
      · simp [settle, Except.map, hshown]
      · simp [settle, Except.map, hlike, hshown]

theorem emit_answer (b : Builder) (op : Opcode) (src dst : Argument) :
    (b.call (.emit op src dst)).2.DecidedBy src dst := by
  rw [call, emit_eq]
  exact b.settle_ofArguments op src dst b.push

/-- How a call is answered that looks at an index before its arguments. -/
structure Answer.DecidedAt (a : Answer) (index : Int) (size : Nat) (src dst : Argument) :
    Prop where
  /-- An index outside the program is complained about, whatever the arguments, -/
  badIndex : a.IsBadIndex ↔ (index < 0 ∨ (size : Int) ≤ index) ∧ Number.hasText index = true
  /-- unless it has too many digits for that. -/
  unworded : index < 0 ∨ (size : Int) ≤ index → Number.hasText index = false →
    a = .refused (.unworded .tooManyDigits)
  inside : ¬ (index < 0 ∨ (size : Int) ≤ index) → a.DecidedBy src dst

theorem patch_answer (b : Builder) (index : Int) (op : Opcode) (src dst : Argument) :
    (b.call (.patch index op src dst)).2.DecidedAt index b.size src dst := by
  rw [call]
  by_cases hout : index < 0 ∨ (b.size : Int) ≤ index
  · rw [patch_of_outside b op src dst hout]
    cases htext : Number.hasText index with
    | true =>
      rw [BuildError.ofIndex, if_pos htext]
      exact ⟨iff_of_true ⟨_, _, rfl⟩ ⟨hout, htext⟩,
        fun _ h => absurd (htext.symm.trans h) (by decide), fun h => absurd hout h⟩
    | false =>
      rw [BuildError.ofIndex, if_neg (by simp [htext])]
      exact ⟨iff_of_false (fun ⟨_, _, h⟩ => (nomatch h))
          fun h => absurd (htext.symm.trans h.2) (by decide),
        fun _ _ => rfl, fun h => absurd hout h⟩
  · rw [patch_of_inside b op src dst hout]
    have hdecided := b.settle_ofArguments op src dst (b.replace index.toNat)
    exact ⟨iff_of_false hdecided.inside fun h => hout h.1, fun h => absurd h hout,
      fun _ => hdecided⟩

/-- A refused call leaves the builder as it was. -/
theorem call_of_refused {b : Builder} {c : Call} {e : BuildError} (h : (b.call c).2 = .refused e) :
    (b.call c).1 = b := by
  have settled : ∀ r, (b.settle r).2 = .refused e → (b.settle r).1 = b := by
    intro r hr
    cases r with
    | ok b' => cases hr
    | error _ => rfl
  cases c with
  | emit op src dst => exact settled _ h
  | reserve => cases h
  | patch index op src dst => exact settled _ h
  | finish => rfl

/-- **A builder is a log that can be replayed.** Take any calls on a new builder, of which some may
be refused. Its size is the number of instructions appended and slots reserved. A reserved slot is
answered by the size before, so that answered indices increase. At each index stands what was last
put there, and else what was appended there, so that the program is that of emitting these
instructions directly. A replacement is refused for its index exactly if that is outside the program
then, and where the index does not decide, appending and replacing are refused exactly if an
argument stands for no operand; the complaint shows the index or the argument, and where these have
no text it is an error of its own. A refused call changes nothing, and a program that was handed out
is and stays that of its time. -/
theorem transcript_replays (cs : List Call) :
    (transcript cs).map Entry.call = cs ∧
    (built cs).size = (transcript cs).countP Entry.grows ∧
    (∀ j a, Answered cs j .reserve a → a = .slot (built (cs.take j)).size) ∧
    (slots (transcript cs)).Pairwise (· < ·) ∧
    (built cs).finish.toList = final (transcript cs) ∧
    (built ((final (transcript cs)).map Call.ofInstruction)).finish = (built cs).finish ∧
    (∀ j index op src dst a, Answered cs j (.patch index op src dst) a →
      a.DecidedAt index (built (cs.take j)).size src dst) ∧
    (∀ j op src dst a, Answered cs j (.emit op src dst) a → a.DecidedBy src dst) ∧
    (∀ j c e, Answered cs j c (.refused e) → built (cs.take (j + 1)) = built (cs.take j)) ∧
    ∀ j a, Answered cs j .finish a → a = .program (built (cs.take j)).code := by
  have hcode : (built cs).finish.toList = final (transcript cs) := (replayed cs).code_eq_final
  refine ⟨answers_calls empty cs, (replayed cs).size, ?_, (replayed cs).increasing, hcode, ?_, ?_,
    ?_, ?_, ?_⟩
  · intro j a h
    exact h.answer_eq
  · have hdirect := code_after_ofInstruction empty (final (transcript cs))
    exact Array.toList_inj.1 (hdirect.trans hcode.symm)
  · intro j index op src dst a h
    rw [h.answer_eq]
    exact patch_answer _ index op src dst
  · intro j op src dst a h
    rw [h.answer_eq]
    exact emit_answer _ op src dst
  · intro j c e h
    obtain ⟨hj, hget⟩ := List.getElem?_eq_some_iff.1 h.call_eq
    rw [List.take_succ_eq_append_getElem hj, hget, built_concat, call_of_refused h.answer_eq.symm]
  · intro j a h
    exact h.answer_eq

/-- A jump whose slot is reserved before its target is known, with two calls that are refused. -/
def forwardJump : List Call :=
  [.reserve, .emit (.known .prn) (.register .r1) (.scalar .absent),
    .patch (-1) (.known .nop) (.scalar .absent) (.scalar .absent),
    .patch 0 (.known .jmp) (.operand (.index 2)) (.scalar .absent),
    .emit (.known .prn) (.scalar (.int 1)) (.scalar .absent), .finish]

/-- The jump stands in its slot, and the refused calls changed nothing. -/
theorem transcript_replays_forwardJump :
    (built forwardJump).size = 2 ∧
    (built forwardJump).finish.toList =
      [⟨.known .jmp, .index 2, .absent⟩, ⟨.known .prn, .register .r1, .absent⟩] ∧
    slots (transcript forwardJump) = [0] ∧
    built (forwardJump.take 3) = built (forwardJump.take 2) ∧
    built (forwardJump.take 5) = built (forwardJump.take 4) ∧
    Answered forwardJump 5 .finish (.program (built forwardJump).finish) := by
  obtain ⟨-, hsize, hreserve, -, hcode, -, hpatch, hemit, hrefused, hfinish⟩ :=
    transcript_replays forwardJump
  exact ⟨hsize.trans rfl, hcode.trans rfl, rfl, hrefused 2 _ (.badIndex (-1) 2) rfl,
    hrefused 4 _ (.unusable ['1']) rfl, rfl⟩

/-- An index and an argument with too many digits: each is refused, but not as such. -/
theorem refused_without_complaint :
    let long : Int := (10 ^ Number.maxDigits : Nat)
    let nop : Opcode := .known .nop
    let none : Argument := .scalar .absent
    (((empty.size : Int) ≤ long) ∧
      ¬ (empty.call (.patch long nop none none)).2.IsBadIndex) ∧
    (¬ (Argument.scalar (.int long)).IsOperandLike ∧
      ∀ text, (empty.call (.emit nop (.scalar (.int long)) none)).2 ≠
        .refused (.unusable text)) := by
  intro long nop none
  have htext : Number.hasText long = false := Number.hasText_pow
  have hshown : (Argument.scalar (.int long)).shown = .error .tooManyDigits :=
    if_neg (by simp [htext])
  refine ⟨⟨Int.natCast_nonneg _, fun h => ?_⟩, id, fun text h => ?_⟩
  · have htext' := ((empty.patch_answer long nop none none).badIndex.1 h).2
    cases htext.symm.trans htext'
  · have hshown' := (((empty.emit_answer nop (.scalar (.int long)) none).unusable text).1 h).2
    cases hshown.symm.trans hshown'

end Builder

end RegisterMachine
