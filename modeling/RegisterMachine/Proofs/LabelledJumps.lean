import RegisterMachine.Proofs.Language
import RegisterMachine.Proofs.Reachable

/-!
# Jumps to labels

The index of a label counts the instructions above it, so it is that of an instruction or of the
end. A text that names its targets by labels alone is therefore assembled to a program whose jumps
stay inside, and no machine jumps out of it.

* `OnlyLabels`: no word of a text writes a target as a whole number.
* `RefersTo`: a word refers to a label, with the at sign or without it.
* `AtEnd`: a label is defined after the last instruction.
* `Program.JumpsInside`: every target of a program is the index of an instruction or of the end.

Principal results: `LabelIndex.le` (the index of a label is inside, and at the end for the labels
there), `Program.jumpsInside_of_onlyLabels`, `Driven.not_jumpedOut` (wherever a machine is brought
in such a program, it has not jumped out), `halts_after_jump_to_end` and
`labelled_jumps_stay_inside`.
-/

set_option autoImplicit false

namespace RegisterMachine

open Text

/-! ## Labels and their words -/

/-- No word of the lines writes a target as a whole number. -/
def OnlyLabels (ss : List (Option Statement)) : Prop :=
  ∀ s ∈ instructionLines ss, ∀ w ∈ s.2, ∀ cs, w = '@' :: cs → ¬ DashesAndDigits cs

instance (ss : List (Option Statement)) : Decidable (OnlyLabels ss) :=
  decidable_of_iff (∀ s ∈ instructionLines ss, ∀ w ∈ s.2,
      ¬ (w.head? = some '@' ∧ Labels.isNumeric w.tail = true)) <| by
    refine forall₂_congr fun s _ => forall₂_congr fun w _ => ?_
    simp only [isNumeric_eq_true_iff]
    constructor
    · rintro h cs rfl hform
      exact h ⟨rfl, hform⟩
    · rintro h ⟨hhead, hform⟩
      exact h w.tail (List.eq_cons_of_mem_head? hhead) hform

/-- A word refers to a label: its name after the at sign, unless that looks like a whole number, or
its bare name. -/
def RefersTo (name w : List Char) : Prop :=
  (w = '@' :: name ∧ ¬ DashesAndDigits name) ∨ (w = name ∧ Bare name)

/-- A label is defined after the last instruction. -/
def AtEnd (ss : List (Option Statement)) (name : List Char) : Prop :=
  ∃ i : Nat, ss[i]? = some (some (.label name)) ∧ instructionLines (ss.drop i) = []

theorem length_instructionLines_split (ss : List (Option Statement)) (i : Nat) :
    (instructionLines (ss.take i)).length + (instructionLines (ss.drop i)).length =
      (instructionLines ss).length := by
  unfold instructionLines
  rw [← List.length_append, ← List.filterMap_append, List.take_append_drop]

theorem LabelIndex.le {ss : List (Option Statement)} {name : List Char} {k : Nat}
    (h : LabelIndex ss name k) : k ≤ (instructionLines ss).length := by
  obtain ⟨i, -, rfl⟩ := h
  have hsplit := length_instructionLines_split ss i
  omega

theorem LabelIndex.unique {ss : List (Option Statement)} {name : List Char} {k l : Nat}
    (hnodup : (definedLabels ss).Nodup) (hk : LabelIndex ss name k) (hl : LabelIndex ss name l) :
    k = l := by
  rw [← index?_located_eq hnodup] at hk hl
  exact Option.some.inj (hk.symm.trans hl)

/-- The index of a label after the last instruction is that of the end. -/
theorem AtEnd.labelIndex_iff {ss : List (Option Statement)} {name : List Char} {k : Nat}
    (h : AtEnd ss name) (hnodup : (definedLabels ss).Nodup) :
    LabelIndex ss name k ↔ k = (instructionLines ss).length := by
  obtain ⟨i, hi, hrest⟩ := h
  have hsplit := length_instructionLines_split ss i
  rw [hrest, List.length_nil, Nat.add_zero] at hsplit
  have hend : LabelIndex ss name (instructionLines ss).length := ⟨i, hi, hsplit.symm⟩
  constructor
  · exact fun hk => hk.unique hnodup hend
  · rintro rfl
    exact hend

/-- A word that refers to a label means its index and nothing else. -/
theorem RefersTo.means_iff {index : List Char → Nat → Prop} {name w : List Char} {k : Nat}
    {o : Operand} (h : RefersTo name w) (hindex : ∀ l, index name l ↔ l = k) :
    Means index w o ↔ o = .index k := by
  have hk := (hindex k).2 rfl
  constructor
  · intro hmeans
    rcases h with ⟨rfl, hform⟩ | ⟨rfl, hbare⟩
    · cases hmeans with
      | register hr => rcases hr with hr | hr <;> rename_i r <;> cases r <;> cases hr
      | target hnum _ => exact absurd hnum hform
      | targetLabel _ hl => rw [(hindex _).1 hl]
      | label hw _ => exact absurd rfl hw.not_target
      | number hw _ _ _ => exact absurd rfl hw.not_target
    · cases hmeans with
      | nothing => exact absurd rfl hbare.not_nothing
      | register hr => exact absurd hr (hbare.not_register _)
      | target => exact absurd rfl hbare.not_target
      | targetLabel => exact absurd rfl hbare.not_target
      | label _ hl => rw [(hindex _).1 hl]
      | number _ hnone _ _ => exact absurd hk (hnone k)
  · rintro rfl
    rcases h with ⟨rfl, hform⟩ | ⟨rfl, hbare⟩
    · exact .targetLabel hform hk
    · exact .label hbare hk

theorem Reads.unique {text : List Char} {ss ss' : List (Option Statement)} (h : Reads text ss)
    (h' : Reads text ss') : ss = ss' := by
  refine List.right_unique_forall₂' ?_ h h'
  intro l s s' hs hs'
  rw [← ofLine_eq_ok_iff] at hs hs'
  exact Except.ok.inj (hs.symm.trans hs')

/-! ## Programs whose jumps stay inside -/

/-- Every target is the index of an instruction or of the end. -/
def Program.JumpsInside (p : Program) : Prop :=
  ∀ ins ∈ p, ∀ t, ins.target? = some t → 0 ≤ t ∧ t ≤ p.size

/-- The target of a jump is one of its operands. -/
theorem Instruction.src_or_dst_of_target? {ins : Instruction} {t : Int}
    (h : ins.target? = some t) : ins.src = .index t ∨ ins.dst = .index t := by
  obtain ⟨o, ho, ht⟩ := Option.bind_eq_some_iff.1 h
  have hindex : o = .index t := by
    cases o with
    | index n => cases ht; rfl
    | _ => cases ht
  subst hindex
  unfold targetOperand? at ho
  split at ho
  · have hchoice := Option.some.inj ho
    split at hchoice
    · exact .inl hchoice
    · exact .inr hchoice
  · exact .inr (Option.some.inj ho)
  · exact .inr (Option.some.inj ho)
  · cases ho

theorem Operand.mem_of_getD_eq {operands : List Operand} {i : Nat} {n : Int}
    (h : operands[i]?.getD .absent = .index n) : Operand.index n ∈ operands := by
  cases ho : operands[i]? with
  | none => rw [ho] at h; cases h
  | some o =>
    rw [ho] at h
    exact h ▸ List.mem_of_getElem? ho

theorem Denotes.means_target {index : List Char → Nat → Prop} {s : List Char × List (List Char)}
    {ins : Instruction} {t : Int} (h : Denotes index s ins) (ht : ins.target? = some t) :
    ∃ w ∈ s.2, Means index w (.index t) := by
  obtain ⟨op, operands, -, hwords, rfl, -⟩ := h
  have hmem : Operand.index t ∈ operands := by
    rcases Instruction.src_or_dst_of_target? ht with hsrc | hdst
    · exact Operand.mem_of_getD_eq hsrc
    · exact Operand.mem_of_getD_eq hdst
  exact exists_of_forall₂ hwords hmem

/-- A word that writes no target as a whole number means no index but that of a label. -/
theorem Means.labelIndex {index : List Char → Nat → Prop} {w : List Char} {t : Int}
    (h : Means index w (.index t)) (hform : ∀ cs, w = '@' :: cs → ¬ DashesAndDigits cs) :
    ∃ name k, index name k ∧ t = k := by
  cases h with
  | target hnum _ => exact absurd hnum (hform _ rfl)
  | targetLabel _ hk => exact ⟨_, _, hk, rfl⟩
  | label _ hk => exact ⟨_, _, hk, rfl⟩

/-- **The jumps of a text that names its targets by labels alone stay inside.** -/
theorem Program.jumpsInside_of_onlyLabels {ss : List (Option Statement)} {p : Program}
    (hcode : List.Forall₂ (Denotes (LabelIndex ss)) (instructionLines ss) p.toList)
    (hlabels : OnlyLabels ss) : p.JumpsInside := by
  intro ins hins t ht
  have hsize : (instructionLines ss).length = p.size := hcode.length_eq
  obtain ⟨s, hs, hdenotes⟩ := exists_of_forall₂ hcode (Array.mem_toList_iff.2 hins)
  obtain ⟨w, hw, hmeans⟩ := hdenotes.means_target ht
  obtain ⟨name, k, hk, rfl⟩ := hmeans.labelIndex (hlabels s hs w hw)
  have hle := hk.le
  omega

/-- Where an instruction line refers to a label at the end, its instruction has the index of the
end. -/
theorem Denotes.operand_atEnd {ss : List (Option Statement)} {s : List Char × List (List Char)}
    {ins : Instruction} {name w : List Char} (h : Denotes (LabelIndex ss) s ins)
    (hnodup : (definedLabels ss).Nodup) (hend : AtEnd ss name) (hw : RefersTo name w) :
    (s.2[0]? = some w → ins.src = .index (instructionLines ss).length) ∧
      (s.2[1]? = some w → ins.dst = .index (instructionLines ss).length) := by
  obtain ⟨op, operands, -, hwords, rfl, -⟩ := h
  have hoperand : ∀ i : Nat, s.2[i]? = some w →
      operands[i]?.getD .absent = Operand.index (instructionLines ss).length := by
    intro i hi
    obtain ⟨hlt, hget⟩ := List.getElem?_eq_some_iff.1 hi
    have hmeans := hwords.get hlt (hwords.length_eq ▸ hlt)
    simp only [List.get_eq_getElem, hget] at hmeans
    rw [hw.means_iff fun l => hend.labelIndex_iff hnodup] at hmeans
    rw [List.getElem?_eq_getElem (hwords.length_eq ▸ hlt), Option.getD_some, hmeans]
  exact ⟨hoperand 0, hoperand 1⟩

namespace Machine

/-! ## Machines that cannot jump out -/

theorem InOrder.not_jumpedOut {m : Machine} (h : InOrder m) (hp : m.program.JumpsInside) :
    m.status ≠ .jumpedOut ∧ m.warnings = [] := by
  have hstatus : m.status ≠ .jumpedOut := by
    intro hout
    obtain ⟨ins, t, hf, ht, houtside, -⟩ := h.jumpedOut hout
    exact houtside (hp ins (Array.mem_of_getElem? hf) t ht)
  exact ⟨hstatus, h.silent hstatus⟩

/-- However a machine is driven in a program whose jumps stay inside, it has not jumped out, and no
run from there on does. -/
theorem Driven.not_jumpedOut {as : List Action} {m m' : Machine} (h : Driven as m m')
    (hm : InOrder m) (hp : m.program.JumpsInside) :
    (m'.status ≠ .jumpedOut ∧ m'.warnings = []) ∧
      ∀ fuel, (m'.run fuel).1.status ≠ .jumpedOut ∧ (m'.run fuel).1.warnings = [] := by
  have horder := h.inOrder hm
  have hprog := h.program_eq
  refine ⟨horder.not_jumpedOut (hprog ▸ hp), fun fuel => ?_⟩
  exact (horder.run fuel).not_jumpedOut (by rw [run_program, hprog]; exact hp)

/-- A machine at the end halts in a step and in a run, whatever its limit. -/
theorem halts_at_end {m : Machine} (hb : m.isDone = false) (hpc : m.pc = m.program.size) :
    m.step = ({ m with status := .halted }, none) ∧
      ∀ fuel, ∃ m', m.run (fuel + 2) = (m', .stopped) ∧ m'.status = .halted ∧ m'.pc = m.pc ∧
        m'.steps = m.steps := by
  have hstep := step_at_end hb (Nat.le_of_eq hpc.symm)
  have hfree : m.exceeded? = none := by
    unfold exceeded?
    rw [Option.filter_eq_none_iff]
    intro n _
    simp [hpc]
  refine ⟨hstep, fun fuel => ?_⟩
  have hrun := (run_succ_of_step (fuel + 1) hb hfree hstep).trans (run_of_done fuel rfl)
  exact ⟨_, hrun, by simp, by simp, by simp⟩

/-- A jump to the end counts as an instruction and leads to the end, where the machine halts. -/
theorem halts_after_jump_to_end {m : Machine} {ins : Instruction} (hb : m.isDone = false)
    (hf : m.program[m.pc]? = some ins) (he : ins.effect m.bank = .ok (.jump m.program.size)) :
    ∃ m1, m.step = (m1, none) ∧ m1.steps = m.steps + 1 ∧ m1.pc = m.program.size ∧
      m1.step.1.status = .halted ∧
      ∀ fuel, ∃ m', m1.run (fuel + 2) = (m', .stopped) ∧ m'.status = .halted ∧
        m'.pc = m.program.size ∧ m'.steps = m.steps + 1 := by
  have hstep := (Stepped.execute ins _ hb hf he).step_eq
  rw [Machine.apply, jump_inside (by omega) (by simp), Int.toNat_natCast] at hstep
  refine ⟨_, hstep, rfl, rfl, ?_⟩
  have hend := halts_at_end (m := { m.fetch ins with pc := m.program.size })
    (by simpa [isDone] using hb) (by simp)
  exact ⟨by rw [hend.1], hend.2⟩

/-- **Jumps to labels stay inside.** Of a program that is assembled from a text which names its
targets by labels alone, no machine jumps out: not on any bank, with any limit, after any steps,
runs and writes, nor within a run, and nothing warns of it. A label after the last instruction has
the index of the end, every word that refers to it becomes that index, and a jump that goes there
halts. -/
theorem labelled_jumps_stay_inside {text : List Char} {p : Program} {ss : List (Option Statement)}
    (h : Program.assemble text = .ok p) (hss : Reads text ss) (hlabels : OnlyLabels ss) :
    (∀ b limit tracing as m, Driven as (start p b limit tracing) m →
      (m.status ≠ .jumpedOut ∧ m.warnings = []) ∧
      ∀ fuel, (m.run fuel).1.status ≠ .jumpedOut ∧ (m.run fuel).1.warnings = []) ∧
    (∀ name, AtEnd ss name →
      (∀ k, LabelIndex ss name k ↔ k = p.size) ∧
      ∀ (j : Nat) s ins w, (instructionLines ss)[j]? = some s → p[j]? = some ins →
        RefersTo name w → (s.2[0]? = some w → ins.src = .index p.size) ∧
          (s.2[1]? = some w → ins.dst = .index p.size)) ∧
    ∀ b limit tracing as m ins, Driven as (start p b limit tracing) m → m.isDone = false →
      p[m.pc]? = some ins → ins.effect m.bank = .ok (.jump p.size) →
        ∃ m1, m.step = (m1, none) ∧ m1.steps = m.steps + 1 ∧ m1.pc = p.size ∧
          m1.step.1.status = .halted ∧
          ∀ fuel, ∃ m', m1.run (fuel + 2) = (m', .stopped) ∧ m'.status = .halted ∧
            m'.pc = p.size ∧ m'.steps = m.steps + 1 := by
  obtain ⟨ss', hss', hnodup, hcode⟩ := assemble_eq_ok_iff_denotes.1 h
  obtain rfl := hss.unique hss'
  have hsize : (instructionLines ss).length = p.size := hcode.length_eq
  have hinside := Program.jumpsInside_of_onlyLabels hcode hlabels
  refine ⟨?_, ?_, ?_⟩
  · intro b limit tracing as m hdriven
    exact hdriven.not_jumpedOut (start_inOrder p b limit tracing) hinside
  · intro name hend
    refine ⟨fun k => hsize ▸ hend.labelIndex_iff hnodup, ?_⟩
    intro j s ins w hs hins hw
    obtain ⟨hj, hget⟩ := List.getElem?_eq_some_iff.1 hs
    rw [← Array.getElem?_toList] at hins
    obtain ⟨hj', hget'⟩ := List.getElem?_eq_some_iff.1 hins
    have hdenotes := hcode.get hj hj'
    simp only [List.get_eq_getElem, hget, hget'] at hdenotes
    exact hsize ▸ hdenotes.operand_atEnd hnodup hend hw
  · intro b limit tracing as m ins hdriven hb hf he
    have hprog : m.program = p := hdriven.program_eq
    rw [← hprog] at hf he ⊢
    exact halts_after_jump_to_end hb hf he

/-- What the lines of a text with two jumps to a label at its end say. -/
def jumpsToEnd : List (Option Statement) :=
  [some (.instruction "JMT".toList ["R1".toList, "end".toList]),
    some (.instruction "JMP".toList ["@end".toList]), some (.label "end".toList)]

theorem reads_jumpsToEnd : Reads "JMT R1, end\nJMP @end\nend:".toList jumpsToEnd := by
  have hlines : lines "JMT R1, end\nJMP @end\nend:".toList =
      ["JMT R1, end".toList, "JMP @end".toList, "end:".toList] := by decide +kernel
  unfold Reads
  rw [hlines]
  exact .cons (ofLine_eq_ok_iff.1 (by decide +kernel))
    (.cons (ofLine_eq_ok_iff.1 (by decide +kernel))
      (.cons (ofLine_eq_ok_iff.1 (by decide +kernel)) .nil))

theorem refersTo_end :
    RefersTo "end".toList "end".toList ∧ RefersTo "end".toList "@end".toList := by
  have hform : ¬ DashesAndDigits "end".toList := by
    rw [← isNumeric_eq_true_iff]
    decide +kernel
  refine ⟨.inr ⟨rfl, by decide, ?_, by decide⟩, .inl ⟨rfl, hform⟩⟩
  rintro r (h | h) <;> cases r <;> cases h

theorem assemble_jumpsToEnd : Program.assemble "JMT R1, end\nJMP @end\nend:".toList =
    .ok #[⟨.known .jmt, .register .r1, .index 2⟩, ⟨.known .jmp, .index 2, .absent⟩] := by
  have hend : ∀ k, LabelIndex jumpsToEnd "end".toList k ↔ k = 2 := fun _ =>
    AtEnd.labelIndex_iff ⟨2, rfl, rfl⟩ (by decide)
  refine assemble_eq_ok_iff_denotes.2 ⟨jumpsToEnd, reads_jumpsToEnd, by decide, ?_⟩
  refine .cons ⟨.jmt, [.register .r1, .index 2], rfl, ?_, rfl, fun _ => .inr rfl⟩
    (.cons ⟨.jmp, [.index 2], rfl, ?_, rfl, fun _ => .inl rfl⟩ .nil)
  · exact .cons (.register (.inl rfl)) (.cons ((refersTo_end.1.means_iff hend).2 rfl) .nil)
  · exact .cons ((refersTo_end.2.means_iff hend).2 rfl) .nil

/-- The same text: both words become the index of the end, and the second jump halts there. -/
theorem labelled_jumps_stay_inside_to_end :
    let p : Program := #[⟨.known .jmt, .register .r1, .index 2⟩, ⟨.known .jmp, .index 2, .absent⟩]
    (∀ k, LabelIndex jumpsToEnd "end".toList k ↔ k = p.size) ∧
    ∃ m, Driven [.step] (start p Bank.zero none false) m ∧ m.status ≠ .jumpedOut ∧
      ∃ m1, m.step = (m1, none) ∧ m1.pc = p.size ∧ m1.step.1.status = .halted := by
  intro p
  have hlabels : OnlyLabels jumpsToEnd := by decide +kernel
  obtain ⟨hinside, hend, hhalts⟩ :=
    labelled_jumps_stay_inside assemble_jumpsToEnd reads_jumpsToEnd hlabels
  have hdriven : Driven [.step] (start p Bank.zero none false)
      (start p Bank.zero none false).step.1 := .cons (.step _) (.nil _)
  have hnext : (start p Bank.zero none false).step.1.pc = 1 := by decide +kernel
  obtain ⟨m1, hstep, -, hpc, hhalt, -⟩ := hhalts Bank.zero none false [.step] _
    ⟨.known .jmp, .index 2, .absent⟩ hdriven (by decide +kernel) (by rw [hnext]; rfl) rfl
  exact ⟨(hend "end".toList ⟨2, rfl, rfl⟩).1, _, hdriven,
    (hinside Bank.zero none false [.step] _ hdriven).1.1, m1, hstep, hpc, hhalt⟩

end Machine

end RegisterMachine
