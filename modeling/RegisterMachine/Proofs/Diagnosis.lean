import RegisterMachine.Proofs.Language

/-!
# Which mistake is reported

A text is gone through three times: its lines are read, its labels collected, its instructions
assembled. Each pass goes from the first line to the last and stops at the first mistake it finds,
and none is begun before the one before it has come to its end. So the line reported is not simply
the first with a mistake: a line that cannot be read anywhere comes before every label that is
defined twice, and that before every mistake inside an instruction.

* `lineCause`, `Meaningless`, `Mistaken`: what is said about a line that cannot be read, a word that
  means nothing, an instruction line that denotes nothing.
* `Rejected`: the mistake that a text is rejected with, described without the assembler.

Principal results: `Row.ofLines_eq_error_iff`, `Labels.collectFrom_eq_error_iff`,
`Program.ofRows_eq_error_iff` (each pass reports the first mistake it finds),
`Program.assemble_eq_malformed_iff_rejected` and `first_mistake_is_reported`.
-/

set_option autoImplicit false

namespace RegisterMachine

open Text

/-! ## The first of several -/

theorem exists_split_cons_iff {α : Type} {a : α} {as : List α} {P : List α → α → List α → Prop} :
    (∃ above x below, a :: as = above ++ x :: below ∧ P above x below) ↔
      P [] a as ∨ ∃ above x below, as = above ++ x :: below ∧ P (a :: above) x below := by
  constructor
  · rintro ⟨above, x, below, heq, h⟩
    cases above with
    | nil => cases heq; exact .inl h
    | cons b above => cases heq; exact .inr ⟨above, x, below, rfl, h⟩
  · rintro (h | ⟨above, x, below, rfl, h⟩)
    · exact ⟨[], a, as, rfl, h⟩
    · exact ⟨a :: above, x, below, rfl, h⟩

theorem not_exists_split_nil {α : Type} {P : List α → α → List α → Prop} :
    ¬ ∃ above x below, [] = above ++ x :: below ∧ P above x below := by
  rintro ⟨above, x, below, heq, -⟩
  cases above <;> cases heq

/-! ## Lines -/

/-- What is said about a line that cannot be read: if it ends in a colon, that its label is wrong. -/
def lineCause (l : List Char) : SyntaxCause :=
  if (Statement.code l).getLast? = some ':' then .invalidLabel l else .invalidLine l

/-- A line is refused if and only if its code says nothing. -/
theorem Statement.ofLine_eq_error_iff {l : List Char} {c : SyntaxCause} :
    ofLine l = .error c ↔ (∀ s, ¬ Says (code l) s) ∧ c = lineCause l := by
  have hcause : ∀ c, ofLine l = .error c → c = lineCause l := by
    intro c h
    unfold lineCause
    unfold ofLine at h
    dsimp only at h
    split at h
    · cases h
    · split at h
      · rename_i hcolon
        rw [if_pos (by simpa using hcolon)]
        split at h <;> cases h
        rfl
      · rename_i hcolon
        rw [if_neg (by simpa using hcolon)]
        split at h
        · cases h
          rfl
        · split at h <;> cases h
          rfl
  simp only [← ofLine_eq_ok_iff]
  constructor
  · intro h
    exact ⟨fun s hs => (by rw [h] at hs; cases hs), hcause c h⟩
  · rintro ⟨hno, rfl⟩
    cases h : ofLine l with
    | ok s => exact absurd h (hno s)
    | error c => rw [hcause c h]

namespace Row

/-- **The first line that cannot be read is reported**, with its number. -/
theorem ofLines_eq_error_iff {n : Nat} {ls : List (List Char)} {e : SyntaxError} :
    ofLines n ls = .error e ↔ ∃ above l below, ls = above ++ l :: below ∧
      (∀ l' ∈ above, ∃ s, Statement.ofLine l' = .ok s) ∧ Statement.ofLine l = .error e.cause ∧
      e.line = n + above.length := by
  induction ls generalizing n with
  | nil => exact ⟨fun h => (by cases h), fun h => absurd h not_exists_split_nil⟩
  | cons l ls ih =>
    have hrest : ofLines (n + 1) ls = .error e ↔ ∃ above l' below, ls = above ++ l' :: below ∧
        (∀ l' ∈ above, ∃ s, Statement.ofLine l' = .ok s) ∧ Statement.ofLine l' = .error e.cause ∧
        e.line = n + (above.length + 1) := by
      rw [ih]
      simp only [Nat.add_assoc, Nat.add_comm 1]
    rw [exists_split_cons_iff]
    simp only [List.forall_mem_cons, List.length_cons]
    unfold ofLines
    cases hl : Statement.ofLine l with
    | error cause =>
      obtain ⟨c, k⟩ := e
      simp [eq_comm]
    | ok s =>
      cases s with
      | none => simpa using hrest
      | some s => simpa [map_eq_error_iff] using hrest

end Row

/-! ## Labels -/

/-- **The first label line whose name is taken is reported.** -/
theorem Labels.collectFrom_eq_error_iff {known : Labels} {pc n : Nat} {ss : List (Option Statement)}
    {e : SyntaxError} (h : (known.map (·.1)).Nodup) :
    collectFrom known pc (Row.numbered n ss) = .error e ↔ ∃ above x below, ss = above ++ x :: below ∧
      (known.map (·.1) ++ definedLabels above).Nodup ∧ ∃ name, x = some (.label name) ∧
        name ∈ known.map (·.1) ++ definedLabels above ∧
        e = ⟨.duplicateLabel name, n + above.length⟩ := by
  induction ss generalizing known pc n with
  | nil => exact ⟨fun h => (by cases h), fun h => absurd h not_exists_split_nil⟩
  | cons s ss ih =>
    have hshift : ∀ k, n + 1 + k = n + (k + 1) := fun k => by rw [Nat.add_assoc, Nat.add_comm 1]
    rw [exists_split_cons_iff]
    match s with
    | none =>
      have hrest := @ih known pc (n + 1) h
      simpa [Row.numbered, hshift] using hrest
    | some (.instruction op words) =>
      have hrest := @ih known (pc + 1) (n + 1) h
      simpa [Row.numbered, collectFrom, hshift] using hrest
    | some (.label name) =>
      simp only [Row.numbered, collectFrom, isSome_index?_iff, definedLabels_label, List.length_cons,
        definedLabels_nil, List.append_nil]
      by_cases hmem : name ∈ known.map (·.1)
      · -- the name is taken, so it would come twice in what follows
        have htwice : ∀ above, ¬ (known.map (·.1) ++ name :: definedLabels above).Nodup := by
          intro above hnd
          exact (List.nodup_append.1 hnd).2.2 name hmem name List.mem_cons_self rfl
        rw [if_pos hmem]
        constructor
        · intro he
          cases he
          exact .inl ⟨h, name, rfl, hmem, rfl⟩
        · rintro (⟨-, name', hname, -, rfl⟩ | ⟨above, x, below, -, hnd, -⟩)
          · cases hname
            rfl
          · exact absurd hnd (htwice above)
      · have hrest := @ih _ pc (n + 1) (nodup_concat (k := pc) h hmem)
        simp only [List.map_append, List.map_cons, List.map_nil, List.append_assoc,
          List.singleton_append, hshift] at hrest
        rw [if_neg hmem, hrest]
        constructor
        · exact .inr
        · rintro (⟨-, name', hname, hmem', -⟩ | hbelow)
          · cases hname
            exact absurd hmem' hmem
          · exact hbelow

/-! ## Words -/

/-- What is said about a word that means nothing. -/
inductive Meaningless (index : List Char → Nat → Prop) : List Char → SyntaxCause → Prop where
  /-- A target that is not written as a whole number names no label. -/
  | unknownLabel {name : List Char} : ¬ DashesAndDigits name → (∀ k, ¬ index name k) →
    Meaningless index ('@' :: name) (.unknownLabel name)
  /-- Any other word is neither the name of a label nor a number, perhaps after a hash sign. -/
  | badOperand {w literal : List Char} : Bare w → (∀ k, ¬ index w k) →
    (w = '#' :: literal ∨ w.head? ≠ some '#' ∧ w = literal) → Number.readReal? literal = none →
    Meaningless index w (.badOperand w)

namespace Labels

variable {labels : Labels} {w cs : List Char} {c : SyntaxCause}

theorem resolveTarget_eq_cause_iff : labels.resolveTarget cs = .error (.cause c) ↔
    ¬ DashesAndDigits cs ∧ labels.index? cs = none ∧ c = .unknownLabel cs := by
  rw [← isNumeric_eq_true_iff]
  unfold resolveTarget
  by_cases hnum : isNumeric cs = true
  · rw [if_pos hnum]
    cases Scalar.textToInt cs <;> simp [hnum]
  · rw [if_neg hnum]
    cases labels.index? cs <;> simp [hnum, eq_comm]

theorem resolveNumber_eq_cause_iff : resolveNumber w = .error (.cause c) ↔
    ∃ literal, (w = '#' :: literal ∨ w.head? ≠ some '#' ∧ w = literal) ∧
      Number.readReal? literal = none ∧ c = .badOperand w := by
  simp only [literal_iff]
  unfold resolveNumber
  dsimp only
  generalize (if w.head? == some '#' then w.tail else w) = literal
  cases hread : Number.readReal? literal with
  | some x => simp [hread]
  | none => simp [hread, eq_comm]

/-- A word is refused by the assembler itself if and only if it means nothing in this way. -/
theorem resolve_eq_cause_iff : labels.resolve w = .error (.cause c) ↔
    Meaningless (fun name k => labels.index? name = some k) w c := by
  constructor
  · intro h
    rcases word_cases w with rfl | ⟨r, hr⟩ | ⟨cs, rfl⟩ | hbare
    · cases h
    · rw [resolve_of_spelled hr] at h
      cases h
    · rw [resolve_target] at h
      obtain ⟨hnum, hnone, rfl⟩ := resolveTarget_eq_cause_iff.1 h
      refine .unknownLabel hnum fun k => ?_
      simp [hnone]
    · rw [resolve_of_bare hbare] at h
      cases hk : labels.index? w with
      | some k => rw [hk] at h; cases h
      | none =>
        rw [hk] at h
        obtain ⟨literal, hliteral, hread, rfl⟩ := resolveNumber_eq_cause_iff.1 h
        refine .badOperand hbare (fun k => ?_) hliteral hread
        simp [hk]
  · intro h
    cases h with
    | unknownLabel hnum hnone =>
      rw [resolve_target]
      exact resolveTarget_eq_cause_iff.2 ⟨hnum, Option.eq_none_iff_forall_ne_some.2 hnone, rfl⟩
    | badOperand hw hnone hliteral hread =>
      simp only [resolve_of_bare hw, Option.eq_none_iff_forall_ne_some.2 hnone, Option.elim_none]
      exact resolveNumber_eq_cause_iff.2 ⟨_, hliteral, hread, rfl⟩

end Labels

/-! ## Instructions -/

/-- What is said about an instruction line that denotes nothing: the operator is looked at first,
then the words from left to right, then the target of a jump. -/
inductive Mistaken (index : List Char → Nat → Prop) :
    List Char × List (List Char) → SyntaxCause → Prop where
  /-- No operator has its name. -/
  | operator {name : List Char} {words : List (List Char)} : (∀ op : Operator, op.name ≠ name) →
    Mistaken index (name, words) (.unknownOperator name)
  /-- A word means nothing, those before it mean something. -/
  | operand {op : Operator} {read rest : List (List Char)} {w : List Char} {c : SyntaxCause} :
    (∀ v ∈ read, ∃ o, Means index v o) → Meaningless index w c →
    Mistaken index (op.name, read ++ w :: rest) c
  /-- All words of a jump mean something, none of them an index. -/
  | target {op : Operator} {words : List (List Char)} : op.isJump = true →
    (∀ w ∈ words, ∃ o, Means index w o) → (∀ w ∈ words, ∀ n, ¬ Means index w (.index n)) →
    Mistaken index (op.name, words) (.missingTarget op.name)

/-- **An instruction line is refused for what is said about it**, if it has at most three words. -/
theorem Instruction.assemble_eq_cause_iff {labels : Labels} {index : List Char → Nat → Prop}
    (hindex : (fun name k => labels.index? name = some k) = index)
    {s : List Char × List (List Char)} (hlen : s.2.length ≤ 2) {c : SyntaxCause} :
    Instruction.assemble labels s.1 s.2 = .error (.cause c) ↔ Mistaken index s c := by
  obtain ⟨name, words⟩ := s
  rw [assemble_eq_error_iff, mapM_eq_error_iff]
  simp only [Labels.resolve_eq_ok_iff, Labels.resolve_eq_cause_iff, hindex, WordError.cause.injEq]
  constructor
  · rintro (⟨hno, rfl⟩ | ⟨op, hop, h⟩)
    · refine .operator fun op hname => ?_
      rw [Operator.ofName?_eq_some_iff.2 hname] at hno
      cases hno
    · obtain rfl := Operator.ofName?_eq_some_iff.1 hop
      rcases h with ⟨read, w, rest, rfl, hread, hw⟩ | ⟨operands, hwords, ⟨op', heq, hjump, hkinds⟩, rfl⟩
      · exact .operand hread hw
      · cases heq
        refine .target hjump (exists_forall₂_iff.1 ⟨operands, hwords⟩) fun w hw n hmeans => ?_
        rcases (kind_ofOperands_iff hindex hlen hwords).2 ⟨w, hw, n, hmeans⟩ with hsrc | hdst
        · exact hkinds.1 hsrc
        · exact hkinds.2 hdst
  · intro h
    cases h with
    | operator hno =>
      refine .inl ⟨Option.eq_none_iff_forall_ne_some.2 fun op hop => ?_, rfl⟩
      exact hno op (Operator.ofName?_eq_some_iff.1 hop)
    | @operand op read rest w _ hread hw =>
      exact .inr ⟨op, op.ofName?_name, .inl ⟨read, w, rest, rfl, hread, hw⟩⟩
    | @target op _ hjump hwords hnone =>
      obtain ⟨operands, hoperands⟩ := exists_forall₂_iff.2 hwords
      refine .inr ⟨op, op.ofName?_name, .inr ⟨operands, hoperands, ⟨op, rfl, hjump, ?_⟩, rfl⟩⟩
      rw [← not_or, kind_ofOperands_iff hindex hlen hoperands]
      rintro ⟨w, hw, n, hmeans⟩
      exact hnone w hw n hmeans

/-- **The first instruction line that cannot be assembled is reported.** -/
theorem Program.ofRows_eq_error_iff {labels : Labels} {n : Nat} {ss : List (Option Statement)}
    {e : AssembleError} :
    ofRows labels (Row.numbered n ss) = .error e ↔ ∃ above x below, ss = above ++ x :: below ∧
      (∀ s ∈ instructionLines above, ∃ ins, Instruction.assemble labels s.1 s.2 = .ok ins) ∧
      ∃ op words cause, x = some (.instruction op words) ∧
        Instruction.assemble labels op words = .error cause ∧
        e = cause.inLine (n + above.length) := by
  induction ss generalizing n with
  | nil => exact ⟨fun h => (by cases h), fun h => absurd h not_exists_split_nil⟩
  | cons s ss ih =>
    have hshift : ∀ k, n + 1 + k = n + (k + 1) := fun k => by rw [Nat.add_assoc, Nat.add_comm 1]
    have hrest := ih (n := n + 1)
    simp only [hshift] at hrest
    rw [exists_split_cons_iff]
    match s with
    | none => simpa [Row.numbered] using hrest
    | some (.label name) => simpa [Row.numbered, ofRows] using hrest
    | some (.instruction op words) =>
      simp only [Row.numbered, ofRows, instructionLines_instruction, List.forall_mem_cons,
        List.length_cons]
      cases hins : Instruction.assemble labels op words with
      | error cause => simp [eq_comm, hins]
      | ok ins => simpa [map_eq_error_iff, hins] using hrest

/-! ## Texts -/

/-- A text is malformed by the first of the three passes that does not come to its end. -/
theorem Program.assemble_eq_malformed_iff {text : List Char} {e : SyntaxError} :
    assemble text = .error (.malformed e) ↔ Row.parse text = .error e ∨
      ∃ rows, Row.parse text = .ok rows ∧ (Labels.collect rows = .error e ∨
        ∃ labels, Labels.collect rows = .ok labels ∧
          ofRows labels rows = .error (.malformed e)) := by
  cases hrows : Row.parse text with
  | error e' => simp [assemble_of_parse_error hrows]
  | ok rows =>
    cases hlabels : Labels.collect rows with
    | error e' => simp [assemble_of_collect_error hrows hlabels, hlabels]
    | ok labels => simp [assemble_of_passes hrows hlabels, hlabels, map_eq_error_iff]

/-- The mistake that a text is rejected with. -/
inductive Rejected (text : List Char) : SyntaxError → Prop where
  /-- The first line that cannot be read, whatever is wrong with the others. -/
  | line {above below : List (List Char)} {l : List Char} : lines text = above ++ l :: below →
    (∀ l' ∈ above, ∃ s, Says (Statement.code l') s) → (∀ s, ¬ Says (Statement.code l) s) →
    Rejected text ⟨lineCause l, above.length + 1⟩
  /-- If all lines can be read, the first label line whose name is that of one above. -/
  | label {above below : List (Option Statement)} {name : List Char} :
    Reads text (above ++ some (.label name) :: below) → (definedLabels above).Nodup →
    name ∈ definedLabels above → Rejected text ⟨.duplicateLabel name, above.length + 1⟩
  /-- If no label is defined twice either, the first instruction line that denotes nothing. -/
  | instruction {ss above below : List (Option Statement)} {op : List Char}
    {words : List (List Char)} {c : SyntaxCause} : Reads text ss →
    ss = above ++ some (.instruction op words) :: below → (definedLabels ss).Nodup →
    (∀ s ∈ instructionLines above, ∃ ins, Denotes (LabelIndex ss) s ins) →
    Mistaken (LabelIndex ss) (op, words) c → Rejected text ⟨c, above.length + 1⟩

theorem Row.parse_eq_ok_iff {text : List Char} {rows : List Row} :
    Row.parse text = .ok rows ↔ ∃ ss, Reads text ss ∧ rows = numbered 1 ss := by
  unfold Row.parse Reads
  simp only [ofLines_eq_ok_iff_numbered, ofLine_eq_ok_iff]

theorem Row.parse_eq_error_iff {text : List Char} {e : SyntaxError} :
    Row.parse text = .error e ↔ ∃ above l below, lines text = above ++ l :: below ∧
      (∀ l' ∈ above, ∃ s, Says (Statement.code l') s) ∧ (∀ s, ¬ Says (Statement.code l) s) ∧
      e = ⟨lineCause l, above.length + 1⟩ := by
  obtain ⟨c, k⟩ := e
  unfold Row.parse
  rw [ofLines_eq_error_iff]
  simp only [ofLine_eq_ok_iff, Statement.ofLine_eq_error_iff, SyntaxError.mk.injEq, and_assoc,
    Nat.add_comm 1]

/-- The second pass rejects a text for a label that is defined twice. -/
theorem Labels.collect_eq_error_iff {ss : List (Option Statement)} {e : SyntaxError} :
    Labels.collect (Row.numbered 1 ss) = .error e ↔ ∃ above name below,
      ss = above ++ some (.label name) :: below ∧ (definedLabels above).Nodup ∧
      name ∈ definedLabels above ∧ e = ⟨.duplicateLabel name, above.length + 1⟩ := by
  have h := @collectFrom_eq_error_iff [] 0 1 ss e List.nodup_nil
  simp only [List.map_nil, List.nil_append] at h
  unfold Labels.collect
  rw [h]
  constructor
  · rintro ⟨above, _, below, hss, hnodup, name, rfl, hmem, he⟩
    exact ⟨above, name, below, hss, hnodup, hmem, by rw [he, Nat.add_comm]⟩
  · rintro ⟨above, name, below, hss, hnodup, hmem, he⟩
    exact ⟨above, _, below, hss, hnodup, name, rfl, hmem, by rw [he, Nat.add_comm]⟩

/-- The third pass rejects a text for an instruction line that denotes nothing. -/
theorem Program.ofRows_eq_malformed_iff {text : List Char} {ss : List (Option Statement)}
    {e : SyntaxError} (hreads : Reads text ss) (hnodup : (definedLabels ss).Nodup) :
    ofRows (Labels.located 0 (ss.filterMap id)) (Row.numbered 1 ss) = .error (.malformed e) ↔
      ∃ above op words below c, ss = above ++ some (.instruction op words) :: below ∧
        (∀ s ∈ instructionLines above, ∃ ins, Denotes (LabelIndex ss) s ins) ∧
        Mistaken (LabelIndex ss) (op, words) c ∧ e = ⟨c, above.length + 1⟩ := by
  have hindex := index?_located_eq hnodup
  have hlen : ∀ {above op words below}, ss = above ++ some (.instruction op words) :: below →
      words.length ≤ 2 := by
    rintro above op words below rfl
    refine length_operands_le (s := (op, words)) hreads (List.mem_filterMap.2 ?_)
    exact ⟨some (.instruction op words), List.mem_append_right _ List.mem_cons_self, rfl⟩
  rw [ofRows_eq_error_iff]
  simp only [assemble_instruction_eq_ok_iff, hindex]
  constructor
  · rintro ⟨above, _, below, hss, habove, op, words, cause, rfl, hcause, he⟩
    cases cause with
    | target e' => cases he
    | cause c =>
      refine ⟨above, op, words, below, c, hss, habove, ?_, ?_⟩
      · exact (Instruction.assemble_eq_cause_iff (s := (op, words)) hindex (hlen hss)).1 hcause
      · rw [AssembleError.malformed.inj he, Nat.add_comm]
  · rintro ⟨above, op, words, below, c, hss, habove, hmistaken, rfl⟩
    refine ⟨above, _, below, hss, habove, op, words, .cause c, rfl, ?_, ?_⟩
    · exact (Instruction.assemble_eq_cause_iff (s := (op, words)) hindex (hlen hss)).2 hmistaken
    · rw [WordError.inLine, Nat.add_comm]

theorem Labels.collect_numbered_eq_ok_iff {ss : List (Option Statement)} {labels : Labels} :
    Labels.collect (Row.numbered 1 ss) = .ok labels ↔
      labels = Labels.located 0 (ss.filterMap id) ∧ (definedLabels ss).Nodup := by
  rw [collect_eq_ok_iff, Row.map_statement_numbered]
  refine and_congr_right ?_
  rintro rfl
  rw [map_fst_located, List.filterMap_filterMap]
  rfl

/-- **A text is malformed by the mistake that it is rejected with**, and by no other. -/
theorem Program.assemble_eq_malformed_iff_rejected {text : List Char} {e : SyntaxError} :
    assemble text = .error (.malformed e) ↔ Rejected text e := by
  rw [assemble_eq_malformed_iff]
  constructor
  · rintro (h | ⟨rows, hrows, h⟩)
    · obtain ⟨above, l, below, hls, habove, hl, rfl⟩ := Row.parse_eq_error_iff.1 h
      exact .line hls habove hl
    · obtain ⟨ss, hreads, rfl⟩ := Row.parse_eq_ok_iff.1 hrows
      rcases h with h | ⟨labels, hlabels, h⟩
      · obtain ⟨above, name, below, rfl, hnodup, hmem, rfl⟩ := Labels.collect_eq_error_iff.1 h
        exact .label hreads hnodup hmem
      · obtain ⟨rfl, hnodup⟩ := Labels.collect_numbered_eq_ok_iff.1 hlabels
        obtain ⟨above, op, words, below, c, hss, habove, hmistaken, rfl⟩ :=
          (ofRows_eq_malformed_iff hreads hnodup).1 h
        exact .instruction hreads hss hnodup habove hmistaken
  · intro h
    cases h with
    | line hls habove hl => exact .inl (Row.parse_eq_error_iff.2 ⟨_, _, _, hls, habove, hl, rfl⟩)
    | label hreads hnodup hmem =>
      exact .inr ⟨_, Row.parse_eq_ok_iff.2 ⟨_, hreads, rfl⟩,
        .inl (Labels.collect_eq_error_iff.2 ⟨_, _, _, rfl, hnodup, hmem, rfl⟩)⟩
    | instruction hreads hss hnodup habove hmistaken =>
      exact .inr ⟨_, Row.parse_eq_ok_iff.2 ⟨_, hreads, rfl⟩,
        .inr ⟨_, Labels.collect_numbered_eq_ok_iff.2 ⟨rfl, hnodup⟩,
          (ofRows_eq_malformed_iff hreads hnodup).2
            ⟨_, _, _, _, _, hss, habove, hmistaken, rfl⟩⟩⟩

/-- A text with a line that cannot be read is rejected for the first such line. -/
theorem exists_first_unreadable {text l : List Char} (hl : l ∈ lines text)
    (hno : ∀ s, ¬ Says (Statement.code l) s) :
    ∃ above l' below, lines text = above ++ l' :: below ∧
      (∀ l'' ∈ above, ∃ s, Says (Statement.code l'') s) ∧ ∀ s, ¬ Says (Statement.code l') s := by
  cases hrows : Row.parse text with
  | ok rows =>
    obtain ⟨ss, hreads, -⟩ := Row.parse_eq_ok_iff.1 hrows
    obtain ⟨s, -, hs⟩ := exists_of_forall₂ (List.Forall₂.flip hreads) hl
    exact absurd hs (hno s)
  | error e =>
    obtain ⟨above, l', below, hls, habove, hl', -⟩ := Row.parse_eq_error_iff.1 hrows
    exact ⟨above, l', below, hls, habove, hl'⟩

theorem exists_first_duplicate {ss : List (Option Statement)} (hdup : ¬ (definedLabels ss).Nodup) :
    ∃ above name below, ss = above ++ some (.label name) :: below ∧ (definedLabels above).Nodup ∧
      name ∈ definedLabels above := by
  cases hlabels : Labels.collect (Row.numbered 1 ss) with
  | ok labels => exact absurd (Labels.collect_numbered_eq_ok_iff.1 hlabels).2 hdup
  | error e =>
    obtain ⟨above, name, below, hss, hnodup, hmem, -⟩ := Labels.collect_eq_error_iff.1 hlabels
    exact ⟨above, name, below, hss, hnodup, hmem⟩

/-- **The mistake that is reported is the one that a text is rejected with.** The line is that of
the first line that cannot be read, if there is one; otherwise of the first label line whose name
is taken, if there is one; otherwise of the first instruction line that denotes nothing. So a line
that cannot be read comes before every label that is defined twice, wherever it stands, and such a
label before every mistake inside an instruction. -/
theorem first_mistake_is_reported (text : List Char) :
    (∀ e, Program.assemble text = .error (.malformed e) ↔ Rejected text e) ∧
    (∀ l ∈ lines text, (∀ s, ¬ Says (Statement.code l) s) →
      ∃ above l' below, lines text = above ++ l' :: below ∧
        (∀ l'' ∈ above, ∃ s, Says (Statement.code l'') s) ∧ (∀ s, ¬ Says (Statement.code l') s) ∧
        Program.assemble text = .error (.malformed ⟨lineCause l', above.length + 1⟩)) ∧
    ∀ ss, Reads text ss → ¬ (definedLabels ss).Nodup →
      ∃ above name below, ss = above ++ some (.label name) :: below ∧ (definedLabels above).Nodup ∧
        name ∈ definedLabels above ∧
        Program.assemble text = .error (.malformed ⟨.duplicateLabel name, above.length + 1⟩) := by
  refine ⟨fun e => Program.assemble_eq_malformed_iff_rejected, fun l hl hno => ?_,
    fun ss hreads hdup => ?_⟩
  · obtain ⟨above, l', below, hls, habove, hl'⟩ := exists_first_unreadable hl hno
    exact ⟨above, l', below, hls, habove, hl',
      Program.assemble_eq_malformed_iff_rejected.2 (.line hls habove hl')⟩
  · obtain ⟨above, name, below, rfl, hnodup, hmem⟩ := exists_first_duplicate hdup
    exact ⟨above, name, below, rfl, hnodup, hmem,
      Program.assemble_eq_malformed_iff_rejected.2 (.label hreads hnodup hmem)⟩

/-- A later line that ends in a colon is reported before an unknown operator, although it has no
more than three words. -/
theorem later_colon_reported_first :
    ¬ ∀ text ss e, List.Forall₂ (fun l s => SaysLoosely (Statement.code l) s) (lines text) ss →
      (definedLabels ss).Nodup → Program.assemble text = .error (.malformed e) →
      ∀ above op words below, ss = above ++ some (.instruction op words) :: below →
        (∀ s ∈ instructionLines above, ∃ ins, Denotes (LabelIndex ss) s ins) →
        (∀ o : Operator, o.name ≠ op) → e = ⟨.unknownOperator op, above.length + 1⟩ := by
  intro hclaim
  have hlines : lines "FOO\nJMP x:".toList = ["FOO".toList, "JMP x:".toList] := by decide +kernel
  have hfirst : Statement.ofLine "FOO".toList = .ok (some (.instruction "FOO".toList [])) := by
    decide +kernel
  have hreported : Program.assemble "FOO\nJMP x:".toList =
      .error (.malformed ⟨.invalidLabel "JMP x:".toList, 2⟩) :=
    Program.assemble_eq_error (by decide +kernel)
  have hsays : List.Forall₂ (fun l s => SaysLoosely (Statement.code l) s)
      (lines "FOO\nJMP x:".toList)
      [some (.instruction "FOO".toList []), some (.instruction "JMP".toList ["x:".toList])] := by
    rw [hlines]
    exact .cons (.inl (ofLine_eq_ok_iff.1 hfirst)) (.cons saysLoosely_jump_colon .nil)
  have hlater := hclaim _ _ _ hsays (by decide) hreported [] "FOO".toList []
    [some (.instruction "JMP".toList ["x:".toList])] rfl (by rintro s ⟨⟩)
    (by intro o; cases o <;> decide)
  cases hlater

end RegisterMachine
