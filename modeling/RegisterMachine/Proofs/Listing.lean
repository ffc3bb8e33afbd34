import RegisterMachine.Proofs.Assembly
import RegisterMachine.Proofs.Number.ReadBack
import RegisterMachine.Proofs.Text.UpperCase

/-!
# Listings are assembly texts

A line of a listing, without the index in front, is an instruction that the assembler reads. The
text of an operand says of which kind it is: a register by its name, a number by the hash sign, an
index by the at sign, nothing by the underscore, which stands even where only a destination follows.

* `Program.source`: the instructions of a program, one a line.
* `Program.Writable`: every operator is known and no index is too long to be read.

Principal results: `Operand.resolve_text` (an operand is read back from its text), `ofLine_text` (an
instruction from its line), `writable_of_assemble` (what the assembler accepts can be written) and
`assemble_source`, the round trip over whole programs.
-/

set_option autoImplicit false

namespace RegisterMachine

open Text

/-! ## Operands -/

namespace Operand

/-- An operand that the assembler can read: an index must not be too long. -/
def Readable : Operand → Prop
  | .index n => (Number.digits n.natAbs).length ≤ Number.maxDigits
  | _ => True

instance (o : Operand) : Decidable o.Readable :=
  match o with
  | .index n => inferInstanceAs (Decidable ((Number.digits n.natAbs).length ≤ Number.maxDigits))
  | .register _ | .number _ | .absent => isTrue trivial

theorem isPlain_text (o : Operand) : ∀ c ∈ o.text, isPlain c = true := by
  cases o with
  | register r => exact List.all_eq_true.1 (by cases r <;> decide)
  | number x =>
    intro c hc
    rcases List.mem_cons.1 hc with rfl | hc
    · decide
    · exact Number.isPlain_text x c hc
  | index n =>
    intro c hc
    rcases List.mem_cons.1 hc with rfl | hc
    · decide
    · exact Number.isPlain_intText n c hc
  | absent => exact List.all_eq_true.1 (by decide)

theorem text_ne_nil (o : Operand) : o.text ≠ [] := by
  cases o with
  | register r => cases r <;> decide
  | number x => exact List.cons_ne_nil _ _
  | index n => exact List.cons_ne_nil _ _
  | absent => exact List.cons_ne_nil _ _

theorem upper_name (r : Register) : upper r.name = r.name :=
  upper_of_lt (by cases r <;> simp [Register.name])

/-- A word that begins with a sign names no register. -/
theorem ofName?_upper_sign {c : Char} (hc : c.toNat < 0x61) (hr : c ≠ 'R') (cs : List Char) :
    Register.ofName? (upper (c :: cs)) = none := by
  rw [upper_cons, upperChar_of_lt hc, Register.ofName?, List.find?_eq_none]
  intro r _
  cases r <;> simp [Register.name, hr.symm]

theorem isNumeric_intText (n : Int) : Labels.isNumeric (Number.intText n) = true := by
  have hds : (Number.digits n.natAbs).dropWhile (· == '-') = Number.digits n.natAbs := by
    refine dropWhile_of_head fun c hc => ?_
    have hd := Number.isDigit_of_mem_digits (List.mem_of_mem_head? hc)
    rw [beq_eq_false_iff_ne]
    rintro rfl
    cases hd
  have hstrip : (Number.intText n).dropWhile (· == '-') = Number.digits n.natAbs := by
    unfold Number.intText
    split
    · rw [List.dropWhile_cons_of_pos rfl, hds]
    · exact hds
  unfold Labels.isNumeric
  rw [hstrip, Bool.and_eq_true, List.all_eq_true]
  refine ⟨by simp [Number.digits_ne_nil], fun c hc => ?_⟩
  simp [isDigitLike, Number.isDecimal_of_isDigit (Number.isDigit_of_mem_digits hc)]

/-- **An operand is read back from its text.** -/
theorem resolve_text {o : Operand} (h : o.Readable) : Labels.resolve [] o.text = .ok o := by
  unfold Labels.resolve
  cases o with
  | absent => rfl
  | register r =>
    rw [if_neg (by cases r <;> decide), text, upper_name, Register.ofName?_name]
  | number x =>
    rw [if_neg (by simp [text]), text, ofName?_upper_sign (by decide) (by decide)]
    simp [Labels.index?, Labels.resolveNumber, Number.readReal?_text]
  | index n =>
    rw [if_neg (by simp [text]), text, ofName?_upper_sign (by decide) (by decide)]
    simp [Labels.resolveTarget, isNumeric_intText, Scalar.textToInt, Number.readInt_intText h]

theorem readable_getD {operands : List Operand} (h : ∀ o ∈ operands, o.Readable) (i : Nat) :
    (operands[i]?.getD .absent).Readable := by
  cases ho : operands[i]? with
  | none => trivial
  | some o => exact h o (List.mem_of_getElem? ho)

/-- What a word stands for can be written, if the labels can. -/
theorem readable_of_resolve {labels : Labels} {word : List Char} {o : Operand}
    (hlabels : ∀ name k, labels.index? name = some k → (Operand.index k).Readable)
    (h : labels.resolve word = .ok o) : o.Readable := by
  unfold Labels.resolve at h
  split at h
  · cases h; trivial
  · split at h
    · cases h; trivial
    · split at h
      · unfold Labels.resolveTarget at h
        split at h
        · split at h
          · rename_i n hn
            cases h
            unfold Scalar.textToInt at hn
            split at hn
            · rename_i hread
              cases hn
              exact Number.length_digits_of_readInt hread
            · cases hn
            · cases hn
          · cases h
        · split at h
          · rename_i hindex
            cases h
            exact hlabels _ _ hindex
          · cases h
      · split at h
        · rename_i hindex
          cases h
          exact hlabels _ _ hindex
        · unfold Labels.resolveNumber at h
          dsimp only at h
          split at h
          · cases h; trivial
          · cases h

end Operand

/-! ## Instructions -/

namespace Instruction

/-- The words of the operands that a listing shows. -/
def operandWords (ins : Instruction) : List (List Char) :=
  match ins.src, ins.dst with
  | .absent, .absent => []
  | src, .absent => [src.text]
  | src, dst => [src.text, dst.text]

/-- What a listing shows: nothing, the source, or both operands. -/
theorem operandText_cases (ins : Instruction) :
    (ins.src = .absent ∧ ins.dst = .absent ∧ ins.operandText = [] ∧ ins.operandWords = []) ∨
    (ins.dst = .absent ∧ ins.operandText = ' ' :: ins.src.text ∧
      ins.operandWords = [ins.src.text]) ∨
    (ins.operandText = ' ' :: ins.src.text ++ ',' :: ' ' :: ins.dst.text ∧
      ins.operandWords = [ins.src.text, ins.dst.text]) := by
  obtain ⟨op, src, dst⟩ := ins
  cases dst with
  | absent =>
    cases src with
    | absent => exact .inl ⟨rfl, rfl, rfl, rfl⟩
    | _ => exact .inr (.inl ⟨rfl, rfl, rfl⟩)
  | _ => cases src <;> exact .inr (.inr ⟨rfl, rfl⟩)

end Instruction

theorem Operator.isPlain_name (op : Operator) : ∀ c ∈ op.name, isPlain c = true :=
  List.all_eq_true.1 (by cases op <;> decide)

theorem Operator.name_ne_nil (op : Operator) : op.name ≠ [] := by
  cases op <;> decide

theorem Operator.upper_name (op : Operator) : upper op.name = op.name :=
  upper_of_lt (by cases op <;> simp [name])

theorem isSeparator_space : isSeparator ' ' = true ∧ isSeparator ',' = true := by
  simp [isSeparator, isBlank, inRanges, blankRanges]

theorem words_of_plain {w : List Char} (hw : w ≠ []) (h : ∀ c ∈ w, isPlain c = true) :
    words isSeparator w = [w] :=
  words_of_not_sep hw fun c hc => isSeparator_of_isPlain (h c hc)

namespace Instruction

variable {ins : Instruction} {op : Operator}

/-- The words of an instruction's line. -/
theorem words_text (hop : ins.op = .known op) :
    words isSeparator ins.text = op.name :: ins.operandWords := by
  have hname := words_of_plain op.name_ne_nil op.isPlain_name
  have hword := fun o : Operand => words_of_plain o.text_ne_nil o.isPlain_text
  obtain ⟨hspace, hcomma⟩ := isSeparator_space
  unfold text
  rw [hop, Opcode.name]
  rcases operandText_cases ins with ⟨-, -, ht, hw⟩ | ⟨-, ht, hw⟩ | ⟨ht, hw⟩
  · rw [ht, hw, List.append_nil, hname]
  · rw [ht, hw, words_append_cons hspace, hname, hword]
    rfl
  · rw [ht, hw, List.cons_append, words_append_cons hspace, hname, words_append_cons hcomma, hword,
      words_cons_of_sep hspace, hword]
    rfl

/-- The characters of an instruction's line: plain ones, blanks and commas. -/
theorem mem_text {c : Char} (hop : ins.op = .known op) (hc : c ∈ ins.text) :
    isPlain c = true ∨ c = ' ' ∨ c = ',' := by
  unfold text at hc
  rw [hop, Opcode.name, List.mem_append] at hc
  rcases hc with hc | hc
  · exact .inl (op.isPlain_name c hc)
  · rcases operandText_cases ins with ⟨-, -, ht, -⟩ | ⟨-, ht, -⟩ | ⟨ht, -⟩
    · rw [ht] at hc
      cases hc
    · rw [ht] at hc
      rcases List.mem_cons.1 hc with rfl | hc
      · exact .inr (.inl rfl)
      · exact .inl (ins.src.isPlain_text c hc)
    · simp only [ht, List.cons_append, List.mem_cons, List.mem_append] at hc
      rcases hc with rfl | hc | rfl | rfl | hc
      · exact .inr (.inl rfl)
      · exact .inl (ins.src.isPlain_text c hc)
      · exact .inr (.inr rfl)
      · exact .inr (.inl rfl)
      · exact .inl (ins.dst.isPlain_text c hc)

theorem text_eq_append (hop : ins.op = .known op) :
    ∃ a w, ins.text = a ++ w ∧ w ≠ [] ∧ ∀ c ∈ w, isPlain c = true := by
  unfold text
  rw [hop, Opcode.name]
  rcases operandText_cases ins with ⟨-, -, ht, -⟩ | ⟨-, ht, -⟩ | ⟨ht, -⟩
  · exact ⟨[], op.name, by rw [ht, List.append_nil]; rfl, op.name_ne_nil, op.isPlain_name⟩
  · exact ⟨op.name ++ [' '], ins.src.text, by simp [ht], ins.src.text_ne_nil, ins.src.isPlain_text⟩
  · exact ⟨op.name ++ ' ' :: ins.src.text ++ [',', ' '], ins.dst.text, by simp [ht],
      ins.dst.text_ne_nil, ins.dst.isPlain_text⟩

theorem head?_text {c : Char} (hop : ins.op = .known op) (hc : ins.text.head? = some c) :
    isPlain c = true := by
  unfold text at hc
  rw [hop, Opcode.name, List.head?_append_of_ne_nil _ op.name_ne_nil] at hc
  exact op.isPlain_name c (List.mem_of_mem_head? hc)

theorem getLast?_text {c : Char} (hop : ins.op = .known op) (hc : ins.text.getLast? = some c) :
    isPlain c = true := by
  obtain ⟨a, w, htext, hw, hplain⟩ := text_eq_append hop
  rw [htext, List.getLast?_append_of_ne_nil _ hw] at hc
  exact hplain c (List.mem_of_mem_getLast? hc)

theorem text_ne_nil (hop : ins.op = .known op) : ins.text ≠ [] := by
  obtain ⟨a, w, htext, hw, -⟩ := text_eq_append hop
  simp [htext, hw]

theorem code_text (hop : ins.op = .known op) : Statement.code ins.text = ins.text := by
  have hcomment : ins.text.takeWhile (· != ';') = ins.text := by
    refine List.takeWhile_eq_self_iff.2 fun c hc => ?_
    rw [bne_iff_ne]
    rintro rfl
    rcases mem_text hop hc with h | h | h <;> cases h
  unfold Statement.code
  rw [hcomment]
  exact trim_of_ends (fun c hc => isBlank_of_isPlain (head?_text hop hc))
    fun c hc => isBlank_of_isPlain (getLast?_text hop hc)

/-- **An instruction is read from its line.** -/
theorem ofLine_text (hop : ins.op = .known op) :
    Statement.ofLine ins.text = .ok (some (.instruction op.name ins.operandWords)) := by
  have hcolon : (ins.text.getLast? == some ':') = false := by
    rw [beq_eq_false_iff_ne]
    intro h
    cases getLast?_text hop h
  have hlen : ins.operandWords.length ≤ 2 := by
    rcases operandText_cases ins with ⟨-, -, -, hw⟩ | ⟨-, -, hw⟩ | ⟨-, hw⟩ <;> simp [hw]
  unfold Statement.ofLine
  simp only [code_text hop, hcolon, words_text hop, hlen, List.isEmpty_iff, text_ne_nil hop,
    Operator.upper_name]
  rfl

theorem exists_operands (hsrc : ins.src.Readable) (hdst : ins.dst.Readable)
    (hop : ins.op = .known op) :
    ∃ operands, List.Forall₂ (fun w o => Labels.resolve [] w = .ok o) ins.operandWords operands ∧
      ofOperands op operands = ins := by
  have hs := Operand.resolve_text hsrc
  have hd := Operand.resolve_text hdst
  obtain ⟨opcode, src, dst⟩ := ins
  subst hop
  rcases operandText_cases ⟨.known op, src, dst⟩ with ⟨rfl, rfl, -, hw⟩ | ⟨rfl, -, hw⟩ | ⟨-, hw⟩
  · exact ⟨[], hw ▸ .nil, rfl⟩
  · exact ⟨[src], hw ▸ .cons hs .nil, rfl⟩
  · exact ⟨[src, dst], hw ▸ .cons hs (.cons hd .nil), rfl⟩

theorem assemble_operandWords (hsrc : ins.src.Readable) (hdst : ins.dst.Readable)
    (hop : ins.op = .known op) :
    (ins.LacksTarget →
      assemble [] op.name ins.operandWords = .error (.cause (.missingTarget op.name))) ∧
    (¬ ins.LacksTarget → assemble [] op.name ins.operandWords = .ok ins) := by
  obtain ⟨operands, hwords, heq⟩ := exists_operands hsrc hdst hop
  have h := assemble_of_operands op.ofName?_name hwords
  rw [heq] at h
  exact h

end Instruction

/-! ## Programs -/

namespace Program

/-- The instructions of a program, one a line. -/
def source (p : Program) : List Char := ['\n'].intercalate (p.toList.map Instruction.text)

/-- A line of a listing without the index in front. -/
def dropIndex (line : List Char) : List Char := (line.dropWhile (· != ' ')).drop 2

/-- A program that can be written: every operator is known, no index is too long. -/
structure Writable (p : Program) : Prop where
  known : ∀ ins ∈ p, ∃ op, ins.op = .known op
  readable : ∀ ins ∈ p, ins.src.Readable ∧ ins.dst.Readable

instance (op : Opcode) : Decidable (∃ operator, op = .known operator) :=
  match op with
  | .known operator => isTrue ⟨operator, rfl⟩
  | .unknown _ => isFalse fun ⟨_, h⟩ => by cases h

instance (p : Program) : Decidable p.Writable :=
  decidable_of_iff ((∀ ins ∈ p, ∃ op, ins.op = .known op) ∧
      ∀ ins ∈ p, ins.src.Readable ∧ ins.dst.Readable)
    ⟨fun h => ⟨h.1, h.2⟩, fun h => ⟨h.known, h.readable⟩⟩

theorem dropIndex_line (n : Nat) (ins : Instruction) : dropIndex (ins.line n) = ins.text := by
  have hdigits : ∀ c ∈ Number.padded 4 n, (c != ' ') = true := by
    intro c hc
    have hd : c.isDigit = true := by
      unfold Number.padded at hc
      rw [if_neg (by omega)] at hc
      exact Number.digits_zeroFill c hc
    rw [bne_iff_ne]
    rintro rfl
    cases hd
  unfold dropIndex Instruction.line
  rw [List.dropWhile_append_of_pos hdigits]
  rfl

theorem listing_dropIndex (p : Program) :
    p.listing.map dropIndex = p.toList.map Instruction.text := by
  unfold listing
  rw [List.map_map]
  have hline : dropIndex ∘ (fun e : Instruction × Nat => e.1.line e.2) =
      Instruction.text ∘ Prod.fst :=
    funext fun e => dropIndex_line e.2 e.1
  rw [hline, ← List.map_map, List.zipIdx_map_fst]

/-- The rows of instructions in lines numbered from `n` on. -/
def rowsFrom (n : Nat) : List Instruction → List Row
  | [] => []
  | ins :: code => ⟨n, .instruction ins.op.name ins.operandWords⟩ :: rowsFrom (n + 1) code

theorem ofLines_text {code : List Instruction} (h : ∀ ins ∈ code, ∃ op, ins.op = .known op)
    (n : Nat) : Row.ofLines n (code.map Instruction.text) = .ok (rowsFrom n code) := by
  induction code generalizing n with
  | nil => rfl
  | cons ins code ih =>
    obtain ⟨op, hop⟩ := h ins List.mem_cons_self
    rw [List.map_cons, Row.ofLines, Instruction.ofLine_text hop]
    dsimp only
    rw [ih fun ins' h' => h ins' (List.mem_cons_of_mem ins h'), rowsFrom, hop]
    rfl

theorem located_rowsFrom (n pc : Nat) (code : List Instruction) :
    Labels.located pc ((rowsFrom n code).map (·.statement)) = [] := by
  induction code generalizing n pc with
  | nil => rfl
  | cons ins code ih => exact ih (n + 1) (pc + 1)

/-- The rows of a program are assembled up to the first jump without an index. -/
theorem ofRows_rowsFrom {code : List Instruction} (hknown : ∀ ins ∈ code, ∃ op, ins.op = .known op)
    (hreadable : ∀ ins ∈ code, ins.src.Readable ∧ ins.dst.Readable) (n : Nat) :
    ((∀ ins ∈ code, ¬ ins.LacksTarget) ∧ ofRows [] (rowsFrom n code) = .ok code) ∨
      ∃ i ins op, code[i]? = some ins ∧ ins.op = .known op ∧ ins.LacksTarget ∧
        (∀ j < i, ∀ ins', code[j]? = some ins' → ¬ ins'.LacksTarget) ∧
        ofRows [] (rowsFrom n code) = .error (.malformed ⟨.missingTarget op.name, n + i⟩) := by
  induction code generalizing n with
  | nil => exact .inl ⟨fun ins h => absurd h List.not_mem_nil, rfl⟩
  | cons ins code ih =>
    obtain ⟨op, hop⟩ := hknown ins List.mem_cons_self
    obtain ⟨hsrc, hdst⟩ := hreadable ins List.mem_cons_self
    obtain ⟨hlacks, hgives⟩ := Instruction.assemble_operandWords hsrc hdst hop
    rw [rowsFrom, ofRows, hop, Opcode.name]
    by_cases hjump : ins.LacksTarget
    · refine .inr ⟨0, ins, op, rfl, hop, hjump, fun j hj => absurd hj (Nat.not_lt_zero j), ?_⟩
      rw [hlacks hjump]
      rfl
    · rw [hgives hjump]
      dsimp only
      rcases ih (fun i h => hknown i (List.mem_cons_of_mem ins h))
        (fun i h => hreadable i (List.mem_cons_of_mem ins h)) (n + 1) with
        ⟨hnone, hrest⟩ | ⟨i, ins', op', hi, hop', hjump', hbefore, hrest⟩
      · refine .inl ⟨?_, by rw [hrest]; rfl⟩
        intro ins' h'
        rcases List.mem_cons.1 h' with rfl | h'
        · exact hjump
        · exact hnone ins' h'
      · refine .inr ⟨i + 1, ins', op', hi, hop', hjump', ?_, ?_⟩
        · rintro (_ | j) hj ins'' hins
          · cases hins
            exact hjump
          · exact hbefore j (Nat.lt_of_succ_lt_succ hj) ins'' hins
        · rw [hrest, Nat.add_right_comm, Nat.add_assoc]
          rfl

theorem assemble_source_eq {p : Program} (h : p.Writable) :
    assemble p.source = (ofRows [] (rowsFrom 1 p.toList)).map (·.toArray) := by
  have hknown : ∀ ins ∈ p.toList, ∃ op, ins.op = .known op :=
    fun ins hins => h.known ins (Array.mem_toList_iff.1 hins)
  have hlines : lines p.source = p.toList.map Instruction.text := by
    refine lines_join ?_ ?_
    · intro l hl
      obtain ⟨ins, hins, rfl⟩ := List.mem_map.1 hl
      obtain ⟨op, hop⟩ := hknown ins hins
      exact Instruction.text_ne_nil hop
    · intro l hl c hc
      obtain ⟨ins, hins, rfl⟩ := List.mem_map.1 hl
      obtain ⟨op, hop⟩ := hknown ins hins
      rcases Instruction.mem_text hop hc with hplain | rfl | rfl
      · exact isLineBreak_of_isPlain hplain
      · simp [isLineBreak, inRanges, lineBreakRanges]
      · simp [isLineBreak, inRanges, lineBreakRanges]
  have hparse : Row.parse p.source = .ok (rowsFrom 1 p.toList) := by
    rw [Row.parse, hlines, ofLines_text hknown]
  have hlabels := (@Labels.collect_eq_ok_iff [] (rowsFrom 1 p.toList)).2
    ⟨(located_rowsFrom 1 0 p.toList).symm, List.nodup_nil⟩
  exact assemble_of_passes hparse hlabels

/-- **What the assembler accepts can be written, and every jump has its index.** A text of fewer
than `10 ^ maxDigits` characters has no label whose index is too long; no memory holds a longer
text. -/
theorem writable_of_assemble {text : List Char} {p : Program}
    (hlen : text.length < 10 ^ Number.maxDigits) (h : assemble text = .ok p) :
    p.Writable ∧ ∀ ins ∈ p, ¬ ins.LacksTarget := by
  obtain ⟨ss, hss, hnodup, hcode⟩ := assemble_eq_ok_iff.1 h
  have hlabels : ∀ name k, (Labels.located 0 (ss.filterMap id)).index? name = some k →
      (Operand.index k).Readable := by
    intro name k hk
    have hle := Labels.le_length_of_mem_located ((Labels.index?_eq_some_iff hnodup).1 hk)
    have hlines := length_lines_le text
    have hcount := hss.length_eq
    refine (Number.length_digits_le_iff (by decide)).2 ?_
    rw [Int.natAbs_natCast]
    omega
  have hins : ∀ ins ∈ p, ∃ op operands, ins = Instruction.ofOperands op operands ∧
      (∀ o ∈ operands, o.Readable) ∧ ¬ ins.LacksTarget := by
    intro ins hmem
    obtain ⟨s, -, hs⟩ := exists_of_forall₂ hcode (Array.mem_toList_iff.2 hmem)
    obtain ⟨op, operands, -, hwords, heq, hjump⟩ := Instruction.assemble_eq_ok_iff.1 hs
    refine ⟨op, operands, heq, fun o ho => ?_, hjump⟩
    obtain ⟨w, -, hw⟩ := exists_of_forall₂ hwords ho
    exact Operand.readable_of_resolve hlabels hw
  refine ⟨⟨fun ins hmem => ?_, fun ins hmem => ?_⟩, fun ins hmem => ?_⟩
  · obtain ⟨op, operands, rfl, -⟩ := hins ins hmem
    exact ⟨op, rfl⟩
  · obtain ⟨op, operands, rfl, hreadable, -⟩ := hins ins hmem
    exact ⟨Operand.readable_getD hreadable 0, Operand.readable_getD hreadable 1⟩
  · obtain ⟨-, -, -, -, hjump⟩ := hins ins hmem
    exact hjump

/-- **Listing and assembling are inverse to each other.** A program that can be written is assembled
from its listing without the indices, or, if it has jumps without an index, the first of these is
reported with its line. So the listing of an assembled text is assembled to the same program. -/
theorem assemble_source :
    (∀ p : Program, p.Writable →
      p.source = ['\n'].intercalate (p.listing.map dropIndex) ∧
      ((∀ ins ∈ p, ¬ ins.LacksTarget) → assemble p.source = .ok p) ∧
      ((∃ ins ∈ p, ins.LacksTarget) →
        ∃ i ins op, p[i]? = some ins ∧ ins.op = .known op ∧ ins.LacksTarget ∧
          (∀ j < i, ∀ ins', p[j]? = some ins' → ¬ ins'.LacksTarget) ∧
          assemble p.source = .error (.malformed ⟨.missingTarget op.name, 1 + i⟩) ∧
          (SyntaxCause.missingTarget op.name).message =
            String.ofList op.name ++ " needs a jump target")) ∧
    ∀ text p, text.length < 10 ^ Number.maxDigits → assemble text = .ok p →
      assemble p.source = .ok p := by
  have hgood : ∀ p : Program, p.Writable → (∀ ins ∈ p, ¬ ins.LacksTarget) →
      assemble p.source = .ok p := by
    intro p hp hjumps
    rw [assemble_source_eq hp]
    rcases ofRows_rowsFrom (fun ins h => hp.known ins (Array.mem_toList_iff.1 h))
      (fun ins h => hp.readable ins (Array.mem_toList_iff.1 h)) 1 with
      ⟨-, hrows⟩ | ⟨i, ins, op, hi, -, hjump, -⟩
    · rw [hrows]
      rfl
    · exact absurd hjump (hjumps ins (Array.mem_toList_iff.1 (List.mem_of_getElem? hi)))
  refine ⟨fun p hp => ⟨by rw [listing_dropIndex]; rfl, hgood p hp, ?_⟩, ?_⟩
  · rintro ⟨bad, hbad, hlacks⟩
    rw [assemble_source_eq hp]
    rcases ofRows_rowsFrom (fun ins h => hp.known ins (Array.mem_toList_iff.1 h))
      (fun ins h => hp.readable ins (Array.mem_toList_iff.1 h)) 1 with
      ⟨hnone, -⟩ | ⟨i, ins, op, hi, hop, hjump, hbefore, hrows⟩
    · exact absurd hlacks (hnone bad (Array.mem_toList_iff.2 hbad))
    · refine ⟨i, ins, op, by simpa using hi, hop, hjump, ?_, by rw [hrows]; rfl, rfl⟩
      intro j hj ins' hins
      exact hbefore j hj ins' (by simpa using hins)
  · intro text p hlen h
    obtain ⟨hp, hjumps⟩ := writable_of_assemble hlen h
    exact hgood p hp hjumps

/-- A negative zero and an index before the program come back, a branch to nowhere is reported with
its line, and the listing of an assembled text is assembled again. -/
theorem assemble_source_samples :
    let p : Program := #[⟨.known .mov, .number (-0.0), .register .r1⟩,
      ⟨.known .jmp, .absent, .index (-3)⟩]
    let q : Program := #[⟨.known .nop, .absent, .absent⟩, ⟨.known .jmt, .register .r1, .absent⟩]
    let r : Program := #[⟨.known .nop, .absent, .absent⟩]
    assemble p.source = .ok p ∧
      assemble q.source = .error (.malformed ⟨.missingTarget ['J', 'M', 'T'], 2⟩) ∧
      assemble ['N', 'O', 'P'] = .ok r ∧ assemble r.source = .ok r := by
  intro p q r
  have hnop : assemble r.source = .ok r := (assemble_source.1 r (by decide)).2.1 (by decide)
  have hshort : r.source.length < 10 ^ Number.maxDigits :=
    Nat.lt_of_lt_of_le (show 3 < 10 ^ 1 by decide) (Nat.pow_le_pow_right (by decide) (by decide))
  refine ⟨(assemble_source.1 p (by decide)).2.1 (by decide), ?_, hnop,
    assemble_source.2 r.source r hshort hnop⟩
  obtain ⟨i, ins, op, hi, hop, hjump, -, herr, -⟩ :=
    (assemble_source.1 q (by decide)).2.2 (by decide)
  match i, hi with
  | 0, hi =>
    cases hi
    exact absurd hjump (by decide)
  | 1, hi =>
    cases hi
    cases hop
    exact herr

end Program

end RegisterMachine
