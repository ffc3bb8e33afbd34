import Mathlib.Logic.Relation
import RegisterMachine.Proofs.Language

/-!
# Layout does not change meaning

Blank lines, comments, blanks at the ends of a line's code, the kind and the number of separators
between two words and the blanks before a label's colon can be changed freely: the text keeps its
statements and, if it is a program, remains the same program.

* `CodeEdit`: a change of the code of one line that keeps what the line says.
* `LineEdit`: a change of one line, in its code or in its comment.
* `Edit`: a change of one line of a text, or a line without code put in or taken out.
* `statements?`: what lines say one after another, nothing if one of them cannot be read.

Principal results: `LineEdit.ofLine_eq_ok_iff` (an edited line says the same), `Edit.statements?_eq`
(an edited text says the same) and `layout_is_immaterial`.
-/

set_option autoImplicit false

namespace RegisterMachine

open Text

/-! ## Edits -/

/-- A change of the code of a line, of what stands before its first semicolon. -/
inductive CodeEdit : List Char → List Char → Prop where
  /-- Other blanks at the two ends. -/
  | margins {a a' cs b b' : List Char} :
    (∀ c ∈ a, isBlank c = true) → (∀ c ∈ a', isBlank c = true) → (∀ c ∈ b, isBlank c = true) →
    (∀ c ∈ b', isBlank c = true) → CodeEdit (a ++ cs ++ b) (a' ++ cs ++ b')
  /-- Other blanks and commas between two words, in a line that is no label line. -/
  | gap {a g g' b : List Char} {x y : Char} : (trim isBlank (a ++ g ++ b)).getLast? ≠ some ':' →
    a.getLast? = some x → isSeparator x = false → b.head? = some y → isSeparator y = false →
    g ≠ [] → (∀ c ∈ g, isSeparator c = true) → g' ≠ [] → (∀ c ∈ g', isSeparator c = true) →
    CodeEdit (a ++ g ++ b) (a ++ g' ++ b)
  /-- Other blanks before the colon of a label line. -/
  | colon {cs g g' b : List Char} : (∀ c ∈ g, isBlank c = true) → (∀ c ∈ g', isBlank c = true) →
    (∀ c ∈ b, isBlank c = true) → CodeEdit (cs ++ g ++ ':' :: b) (cs ++ g' ++ ':' :: b)

/-- No comment, or one: what begins with a semicolon. -/
def IsComment (cs : List Char) : Prop := ∀ c, cs.head? = some c → c = ';'

/-- A change of one line. -/
inductive LineEdit : List Char → List Char → Prop where
  /-- Another comment, one where there was none, or none where there was one. -/
  | comment {cs c c' : List Char} : ';' ∉ cs → IsComment c → IsComment c' →
    LineEdit (cs ++ c) (cs ++ c')
  /-- A change of the code before the comment. -/
  | code {cs cs' c : List Char} : CodeEdit cs cs' → ';' ∉ cs → ';' ∉ cs' → IsComment c →
    LineEdit (cs ++ c) (cs' ++ c)

/-- The end of a text after which a line begins. -/
def AtLineStart (above : List Char) : Prop := ∀ c, above.getLast? = some c → isLineBreak c = true

/-- The beginning of a text before which a line ends. -/
def AtLineEnd (below : List Char) : Prop := ∀ c, below.head? = some c → isLineBreak c = true

/-- What ends a line. -/
inductive IsBreak : List Char → Prop where
  | single {c : Char} : isLineBreak c = true → IsBreak [c]
  | double : IsBreak ['\r', '\n']

/-- A line without line breaks. -/
def Unbroken (l : List Char) : Prop := ∀ c ∈ l, isLineBreak c = false

/-- A line that is put in: it is blank up to its comment, and comes with the break that ends it or
with the one that ends the line above. -/
inductive Inserts : List Char → List Char → Prop where
  | above {a l brk b : List Char} : AtLineStart a → Unbroken l → Statement.code l = [] →
    IsBreak brk → Inserts (a ++ b) (a ++ (l ++ brk ++ b))
  | below {a l brk b : List Char} : AtLineEnd b → Unbroken l → Statement.code l = [] →
    IsBreak brk → Inserts (a ++ b) (a ++ brk ++ l ++ b)

/-- A change of a text. -/
inductive Edit : List Char → List Char → Prop where
  | line {above l l' below : List Char} : AtLineStart above → AtLineEnd below → Unbroken l →
    Unbroken l' → LineEdit l l' → Edit (above ++ l ++ below) (above ++ l' ++ below)
  | insert {t t' : List Char} : Inserts t t' → Edit t t'
  | delete {t t' : List Char} : Inserts t t' → Edit t' t

/-! ## Lines -/

theorem code_append_comment {cs c : List Char} (hcs : ';' ∉ cs) (hc : IsComment c) :
    Statement.code (cs ++ c) = trim isBlank cs := by
  have hpos : ∀ d ∈ cs, (d != ';') = true := by
    intro d hd
    simpa using fun heq : d = ';' => hcs (heq ▸ hd)
  unfold Statement.code
  rw [List.takeWhile_append_of_pos hpos]
  cases c with
  | nil => rw [List.takeWhile_nil, List.append_nil]
  | cons d c =>
    rw [hc d rfl, List.takeWhile_cons_of_neg (by simp), List.append_nil]

theorem isSeparator_of_isBlank {c : Char} (h : isBlank c = true) : isSeparator c = true := by
  simp [isSeparator, h]

theorem isBlank_colon : isBlank ':' = false := by
  simp [isBlank, inRanges, blankRanges]

theorem says_of_words {cs cs' : List Char} {s : Option Statement}
    (hlast : cs.getLast? ≠ some ':') (hlast' : cs'.getLast? ≠ some ':')
    (hne : words isSeparator cs ≠ []) (hwords : words isSeparator cs' = words isSeparator cs)
    (h : Says cs s) : Says cs' s := by
  cases h with
  | blank => exact absurd rfl hne
  | label => exact absurd (by simp) hlast
  | instruction _ hparts hlen =>
    exact .instruction hlast' (words_eq_iff.1 (hwords.trans (words_eq_iff.2 hparts))) hlen

theorem Statement.ofLine_of_colon {l x : List Char} (h : code l = x ++ [':']) :
    ofLine l = if (words isBlank (trim isBlank x)).length = 1 then
      .ok (some (.label (trim isBlank x))) else .error (.invalidLabel l) := by
  simp [ofLine, h]

/-- Two words may have any separators between them: a line with both ends as the second one does and
has the words of both. -/
theorem code_gap {a g b : List Char} {y : Char} (hb : b.head? = some y)
    (hy : isSeparator y = false) (hg : g ≠ []) (hsep : ∀ c ∈ g, isSeparator c = true) :
    (trim isBlank (a ++ g ++ b)).getLast? = (b.filter (!isBlank ·)).getLast? ∧
      words isSeparator (trim isBlank (a ++ g ++ b)) = words isSeparator a ++ words isSeparator b := by
  have hblank : (!isBlank y) = true := by
    cases h : isBlank y with
    | false => rfl
    | true => rw [isSeparator_of_isBlank h] at hy; cases hy
  have hvisible : b.filter (!isBlank ·) ≠ [] :=
    List.ne_nil_of_mem (List.mem_filter.2 ⟨List.mem_of_mem_head? hb, hblank⟩)
  refine ⟨?_, ?_⟩
  · rw [getLast?_trim_eq_filter, List.filter_append, List.getLast?_append_of_ne_nil _ hvisible]
  · rw [words_trim fun c => isSeparator_of_isBlank, words_append_seps_append hg hsep]

theorem says_gap {a g g' b : List Char} {y : Char} {s : Option Statement}
    (hlast : (trim isBlank (a ++ g ++ b)).getLast? ≠ some ':') (hb : b.head? = some y)
    (hy : isSeparator y = false) (hg : g ≠ []) (hsep : ∀ c ∈ g, isSeparator c = true)
    (hg' : g' ≠ []) (hsep' : ∀ c ∈ g', isSeparator c = true) :
    Says (trim isBlank (a ++ g ++ b)) s ↔ Says (trim isBlank (a ++ g' ++ b)) s := by
  obtain ⟨hend, hwords⟩ := @code_gap a g b y hb hy hg hsep
  obtain ⟨hend', hwords'⟩ := @code_gap a g' b y hb hy hg' hsep'
  have hlast' : (trim isBlank (a ++ g' ++ b)).getLast? ≠ some ':' := by
    rwa [hend', ← hend]
  have hne : words isSeparator a ++ words isSeparator b ≠ [] := by
    intro hnil
    have hall := sep_of_words_eq_nil (List.append_eq_nil_iff.1 hnil).2
    rw [hall y (List.mem_of_mem_head? hb)] at hy
    cases hy
  exact ⟨says_of_words hlast hlast' (by rwa [hwords]) (by rw [hwords, hwords']),
    says_of_words hlast' hlast (by rwa [hwords']) (by rw [hwords, hwords'])⟩

theorem trim_name {cs g : List Char} (hg : ∀ c ∈ g, isBlank c = true) :
    trim isBlank ((cs ++ g).dropWhile isBlank) = trim isBlank cs := by
  have hdrop : trim isBlank ((cs ++ g).dropWhile isBlank) = trim isBlank (cs ++ g) := by
    unfold trim
    rw [dropWhile_of_head fun c hc => head?_dropWhile hc]
  have htrim := @trim_append_append isBlank cs [] g (fun c hc => absurd hc List.not_mem_nil) hg
  rw [hdrop]
  exact htrim

/-- **An edited line says the same.** -/
theorem LineEdit.ofLine_eq_ok_iff {l l' : List Char} (h : LineEdit l l') (s : Option Statement) :
    Statement.ofLine l = .ok s ↔ Statement.ofLine l' = .ok s := by
  cases h with
  | comment hcs hc hc' =>
    rw [RegisterMachine.ofLine_eq_ok_iff, RegisterMachine.ofLine_eq_ok_iff,
      code_append_comment hcs hc, code_append_comment hcs hc']
  | code hedit hcs hcs' hc =>
    have hcode := code_append_comment hcs hc
    have hcode' := code_append_comment hcs' hc
    cases hedit with
    | margins ha ha' hb hb' =>
      rw [RegisterMachine.ofLine_eq_ok_iff, RegisterMachine.ofLine_eq_ok_iff, hcode, hcode',
        trim_append_append ha hb, trim_append_append ha' hb']
    | gap hlast _ _ hb hy hg hsep hg' hsep' =>
      rw [RegisterMachine.ofLine_eq_ok_iff, RegisterMachine.ofLine_eq_ok_iff, hcode, hcode']
      exact says_gap hlast hb hy hg hsep hg' hsep'
    | colon hg hg' hb =>
      rw [trim_append_cons_of_not_sep isBlank_colon hb] at hcode hcode'
      rw [Statement.ofLine_of_colon hcode, Statement.ofLine_of_colon hcode', trim_name hg,
        trim_name hg']
      split
      · rfl
      · exact iff_of_false (fun h => (by cases h)) fun h => (by cases h)

/-! ## Texts -/

/-- What lines say one after another, nothing if one of them cannot be read. -/
def statements? : List (List Char) → Option (List Statement)
  | [] => some []
  | l :: ls =>
    match Statement.ofLine l with
    | .error _ => none
    | .ok s => (statements? ls).map (s.toList ++ ·)

theorem statements?_append (ls ls' : List (List Char)) : statements? (ls ++ ls') =
    (statements? ls).bind fun ss => (statements? ls').map (ss ++ ·) := by
  induction ls with
  | nil => simp [statements?]
  | cons l ls ih =>
    rw [List.cons_append, statements?, statements?, ih]
    cases Statement.ofLine l with
    | error _ => rfl
    | ok s => cases statements? ls <;> simp [Function.comp_def]

theorem statements?_of_code_eq_nil {l : List Char} (h : Statement.code l = []) :
    statements? [l] = some [] := by
  simp [statements?, Statement.ofLine, h]

/-- Empty lines need not be looked at. -/
theorem statements?_filter (ls : List (List Char)) :
    statements? (ls.filter (!·.isEmpty)) = statements? ls := by
  induction ls with
  | nil => rfl
  | cons l ls ih =>
    cases l with
    | nil =>
      rw [List.filter_cons_of_neg (by simp), ih, ← List.singleton_append, statements?_append,
        statements?_of_code_eq_nil rfl]
      simp
    | cons c l =>
      rw [List.filter_cons_of_pos (by simp)]
      simp only [statements?, ih]

theorem statements?_words_of_unbroken {l : List Char} (h : Unbroken l) :
    statements? (words isLineBreak l) = statements? [l] := by
  cases l with
  | nil => rfl
  | cons c l => rw [words_of_not_sep (List.cons_ne_nil c l) h]

theorem statements?_congr {l l' : List Char}
    (h : ∀ s, Statement.ofLine l = .ok s ↔ Statement.ofLine l' = .ok s) :
    statements? [l] = statements? [l'] := by
  unfold statements?
  cases hl : Statement.ofLine l with
  | ok s => rw [(h s).1 hl]
  | error e =>
    cases hl' : Statement.ofLine l' with
    | ok s => rw [(h s).2 hl'] at hl; cases hl
    | error e' => rfl

theorem words_append_of_atLineStart {a : List Char} (h : AtLineStart a) (b : List Char) :
    words isLineBreak (a ++ b) = words isLineBreak a ++ words isLineBreak b := by
  cases hlast : a.getLast? with
  | none => rw [List.getLast?_eq_none_iff.1 hlast]; rfl
  | some c =>
    have hbreak := h c hlast
    rw [← List.dropLast_append_getLast? c hlast, List.append_assoc, List.singleton_append,
      words_append_cons hbreak, words_append_cons hbreak]
    simp [words, pieces]

theorem words_append_of_atLineEnd {b : List Char} (h : AtLineEnd b) (a : List Char) :
    words isLineBreak (a ++ b) = words isLineBreak a ++ words isLineBreak b := by
  cases b with
  | nil => simp [words, pieces]
  | cons c b =>
    rw [words_append_cons (h c rfl), words_cons_of_sep (h c rfl)]

theorem IsBreak.seps {brk : List Char} (h : IsBreak brk) :
    brk ≠ [] ∧ ∀ c ∈ brk, isLineBreak c = true := by
  cases h with
  | single hc => exact ⟨List.cons_ne_nil _ _, by simpa using hc⟩
  | double => exact ⟨List.cons_ne_nil _ _, by simp [isLineBreak, inRanges, lineBreakRanges]⟩

theorem statements?_append_append {ls ms rs : List (List Char)} (h : statements? ms = some []) :
    statements? (ls ++ ms ++ rs) = statements? (ls ++ rs) := by
  rw [statements?_append, statements?_append, statements?_append ls rs, h]
  cases statements? ls <;> simp

theorem Inserts.statements?_eq {t t' : List Char} (h : Inserts t t') :
    statements? (words isLineBreak t') = statements? (words isLineBreak t) := by
  cases h with
  | @above a l brk b ha hl hcode hbrk =>
    rw [words_append_of_atLineStart ha, words_append_of_atLineStart ha,
      words_append_seps_append hbrk.seps.1 hbrk.seps.2, ← List.append_assoc,
      statements?_append_append]
    rw [statements?_words_of_unbroken hl, statements?_of_code_eq_nil hcode]
  | @below a l brk b hb hl hcode hbrk =>
    rw [words_append_of_atLineEnd hb, words_append_of_atLineEnd hb,
      words_append_seps_append hbrk.seps.1 hbrk.seps.2, statements?_append_append]
    rw [statements?_words_of_unbroken hl, statements?_of_code_eq_nil hcode]

/-- **An edited text says the same.** -/
theorem Edit.statements?_eq {t t' : List Char} (h : Edit t t') :
    statements? (lines t) = statements? (lines t') := by
  rw [← statements?_filter, ← statements?_filter (lines t'), filter_lines, filter_lines]
  cases h with
  | insert h => exact h.statements?_eq.symm
  | delete h => exact h.statements?_eq
  | line habove hbelow hl hl' hedit =>
    simp only [List.append_assoc, words_append_of_atLineStart habove,
      words_append_of_atLineEnd hbelow, statements?_append, statements?_words_of_unbroken hl,
      statements?_words_of_unbroken hl', statements?_congr hedit.ofLine_eq_ok_iff]

/-- A text is read into rows if and only if its lines say something. -/
theorem Row.ofLines_eq_ok_iff_statements? {n : Nat} {ls : List (List Char)}
    {stmts : List Statement} :
    (∃ rows, ofLines n ls = .ok rows ∧ rows.map (·.statement) = stmts) ↔
      statements? ls = some stmts := by
  rw [Row.ofLines_eq_ok_iff]
  induction ls generalizing stmts with
  | nil => simp [statements?]
  | cons l ls ih =>
    unfold statements?
    constructor
    · rintro ⟨ss, hss, rfl⟩
      cases hss with
      | @cons _ s _ ss hl hss =>
        rw [hl]
        have hrest := ih.1 ⟨ss, hss, rfl⟩
        cases s <;> simp [hrest]
    · intro h
      cases hl : Statement.ofLine l with
      | error e => rw [hl] at h; cases h
      | ok s =>
        rw [hl] at h
        obtain ⟨rest, hrest, rfl⟩ := Option.map_eq_some_iff.1 h
        obtain ⟨ss, hss, rfl⟩ := ih.2 hrest
        exact ⟨s :: ss, .cons hl hss, by cases s <;> rfl⟩

theorem Row.exists_error_of_statements?_eq_none (n : Nat) {ls : List (List Char)}
    (h : statements? ls = none) : ∃ e, ofLines n ls = .error e := by
  cases hrows : ofLines n ls with
  | error e => exact ⟨e, rfl⟩
  | ok rows =>
    rw [ofLines_eq_ok_iff_statements?.1 ⟨rows, hrows, rfl⟩] at h
    cases h

/-- Which program a text is depends on its statements alone. -/
theorem Program.assemble_eq_ok_iff_of_statements? {t t' : List Char}
    (h : statements? (lines t) = statements? (lines t')) {p : Program} :
    assemble t = .ok p ↔ assemble t' = .ok p := by
  have hmove : ∀ {t t' : List Char}, statements? (lines t) = statements? (lines t') →
      assemble t = .ok p → assemble t' = .ok p := by
    intro t t' h hp
    obtain ⟨ss, hss, hnodup, hcode⟩ := assemble_eq_ok_iff.1 hp
    have hstmts := Row.ofLines_eq_ok_iff_statements?.1
      (Row.ofLines_eq_ok_iff (n := 1).2 ⟨ss, hss, rfl⟩)
    obtain ⟨ss', hss', heq⟩ := Row.ofLines_eq_ok_iff.1
      (Row.ofLines_eq_ok_iff_statements? (n := 1).2 (h ▸ hstmts))
    rw [← heq] at hnodup hcode
    exact assemble_eq_ok_iff.2 ⟨ss', hss', hnodup, hcode⟩
  exact ⟨hmove h, hmove h.symm⟩

/-- **Layout does not change meaning.** However often a text is edited, it is read into the same
statements as before, or rejected as before; and it is the same program, or none as before. -/
theorem layout_is_immaterial {t t' : List Char} (h : Relation.ReflTransGen Edit t t') :
    ((∃ rows rows', Row.parse t = .ok rows ∧ Row.parse t' = .ok rows' ∧
        rows.map (·.statement) = rows'.map (·.statement)) ∨
      ∃ e e', Row.parse t = .error e ∧ Row.parse t' = .error e') ∧
    ((∃ p, Program.assemble t = .ok p ∧ Program.assemble t' = .ok p) ∨
      ∃ e e', Program.assemble t = .error e ∧ Program.assemble t' = .error e') := by
  have hsame : statements? (lines t) = statements? (lines t') := by
    induction h with
    | refl => rfl
    | tail _ hedit ih => exact ih.trans hedit.statements?_eq
  have hassemble := fun p => @Program.assemble_eq_ok_iff_of_statements? t t' hsame p
  constructor
  · unfold Row.parse
    cases hstmts : statements? (lines t) with
    | some stmts =>
      obtain ⟨rows, hrows, hsays⟩ := Row.ofLines_eq_ok_iff_statements? (n := 1).2 hstmts
      obtain ⟨rows', hrows', hsays'⟩ :=
        Row.ofLines_eq_ok_iff_statements? (n := 1).2 (hsame.symm.trans hstmts)
      exact .inl ⟨rows, rows', hrows, hrows', hsays.trans hsays'.symm⟩
    | none =>
      obtain ⟨e, he⟩ := Row.exists_error_of_statements?_eq_none 1 hstmts
      obtain ⟨e', he'⟩ := Row.exists_error_of_statements?_eq_none 1 (hsame.symm.trans hstmts)
      exact .inr ⟨e, e', he, he'⟩
  · cases hp : Program.assemble t with
    | ok p => exact .inl ⟨p, rfl, (hassemble p).1 hp⟩
    | error e =>
      cases hp' : Program.assemble t' with
      | ok p => rw [(hassemble p).2 hp'] at hp; cases hp
      | error e' => exact .inr ⟨e, e', rfl, rfl⟩

/-- An instruction that gets a comment line above it, and two commas between its words. -/
theorem layout_is_immaterial_print :
    Relation.ReflTransGen Edit ['P', 'R', 'N', ' ', '1']
      [';', '1', '\n', 'P', 'R', 'N', ',', ',', '1'] ∧
    ∃ p, Program.assemble ['P', 'R', 'N', ' ', '1'] = .ok p ∧
      Program.assemble [';', '1', '\n', 'P', 'R', 'N', ',', ',', '1'] = .ok p := by
  have hcomment : Unbroken [';', '1'] := by
    simp [Unbroken, isLineBreak, inRanges, lineBreakRanges]
  have hbefore : Unbroken ['P', 'R', 'N', ' ', '1'] := by
    simp [Unbroken, isLineBreak, inRanges, lineBreakRanges]
  have hafter : Unbroken ['P', 'R', 'N', ',', ',', '1'] := by
    simp [Unbroken, isLineBreak, inRanges, lineBreakRanges]
  have hinsert : Edit ['P', 'R', 'N', ' ', '1'] [';', '1', '\n', 'P', 'R', 'N', ' ', '1'] :=
    .insert (@Inserts.above [] [';', '1'] ['\n'] ['P', 'R', 'N', ' ', '1'] (by rintro c ⟨⟩)
      hcomment rfl (.single isLineBreak_newline))
  have hcolon : (trim isBlank ['P', 'R', 'N', ' ', '1']).getLast? ≠ some ':' := by
    decide +kernel
  have hgap : CodeEdit ['P', 'R', 'N', ' ', '1'] ['P', 'R', 'N', ',', ',', '1'] :=
    @CodeEdit.gap ['P', 'R', 'N'] [' '] [',', ','] ['1'] 'N' '1' hcolon rfl
      (isSeparator_of_isPlain (by decide)) rfl (isSeparator_of_isPlain (by decide)) (by decide)
      (by simp [isSeparator, isBlank, inRanges, blankRanges]) (by decide) (by simp [isSeparator])
  have hline : Edit [';', '1', '\n', 'P', 'R', 'N', ' ', '1']
      [';', '1', '\n', 'P', 'R', 'N', ',', ',', '1'] :=
    @Edit.line [';', '1', '\n'] ['P', 'R', 'N', ' ', '1'] ['P', 'R', 'N', ',', ',', '1'] []
      (by rintro c ⟨⟩; exact isLineBreak_newline) (by rintro c ⟨⟩) hbefore hafter
      (@LineEdit.code _ _ [] hgap (by decide) (by decide) (by rintro c ⟨⟩))
  have hedits := (Relation.ReflTransGen.single hinsert).tail hline
  refine ⟨hedits, ?_⟩
  rcases (layout_is_immaterial hedits).2 with h | ⟨e, -, he, -⟩
  · exact h
  · have hok : (Program.assemble ['P', 'R', 'N', ' ', '1']).isOk = true := by decide +kernel
    rw [he] at hok
    cases hok

end RegisterMachine
