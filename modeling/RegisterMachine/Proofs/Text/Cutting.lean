import Mathlib.Data.List.Basic
import Mathlib.Data.List.TakeWhile
import RegisterMachine.Text.Split

/-!
# What cutting gives

* `Parts p cs ws`: `cs` is made of the words `ws` with characters of class `p` around and between
  them.
* `isPlain`: visible characters that neither separate words, nor begin a comment, nor end a label.

Principal results: `words_eq_iff` (`words` finds the words that a text is made of), `lines_join`
(lines joined by line feeds are cut into the same lines), `lines_append_newline` (the lines of two
texts with a line feed between them), `length_lines_le` (a text has no more lines than characters)
and `cutAt_cases` (where a text is cut in two).
-/

set_option autoImplicit false

namespace RegisterMachine.Text

variable {p : Char → Bool} {c : Char} {cs w : List Char}

/-! ## Pieces and words -/

theorem pieces_cons_of_sep (h : p c = true) : pieces p (c :: cs) = [] :: pieces p cs := by
  simp [pieces, h]

theorem pieces_cons_of_not_sep (h : p c = false) :
    pieces p (c :: cs) = growFirst c (pieces p cs) := by
  simp [pieces, h]

theorem growFirst_append {ws : List (List Char)} (h : ws ≠ []) (vs : List (List Char)) :
    growFirst c (ws ++ vs) = growFirst c ws ++ vs := by
  cases ws with
  | nil => exact absurd rfl h
  | cons w ws => rfl

theorem pieces_ne_nil (p : Char → Bool) (cs : List Char) : pieces p cs ≠ [] := by
  cases cs with
  | nil => exact List.cons_ne_nil _ _
  | cons c cs =>
    cases h : p c with
    | true => rw [pieces_cons_of_sep h]; exact List.cons_ne_nil _ _
    | false =>
      rw [pieces_cons_of_not_sep h]
      unfold growFirst
      split <;> exact List.cons_ne_nil _ _

theorem pieces_append_cons (hc : p c = true) (a b : List Char) :
    pieces p (a ++ c :: b) = pieces p a ++ pieces p b := by
  induction a with
  | nil => exact pieces_cons_of_sep hc
  | cons d a ih =>
    cases h : p d with
    | true => rw [List.cons_append, pieces_cons_of_sep h, pieces_cons_of_sep h, ih]; rfl
    | false =>
      rw [List.cons_append, pieces_cons_of_not_sep h, pieces_cons_of_not_sep h, ih,
        growFirst_append (pieces_ne_nil p a)]

theorem pieces_of_not_sep (h : ∀ c ∈ w, p c = false) : pieces p w = [w] := by
  induction w with
  | nil => rfl
  | cons c w ih =>
    rw [pieces_cons_of_not_sep (h c List.mem_cons_self),
      ih fun d hd => h d (List.mem_cons_of_mem c hd)]
    rfl

theorem words_append_cons (hc : p c = true) (a b : List Char) :
    words p (a ++ c :: b) = words p a ++ words p b := by
  rw [words, pieces_append_cons hc, List.filter_append]
  rfl

theorem words_cons_of_sep (hc : p c = true) (cs : List Char) : words p (c :: cs) = words p cs :=
  words_append_cons hc [] cs

theorem words_of_not_sep (hw : w ≠ []) (h : ∀ c ∈ w, p c = false) : words p w = [w] := by
  simp [words, pieces_of_not_sep h, hw]

/-- A text made of words, with characters of class `p` around and between them. -/
inductive Parts (p : Char → Bool) : List Char → List (List Char) → Prop where
  | empty : Parts p [] []
  | sep {c : Char} {cs : List Char} {ws : List (List Char)} :
    p c = true → Parts p cs ws → Parts p (c :: cs) ws
  | last {w : List Char} : w ≠ [] → (∀ c ∈ w, p c = false) → Parts p w [w]
  | word {w : List Char} {c : Char} {cs : List Char} {ws : List (List Char)} :
    w ≠ [] → (∀ c ∈ w, p c = false) → p c = true → Parts p cs ws → Parts p (w ++ c :: cs) (w :: ws)

/-- The stretch up to the first separator, and what follows it. -/
theorem exists_first_sep (p : Char → Bool) (cs : List Char) :
    (∀ c ∈ cs, p c = false) ∨
      ∃ a c b, cs = a ++ c :: b ∧ (∀ c ∈ a, p c = false) ∧ p c = true := by
  induction cs with
  | nil => exact .inl fun c hc => absurd hc (List.not_mem_nil)
  | cons c cs ih =>
    cases h : p c with
    | true => exact .inr ⟨[], c, cs, rfl, fun c hc => absurd hc (List.not_mem_nil), h⟩
    | false =>
      have hcons : ∀ {a : List Char}, (∀ d ∈ a, p d = false) → ∀ d ∈ c :: a, p d = false := by
        intro a ha d hd
        rcases List.mem_cons.1 hd with rfl | hd
        · exact h
        · exact ha d hd
      rcases ih with hall | ⟨a, d, b, rfl, ha, hd⟩
      · exact .inl (hcons hall)
      · exact .inr ⟨c :: a, d, b, rfl, hcons ha, hd⟩

theorem parts_words (p : Char → Bool) (cs : List Char) : Parts p cs (words p cs) := by
  rcases exists_first_sep p cs with hall | ⟨a, c, b, hcs, ha, hc⟩
  · by_cases hcs : cs = []
    · subst hcs; exact .empty
    · rw [words_of_not_sep hcs hall]; exact .last hcs hall
  · have hlen : b.length < cs.length := by simp [hcs]; omega
    have ih := parts_words p b
    rw [hcs, words_append_cons hc]
    by_cases hw : a = []
    · subst hw; exact .sep hc ih
    · rw [words_of_not_sep hw ha]; exact .word hw ha hc ih
termination_by cs.length

/-- **The words of a text are those it is made of.** -/
theorem words_eq_iff {ws : List (List Char)} : words p cs = ws ↔ Parts p cs ws := by
  constructor
  · rintro rfl
    exact parts_words p cs
  · intro h
    induction h with
    | empty => rfl
    | sep hc _ ih => rw [words_cons_of_sep hc, ih]
    | last hw hall => exact words_of_not_sep hw hall
    | word hw hall hc _ ih => rw [words_append_cons hc, words_of_not_sep hw hall, ih]; rfl

/-- The words that a text is made of are not empty and hold characters of the text only, none of
which separates words. -/
theorem Parts.of_mem {ws : List (List Char)} (h : Parts p cs ws) (hw : w ∈ ws) :
    w ≠ [] ∧ ∀ c ∈ w, p c = false ∧ c ∈ cs := by
  induction h with
  | empty => cases hw
  | sep _ _ ih =>
    obtain ⟨hne, hall⟩ := ih hw
    exact ⟨hne, fun c hc => ⟨(hall c hc).1, List.mem_cons_of_mem _ (hall c hc).2⟩⟩
  | last hv hall =>
    rw [List.mem_singleton.1 hw]
    exact ⟨hv, fun c hc => ⟨hall c hc, hc⟩⟩
  | word hv hall _ _ ih =>
    rcases List.mem_cons.1 hw with rfl | hw
    · exact ⟨hv, fun c hc => ⟨hall c hc, List.mem_append_left _ hc⟩⟩
    · obtain ⟨hne, hrest⟩ := ih hw
      exact ⟨hne, fun c hc => ⟨(hrest c hc).1,
        List.mem_append_right _ (List.mem_cons_of_mem _ (hrest c hc).2)⟩⟩

theorem words_eq_nil_of_seps (h : ∀ c ∈ cs, p c = true) : words p cs = [] := by
  induction cs with
  | nil => rfl
  | cons c cs ih =>
    rw [words_cons_of_sep (h c List.mem_cons_self), ih fun d hd => h d (List.mem_cons_of_mem c hd)]

theorem words_append_of_seps {b : List Char} (h : ∀ c ∈ b, p c = true) :
    words p (cs ++ b) = words p cs := by
  cases b with
  | nil => rw [List.append_nil]
  | cons c b =>
    rw [words_append_cons (h c List.mem_cons_self),
      words_eq_nil_of_seps fun d hd => h d (List.mem_cons_of_mem c hd), List.append_nil]

theorem words_seps_append {a : List Char} (h : ∀ c ∈ a, p c = true) (cs : List Char) :
    words p (a ++ cs) = words p cs := by
  induction a with
  | nil => rfl
  | cons c a ih =>
    rw [List.cons_append, words_cons_of_sep (h c List.mem_cons_self),
      ih fun d hd => h d (List.mem_cons_of_mem c hd)]

theorem words_append_seps_append {g : List Char} (hg : g ≠ []) (h : ∀ c ∈ g, p c = true)
    (a b : List Char) : words p (a ++ g ++ b) = words p a ++ words p b := by
  cases g with
  | nil => exact absurd rfl hg
  | cons c g =>
    rw [List.append_assoc, List.cons_append, words_append_cons (h c List.mem_cons_self),
      words_seps_append fun d hd => h d (List.mem_cons_of_mem c hd)]

/-! ## Trimming -/

theorem dropWhile_of_head (h : ∀ c, cs.head? = some c → p c = false) : cs.dropWhile p = cs := by
  cases cs with
  | nil => rfl
  | cons c cs => exact List.dropWhile_cons_of_neg (by simp [h c rfl])

theorem trim_of_ends (hhead : ∀ c, cs.head? = some c → p c = false)
    (hlast : ∀ c, cs.getLast? = some c → p c = false) : trim p cs = cs := by
  unfold trim
  rw [dropWhile_of_head hhead, dropWhile_of_head, List.reverse_reverse]
  intro c hc
  rw [List.head?_reverse] at hc
  exact hlast c hc

theorem trim_of_not_sep (h : ∀ c ∈ cs, p c = false) : trim p cs = cs :=
  trim_of_ends (fun c hc => h c (List.mem_of_mem_head? hc))
    fun c hc => h c (List.mem_of_mem_getLast? hc)

theorem exists_trim (p : Char → Bool) (cs : List Char) :
    ∃ a b, cs = a ++ trim p cs ++ b ∧ (∀ c ∈ a, p c = true) ∧ ∀ c ∈ b, p c = true := by
  refine ⟨cs.takeWhile p, ((cs.dropWhile p).reverse.takeWhile p).reverse, ?_, ?_, ?_⟩
  · unfold trim
    rw [List.append_assoc, ← List.reverse_append, List.takeWhile_append_dropWhile,
      List.reverse_reverse, List.takeWhile_append_dropWhile]
  · exact fun c hc => List.all_eq_true.1 List.all_takeWhile c hc
  · exact fun c hc => List.all_eq_true.1 List.all_takeWhile c (List.mem_reverse.1 hc)

theorem mem_of_mem_trim (h : c ∈ trim p cs) : c ∈ cs := by
  obtain ⟨a, b, hcs, -, -⟩ := exists_trim p cs
  rw [hcs]
  exact List.mem_append_left _ (List.mem_append_right _ h)

theorem trim_eq_nil_iff : trim p cs = [] ↔ ∀ c ∈ cs, p c = true := by
  constructor
  · intro h c hc
    obtain ⟨a, b, hcs, ha, hb⟩ := exists_trim p cs
    rw [hcs, h, List.append_nil] at hc
    exact (List.mem_append.1 hc).elim (ha c) (hb c)
  · intro h
    unfold trim
    rw [List.dropWhile_eq_nil_iff.2 h]
    rfl

theorem head?_dropWhile (h : (cs.dropWhile p).head? = some c) : p c = false := by
  have hnot := List.head?_dropWhile_not p cs
  rw [h] at hnot
  exact hnot

theorem getLast?_trim (h : (trim p cs).getLast? = some c) : p c = false := by
  unfold trim at h
  rw [List.getLast?_reverse] at h
  exact head?_dropWhile h

theorem head?_trim (h : (trim p cs).head? = some c) : p c = false := by
  have hprefix : trim p cs <+: cs.dropWhile p := by
    unfold trim
    rw [← List.reverse_suffix, List.reverse_reverse]
    exact List.dropWhile_suffix _
  obtain ⟨rest, hrest⟩ := hprefix
  refine @head?_dropWhile p c cs ?_
  rw [← hrest, List.head?_append, h]
  rfl

/-- Trimming takes away what follows a word. -/
theorem trim_append_of_seps {b : List Char} (h : ∀ c ∈ w, p c = false) (hb : ∀ c ∈ b, p c = true) :
    trim p (w ++ b) = w := by
  cases w with
  | nil =>
    unfold trim
    rw [List.nil_append, List.dropWhile_eq_nil_iff.2 hb]
    rfl
  | cons c w =>
    have hrev : ∀ d ∈ b.reverse, p d = true := fun d hd => hb d (List.mem_reverse.1 hd)
    have hw : ∀ d, ((c :: w).reverse).head? = some d → p d = false := fun d hd =>
      h d (List.mem_reverse.1 (List.mem_of_mem_head? hd))
    unfold trim
    rw [List.cons_append, List.dropWhile_cons_of_neg (by simp [h c List.mem_cons_self]),
      ← List.cons_append, List.reverse_append, List.dropWhile_append_of_pos hrev,
      dropWhile_of_head hw, List.reverse_reverse]

theorem trim_append_append {a b : List Char} (ha : ∀ c ∈ a, p c = true) (hb : ∀ c ∈ b, p c = true) :
    trim p (a ++ cs ++ b) = trim p cs := by
  have hrev : ∀ c ∈ b.reverse, p c = true := fun c hc => hb c (List.mem_reverse.1 hc)
  unfold trim
  rw [List.append_assoc, List.dropWhile_append_of_pos ha, List.dropWhile_append]
  split
  · rename_i hempty
    rw [List.isEmpty_iff.1 hempty, List.dropWhile_eq_nil_iff.2 hb]
  · rw [List.reverse_append, List.dropWhile_append_of_pos hrev]

/-- Trimming does not go beyond a character of another class. -/
theorem trim_append_cons_of_not_sep {b : List Char} (hc : p c = false) (hb : ∀ d ∈ b, p d = true) :
    trim p (cs ++ c :: b) = cs.dropWhile p ++ [c] := by
  have hdrop : (cs ++ [c]).dropWhile p = cs.dropWhile p ++ [c] := by
    rw [List.dropWhile_append, List.dropWhile_cons_of_neg (by simp [hc])]
    split
    · rename_i hempty
      rw [List.isEmpty_iff.1 hempty, List.nil_append]
    · rfl
  have htrim := @trim_append_append p (cs ++ [c]) [] b (fun d hd => absurd hd List.not_mem_nil) hb
  rw [List.nil_append, List.append_assoc, List.singleton_append] at htrim
  rw [htrim]
  unfold trim
  rw [hdrop, List.reverse_append, List.reverse_singleton, List.singleton_append,
    List.dropWhile_cons_of_neg (by simp [hc]), ← List.singleton_append, List.reverse_append,
    List.reverse_reverse, List.reverse_singleton]

/-- What a trimmed text ends with is the last character of another class. -/
theorem getLast?_trim_eq_filter (p : Char → Bool) (cs : List Char) :
    (trim p cs).getLast? = (cs.filter (!p ·)).getLast? := by
  obtain ⟨a, b, hcs, ha, hb⟩ := exists_trim p cs
  have hnil : ∀ {xs : List Char}, (∀ c ∈ xs, p c = true) → xs.filter (!p ·) = [] := by
    intro xs hxs
    refine List.filter_eq_nil_iff.2 fun c hc => ?_
    simp [hxs c hc]
  rw [hcs, List.filter_append, List.filter_append, hnil ha, hnil hb, List.nil_append,
    List.append_nil, ← hcs]
  cases hlast : (trim p cs).getLast? with
  | none => rw [List.getLast?_eq_none_iff.1 hlast]; rfl
  | some c =>
    have hc : [c].filter (!p ·) = [c] := List.filter_cons_of_pos (by simp [getLast?_trim hlast])
    rw [← List.dropLast_append_getLast? c hlast, List.filter_append, hc, List.getLast?_concat]

theorem words_trim {q : Char → Bool} (hpq : ∀ c, p c = true → q c = true) (cs : List Char) :
    words q (trim p cs) = words q cs := by
  obtain ⟨a, b, hcs, ha, hb⟩ := exists_trim p cs
  conv_rhs => rw [hcs]
  rw [words_append_of_seps fun c hc => hpq c (hb c hc), words_seps_append fun c hc => hpq c (ha c hc)]

theorem sep_of_words_eq_nil (h : words p cs = []) : ∀ c ∈ cs, p c = true := by
  rw [words_eq_iff] at h
  generalize hws : ([] : List (List Char)) = ws at h
  induction h with
  | empty => exact fun c hc => absurd hc List.not_mem_nil
  | sep hc _ ih =>
    intro d hd
    rcases List.mem_cons.1 hd with rfl | hd
    · exact hc
    · exact ih hws d hd
  | last => cases hws
  | word => cases hws

/-- A trimmed text of one word is that word. -/
theorem not_sep_of_length_words (hhead : ∀ c, cs.head? = some c → p c = false)
    (hlast : ∀ c, cs.getLast? = some c → p c = false) (h : (words p cs).length = 1) :
    cs ≠ [] ∧ ∀ c ∈ cs, p c = false := by
  have hne : cs ≠ [] := by
    rintro rfl
    cases h
  refine ⟨hne, ?_⟩
  rcases exists_first_sep p cs with hall | ⟨a, c, b, rfl, ha, hc⟩
  · exact hall
  · exfalso
    have hane : a ≠ [] := by
      rintro rfl
      rw [hhead c rfl] at hc
      cases hc
    rw [words_append_cons hc, words_of_not_sep hane ha, List.length_append] at h
    -- behind the separator there are no words, so the text ends with a separator
    have hb := sep_of_words_eq_nil (List.length_eq_zero_iff.1 (by simpa using h))
    have hlast' : ∃ d, (a ++ c :: b).getLast? = some d ∧ p d = true := by
      rw [List.getLast?_append_of_ne_nil _ (List.cons_ne_nil c b)]
      refine ⟨(c :: b).getLast (List.cons_ne_nil c b), List.getLast?_eq_getLast_of_ne_nil _, ?_⟩
      rcases List.mem_cons.1 (List.getLast_mem (List.cons_ne_nil c b)) with heq | hmem
      · rw [heq]; exact hc
      · exact hb _ hmem
    obtain ⟨d, hd, hsep⟩ := hlast'
    rw [hlast d hd] at hsep
    cases hsep

/-! ## Lines -/

theorem mergeBreaks_of_not_mem (h : '\r' ∉ cs) : mergeBreaks cs = cs := by
  unfold mergeBreaks
  rw [List.filter_eq_self.2, List.map_snd_zip (by simp)]
  rintro ⟨a, b⟩ hab
  have ha : a ≠ '\r' := by
    rintro rfl
    rcases List.mem_cons.1 (List.of_mem_zip hab).1 with hnl | hmem
    · cases hnl
    · exact h hmem
  simp [ha]

theorem dropEmptyLast_cons {ws : List (List Char)} (h : ws ≠ []) (w : List Char) :
    dropEmptyLast (w :: ws) = w :: dropEmptyLast ws := by
  cases ws with
  | nil => exact absurd rfl h
  | cons v ws =>
    unfold dropEmptyLast
    rw [List.getLast?_cons_cons, List.dropLast_cons_cons]
    split <;> rfl

theorem dropEmptyLast_cases (ws : List (List Char)) :
    ws = dropEmptyLast ws ∨ ws = dropEmptyLast ws ++ [[]] := by
  unfold dropEmptyLast
  split
  · rename_i hlast
    exact .inr (List.dropLast_append_getLast? [] (by simpa using hlast)).symm
  · exact .inl rfl

theorem isLineBreak_newline : isLineBreak '\n' = true := by
  simp [isLineBreak, inRanges, lineBreakRanges]

theorem mem_join {ls : List (List Char)} (h : c ∈ ['\n'].intercalate ls) :
    c = '\n' ∨ ∃ l ∈ ls, c ∈ l := by
  induction ls with
  | nil => exact absurd h List.not_mem_nil
  | cons l ls ih =>
    cases ls with
    | nil => exact .inr ⟨l, List.mem_cons_self, by simpa using h⟩
    | cons l' ls =>
      rw [List.intercalate_cons_cons, List.mem_append, List.mem_append] at h
      rcases h with (h | h) | h
      · exact .inr ⟨l, List.mem_cons_self, h⟩
      · exact .inl (List.mem_singleton.1 h)
      · rcases ih h with hnl | ⟨m, hm, hc⟩
        · exact .inl hnl
        · exact .inr ⟨m, List.mem_cons_of_mem l hm, hc⟩

theorem pieces_join {ls : List (List Char)} (hls : ls ≠ [])
    (h : ∀ l ∈ ls, ∀ c ∈ l, isLineBreak c = false) :
    pieces isLineBreak (['\n'].intercalate ls) = ls := by
  induction ls with
  | nil => exact absurd rfl hls
  | cons l ls ih =>
    have hl := pieces_of_not_sep (h l List.mem_cons_self)
    cases ls with
    | nil => simpa using hl
    | cons l' ls =>
      rw [List.intercalate_cons_cons, List.append_assoc, List.singleton_append,
        pieces_append_cons isLineBreak_newline, hl,
        ih (List.cons_ne_nil _ _) fun m hm => h m (List.mem_cons_of_mem l hm)]
      rfl

/-- **Lines joined by line feeds are cut into the same lines**, if none is empty and none holds a
break of its own. -/
theorem lines_join {ls : List (List Char)} (hne : ∀ l ∈ ls, l ≠ [])
    (h : ∀ l ∈ ls, ∀ c ∈ l, isLineBreak c = false) : lines (['\n'].intercalate ls) = ls := by
  have hcr : '\r' ∉ ['\n'].intercalate ls := by
    intro hmem
    rcases mem_join hmem with hnl | ⟨l, hl, hc⟩
    · cases hnl
    · have hbreak := h l hl '\r' hc
      simp [isLineBreak, inRanges, lineBreakRanges] at hbreak
  unfold lines
  rw [mergeBreaks_of_not_mem hcr]
  by_cases hls : ls = []
  · subst hls; rfl
  · rw [pieces_join hls h]
    unfold dropEmptyLast
    rw [if_neg]
    intro hlast
    exact hne [] (List.mem_of_mem_getLast? (by simpa using hlast)) rfl

/-- What is left of a text that follows `prev`: a line feed after a carriage return is dropped. -/
def mergeAfter (prev : Char) (cs : List Char) : List Char :=
  (((prev :: cs).zip cs).filter fun pc => !(pc.1 == '\r' && pc.2 == '\n')).map (·.2)

theorem mergeAfter_cons (prev c : Char) (cs : List Char) : mergeAfter prev (c :: cs) =
    if prev = '\r' ∧ c = '\n' then mergeAfter c cs else c :: mergeAfter c cs := by
  unfold mergeAfter
  rw [List.zip_cons_cons, List.filter_cons]
  by_cases h : prev = '\r' ∧ c = '\n'
  · simp [h]
  · rw [if_neg h, if_pos (by simpa using not_and_or.1 h)]
    rfl

theorem mergeAfter_append (prev : Char) (a b : List Char) :
    mergeAfter prev (a ++ b) = mergeAfter prev a ++ mergeAfter (a.getLastD prev) b := by
  induction a generalizing prev with
  | nil => rfl
  | cons c a ih =>
    rw [List.cons_append, mergeAfter_cons, mergeAfter_cons, List.getLastD_cons, ih]
    split <;> rfl

theorem mergeAfter_of_not_sep (prev : Char) (h : ∀ c ∈ w, isLineBreak c = false) :
    mergeAfter prev w = w := by
  induction w generalizing prev with
  | nil => rfl
  | cons c w ih =>
    have hc : c ≠ '\n' := by
      rintro rfl
      exact absurd (h '\n' List.mem_cons_self) (by simp [isLineBreak_newline])
    rw [mergeAfter_cons, if_neg (by simp [hc]), ih c fun d hd => h d (List.mem_cons_of_mem _ hd)]

theorem words_mergeAfter (prev : Char) (cs : List Char) :
    words isLineBreak (mergeAfter prev cs) = words isLineBreak cs := by
  have hparts := parts_words isLineBreak cs
  generalize words isLineBreak cs = ws at hparts
  rw [words_eq_iff]
  induction hparts generalizing prev with
  | empty => exact .empty
  | @sep c cs ws hc _ ih =>
    rw [mergeAfter_cons]
    split
    · exact ih c
    · exact .sep hc (ih c)
  | @last w hw hall =>
    rw [mergeAfter_of_not_sep prev hall]
    exact .last hw hall
  | @word w c cs ws hw hall hc _ ih =>
    -- the word ends in no carriage return, so the break after it is kept
    have hkept : w.getLastD prev ≠ '\r' := by
      intro hlast
      have hmem : '\r' ∈ w := by
        rw [← hlast, List.getLastD_eq_getLast?, List.getLast?_eq_some_getLast hw]
        exact List.getLast_mem hw
      exact absurd (hall '\r' hmem) (by simp [isLineBreak, inRanges, lineBreakRanges])
    rw [mergeAfter_append, mergeAfter_of_not_sep prev hall, mergeAfter_cons,
      if_neg fun h => hkept h.1]
    exact .word hw hall hc (ih c)

/-- **The lines of a text that are not empty** are the words between its line breaks. -/
theorem filter_lines (cs : List Char) :
    (lines cs).filter (!·.isEmpty) = words isLineBreak cs := by
  have hdrop : ∀ ws : List (List Char),
      (dropEmptyLast ws).filter (!·.isEmpty) = ws.filter (!·.isEmpty) := by
    intro ws
    rcases dropEmptyLast_cases ws with hsame | hsplit
    · rw [← hsame]
    · conv_rhs => rw [hsplit]
      simp
  unfold lines
  rw [hdrop]
  exact words_mergeAfter '\n' cs

/-- A line feed at the end of a text stays unless it completes a break that is there already. -/
theorem mergeBreaks_concat_newline (a : List Char) :
    (∃ x, mergeBreaks a = x ++ ['\r'] ∧ mergeBreaks (a ++ ['\n']) = x ++ ['\r']) ∨
      mergeBreaks (a ++ ['\n']) = mergeBreaks a ++ ['\n'] := by
  have hsplit : mergeBreaks (a ++ ['\n']) =
      mergeBreaks a ++ mergeAfter (a.getLastD '\n') ['\n'] :=
    mergeAfter_append '\n' a ['\n']
  rw [hsplit, mergeAfter_cons]
  by_cases hlast : a.getLastD '\n' = '\r'
  · -- the text ends in a carriage return, which is kept
    refine .inl ⟨mergeBreaks a.dropLast, ?_⟩
    have hend : a.getLast? = some '\r' := by
      cases h : a.getLast? with
      | none => rw [List.getLastD_eq_getLast?, h] at hlast; cases hlast
      | some c => rw [List.getLastD_eq_getLast?, h] at hlast; exact congrArg some hlast
    have hkept : mergeBreaks a = mergeBreaks a.dropLast ++ ['\r'] := by
      have happend := mergeAfter_append '\n' a.dropLast ['\r']
      rw [List.dropLast_append_getLast? '\r' hend] at happend
      refine happend.trans ?_
      rw [mergeAfter_cons, if_neg (by simp)]
      rfl
    rw [if_pos ⟨hlast, rfl⟩]
    exact ⟨hkept, (List.append_nil _).trans hkept⟩
  · rw [if_neg fun h => hlast h.1]
    exact .inr rfl

theorem dropEmptyLast_append {vs : List (List Char)} (h : vs ≠ []) (ws : List (List Char)) :
    dropEmptyLast (ws ++ vs) = ws ++ dropEmptyLast vs := by
  induction ws with
  | nil => rfl
  | cons w ws ih =>
    rw [List.cons_append, dropEmptyLast_cons (List.append_ne_nil_of_right_ne_nil ws h), ih,
      List.cons_append]

theorem dropEmptyLast_pieces_concat {p : Char → Bool} {c : Char} (hc : p c = true)
    (cs : List Char) : dropEmptyLast (pieces p (cs ++ [c])) = pieces p cs := by
  rw [pieces_append_cons hc, dropEmptyLast_append (pieces_ne_nil p [])]
  exact List.append_nil _

/-- **Behind a line feed new lines begin**: a text that goes on there has the lines up to the line
feed, then those of the rest. -/
theorem lines_append_newline (a b : List Char) :
    lines (a ++ '\n' :: b) = lines (a ++ ['\n']) ++ lines b := by
  obtain ⟨x, c, hc, hend⟩ : ∃ x c, isLineBreak c = true ∧ mergeBreaks (a ++ ['\n']) = x ++ [c] := by
    rcases mergeBreaks_concat_newline a with ⟨x, -, hmerge⟩ | hmerge
    · exact ⟨x, '\r', by simp [isLineBreak, inRanges, lineBreakRanges], hmerge⟩
    · exact ⟨_, '\n', isLineBreak_newline, hmerge⟩
  have hmerge : mergeBreaks (a ++ '\n' :: b) = x ++ c :: mergeBreaks b := by
    have happend := mergeAfter_append '\n' (a ++ ['\n']) b
    rw [List.append_assoc, List.singleton_append, List.getLastD_concat] at happend
    refine happend.trans ?_
    rw [show mergeAfter '\n' (a ++ ['\n']) = x ++ [c] from hend, List.append_assoc]
    rfl
  unfold lines
  rw [hmerge, hend, dropEmptyLast_pieces_concat hc, pieces_append_cons hc,
    dropEmptyLast_append (pieces_ne_nil isLineBreak _)]

theorem lines_concat_newline (a : List Char) :
    lines (a ++ ['\n']) = lines a ∨ lines (a ++ ['\n']) = lines a ++ [[]] := by
  unfold lines
  rcases mergeBreaks_concat_newline a with ⟨x, hmerge, hmerge'⟩ | hmerge'
  · exact .inl (by rw [hmerge, hmerge'])
  · rw [hmerge', dropEmptyLast_pieces_concat isLineBreak_newline]
    exact dropEmptyLast_cases _

theorem length_dropEmptyLast_pieces (p : Char → Bool) (cs : List Char) :
    (dropEmptyLast (pieces p cs)).length ≤ cs.length := by
  induction cs with
  | nil => exact Nat.le_refl _
  | cons c cs ih =>
    have hne := pieces_ne_nil p cs
    cases h : p c with
    | true =>
      rw [pieces_cons_of_sep h, dropEmptyLast_cons hne]
      simpa using ih
    | false =>
      rw [pieces_cons_of_not_sep h]
      cases hp : pieces p cs with
      | nil => exact absurd hp hne
      | cons w ws =>
        rw [hp] at ih
        by_cases hws : ws = []
        · subst hws
          simp [growFirst, dropEmptyLast]
        · rw [dropEmptyLast_cons hws] at ih
          rw [growFirst, dropEmptyLast_cons hws]
          simp only [List.length_cons] at ih ⊢
          omega

theorem length_lines_le (cs : List Char) : (lines cs).length ≤ cs.length := by
  refine Nat.le_trans (length_dropEmptyLast_pieces _ _) ?_
  unfold mergeBreaks
  rw [List.length_map]
  refine Nat.le_trans (List.length_filter_le _ _) ?_
  simp

/-! ## The first of its kind -/

theorem cutAt_of_not_mem (h : c ∉ cs) : cutAt c cs = (cs, none) := by
  have hbefore : cs.takeWhile (· != c) = cs :=
    List.takeWhile_eq_self_iff.2 fun d hd => by simpa using ne_of_mem_of_not_mem hd h
  unfold cutAt
  dsimp only
  rw [hbefore, List.drop_length]

theorem cutAt_append {before : List Char} (h : c ∉ before) (rest : List Char) :
    cutAt c (before ++ c :: rest) = (before, some rest) := by
  have hbefore : (before ++ c :: rest).takeWhile (· != c) = before := by
    rw [List.takeWhile_append_of_pos fun d hd => by simpa using ne_of_mem_of_not_mem hd h]
    simp
  unfold cutAt
  dsimp only
  rw [hbefore, List.drop_left]

theorem cutAt_cases (c : Char) (cs : List Char) :
    (c ∉ cs ∧ cutAt c cs = (cs, none)) ∨
      ∃ before rest, cs = before ++ c :: rest ∧ c ∉ before ∧ cutAt c cs = (before, some rest) := by
  by_cases h : c ∈ cs
  · obtain ⟨before, rest, rfl, hnot⟩ := List.eq_append_cons_of_mem h
    exact .inr ⟨before, rest, rfl, hnot, cutAt_append hnot rest⟩
  · exact .inl ⟨h, cutAt_of_not_mem h⟩

/-! ## Plain characters -/

/-- Visible characters that neither separate words, nor begin a comment, nor end a label. -/
def isPlain (c : Char) : Bool :=
  33 ≤ c.toNat && c.toNat ≤ 126 && c != ',' && c != ';' && c != ':'

theorem isBlank_of_isPlain (h : isPlain c = true) : isBlank c = false := by
  simp only [isPlain, Bool.and_eq_true, decide_eq_true_eq] at h
  simp [isBlank, inRanges, blankRanges]
  omega

theorem isMargin_of_isPlain (h : isPlain c = true) : isMargin c = false := by
  simp [isMargin, isBlank_of_isPlain h]

theorem isLineBreak_of_isPlain (h : isPlain c = true) : isLineBreak c = false := by
  simp only [isPlain, Bool.and_eq_true, decide_eq_true_eq] at h
  simp [isLineBreak, inRanges, lineBreakRanges]
  omega

theorem isSeparator_of_isPlain (h : isPlain c = true) : isSeparator c = false := by
  have hcomma : c ≠ ',' := by
    rintro rfl
    exact absurd h (by decide)
  simp [isSeparator, isBlank_of_isPlain h, hcomma]

end RegisterMachine.Text
