import RegisterMachine.Proofs.Assignments
import RegisterMachine.Proofs.Language

/-!
# What the items of a register list say

An item says one thing or it is refused, whatever stands beside it. The bank of a list is therefore
told register by register: among the items that name a register the last one counts, and items that
name different registers can change places. The first item that is refused ends the reading.

* `Assignment.Gives`: an item gives a register a text.
* `Assignment.Names`, `Assignment.Sets`: an item names a register, or sets it to a number.
* `Assignment.Refused`: what is wrong with an item.
* `Assignments.Leaves`: what the last item that names a register leaves in it.

Principal results: `Assignment.parse_eq_ok_iff`, `Assignment.parse_eq_error_iff` (reading one item)
and `Bank.parse_meets_items` (reading a list of them).
-/

set_option autoImplicit false

namespace RegisterMachine

open Text

namespace Assignment

variable {item : List Char} {r : Register}

/-! ## One item -/

/-- The item is a register's name in either case, an equals sign and a text. The equals sign is the
first one. -/
def Gives (item : List Char) (r : Register) (text : List Char) : Prop :=
  ∃ name, item = name ++ '=' :: text ∧ '=' ∉ name ∧ r.Spelled name

/-- The item names the register, whatever text it gives it. -/
def Names (item : List Char) (r : Register) : Prop := ∃ text, Gives item r text

/-- The item sets the register to a number. -/
def Sets (item : List Char) (r : Register) (x : Float) : Prop :=
  ∃ text, Gives item r text ∧ Number.readReal? text = some x

/-- What is wrong with an item: it names no register, or the text is no number. -/
inductive Refused (item : List Char) : AssignmentError → Prop where
  | malformed : (∀ r, ¬ Names item r) → Refused item (.malformed item)
  | badValue {r : Register} {text : List Char} : Gives item r text →
    Number.readReal? text = none → Refused item (.badValue item)

/-- The register that stands before the first equals sign. -/
def register? (item : List Char) : Option Register :=
  match cutAt '=' item with
  | (_, none) => none
  | (name, some _) => Register.ofName? (upper name)

/-- An item gives a register a text, or it names none. -/
theorem gives_cases (item : List Char) :
    (∃ r text, Gives item r text ∧ register? item = some r ∧
      parse item = match Number.readReal? text with
        | none => .error (.badValue item)
        | some x => .ok (r, x)) ∨
    (∀ r, ¬ Names item r) ∧ register? item = none ∧ parse item = .error (.malformed item) := by
  unfold register? parse
  rcases cutAt_cases '=' item with ⟨hnone, hcut⟩ | ⟨name, text, rfl, hname, hcut⟩
  · refine .inr ⟨?_, by rw [hcut], by rw [hcut]⟩
    rintro r ⟨text, name, rfl, -⟩
    exact hnone (by simp)
  · rw [hcut]
    dsimp only
    cases hr : Register.ofName? (upper name) with
    | some r =>
      exact .inl ⟨r, text, ⟨name, rfl, hname, Register.ofName?_upper_eq_some_iff.1 hr⟩, rfl, rfl⟩
    | none =>
      refine .inr ⟨?_, rfl, rfl⟩
      rintro r ⟨text', name', heq, hname', hspelled⟩
      -- a register's name would end at the same equals sign
      have hcut' := cutAt_append hname' text'
      rw [← heq, hcut] at hcut'
      cases hcut'
      exact Register.ofName?_upper_eq_none_iff.1 hr r hspelled

theorem Gives.unique {s : Register} {text text' : List Char} (h : Gives item r text)
    (h' : Gives item s text') : s = r ∧ text' = text := by
  obtain ⟨name, rfl, hname, hspelled⟩ := h
  obtain ⟨name', heq, hname', hspelled'⟩ := h'
  have hcut := cutAt_append hname' text'
  rw [← heq, cutAt_append hname] at hcut
  cases hcut
  rw [← Register.ofName?_upper_eq_some_iff] at hspelled hspelled'
  exact ⟨Option.some.inj (hspelled'.symm.trans hspelled), rfl⟩

theorem register?_eq_some_iff : register? item = some r ↔ Names item r := by
  rcases gives_cases item with ⟨s, text, hgives, hregister, -⟩ | ⟨hnames, hregister, -⟩
  · rw [hregister]
    constructor
    · rintro ⟨⟩
      exact ⟨text, hgives⟩
    · rintro ⟨text', hgives'⟩
      rw [(hgives.unique hgives').1]
  · rw [hregister]
    exact ⟨fun h => (by cases h), fun h => absurd h (hnames r)⟩

instance (item : List Char) (r : Register) : Decidable (Names item r) :=
  decidable_of_iff (register? item = some r) register?_eq_some_iff

/-- **An item is read as what it sets.** -/
theorem parse_eq_ok_iff {x : Float} : parse item = .ok (r, x) ↔ Sets item r x := by
  rcases gives_cases item with ⟨s, text, hgives, -, hparse⟩ | ⟨hnames, -, hparse⟩
  · rw [hparse]
    constructor
    · intro h
      cases hx : Number.readReal? text with
      | none => rw [hx] at h; cases h
      | some y => rw [hx] at h; cases h; exact ⟨text, hgives, hx⟩
    · rintro ⟨text', hgives', hx⟩
      obtain ⟨rfl, rfl⟩ := hgives.unique hgives'
      rw [hx]
  · rw [hparse]
    exact ⟨fun h => (by cases h), fun ⟨text, hgives, _⟩ => absurd ⟨text, hgives⟩ (hnames r)⟩

/-- **An item that is not read is refused for what is wrong with it.** -/
theorem parse_eq_error_iff {e : AssignmentError} : parse item = .error e ↔ Refused item e := by
  rcases gives_cases item with ⟨s, text, hgives, -, hparse⟩ | ⟨hnames, -, hparse⟩
  · rw [hparse]
    constructor
    · intro h
      cases hx : Number.readReal? text with
      | none => rw [hx] at h; cases h; exact .badValue hgives hx
      | some y => rw [hx] at h; cases h
    · rintro (hnames | ⟨hgives', hx⟩)
      · exact absurd ⟨text, hgives⟩ (hnames s)
      · obtain ⟨rfl, rfl⟩ := hgives.unique hgives'
        rw [hx]
  · rw [hparse]
    constructor
    · rintro ⟨⟩
      exact .malformed hnames
    · rintro (_ | ⟨hgives, _⟩)
      · rfl
      · exact absurd ⟨_, hgives⟩ (hnames _)

theorem Sets.unique {x y : Float} (h : Sets item r x) (h' : Sets item r y) : x = y := by
  rw [← parse_eq_ok_iff] at h h'
  cases h.symm.trans h'
  rfl

theorem Sets.names_iff {s : Register} {x : Float} (h : Sets item s x) : Names item r ↔ s = r := by
  obtain ⟨text, hgives, -⟩ := h
  constructor
  · rintro ⟨text', hgives'⟩
    exact (hgives.unique hgives').1.symm
  · rintro rfl
    exact ⟨text, hgives⟩

end Assignment

/-! ## A list of items -/

namespace Assignments

open Assignment

variable {items : List (List Char)} {entries : List (Register × Float)} {r : Register}

/-- What a list of items leaves in a register: what the last one that names it sets it to, and zero
if none does. -/
def Leaves (items : List (List Char)) (r : Register) (x : Float) : Prop :=
  match (items.filter (Names · r)).getLast? with
  | some item => Sets item r x
  | none => x = 0.0

theorem Leaves.unique {x y : Float} (h : Leaves items r x) (h' : Leaves items r y) : x = y := by
  unfold Leaves at h h'
  split at h
  · rename_i item hlast
    rw [hlast] at h'
    exact h.unique h'
  · rename_i hlast
    rw [hlast] at h'
    exact h.trans h'.symm

/-- The first item that names a register is where the first setting of it comes from. -/
theorem find?_parsed (h : List.Forall₂ (fun item e => Assignment.parse item = .ok e) items entries)
    (r : Register) :
    (items.find? (Names · r) = none ∧ entries.find? (·.1 == r) = none) ∨
      ∃ item x, items.find? (Names · r) = some item ∧ entries.find? (·.1 == r) = some (r, x) ∧
        Sets item r x := by
  induction h with
  | nil => exact .inl ⟨rfl, rfl⟩
  | @cons item e items entries hitem _ ih =>
    obtain ⟨s, x⟩ := e
    rw [parse_eq_ok_iff] at hitem
    by_cases hs : s = r
    · subst hs
      refine .inr ⟨item, x, ?_, ?_, hitem⟩
      · exact List.find?_cons_of_pos (decide_eq_true (hitem.names_iff.2 rfl))
      · exact List.find?_cons_of_pos (beq_self_eq_true s)
    · rw [List.find?_cons_of_neg (by simpa [hitem.names_iff] using hs),
        List.find?_cons_of_neg (by simpa using hs)]
      exact ih

theorem leaves_last? (h : List.Forall₂ (fun item e => Assignment.parse item = .ok e) items entries)
    (r : Register) : Leaves items r ((last? entries r).getD 0.0) := by
  unfold Leaves last?
  -- seen from the end, the last item that names the register is the first
  rw [List.getLast?_filter]
  rcases find?_parsed (List.forall₂_reverse_iff.2 h) r with
    ⟨hitems, hentries⟩ | ⟨item, x, hitems, hentries, hsets⟩
  · rw [hitems, hentries]
    rfl
  · rw [hitems, hentries]
    exact hsets

end Assignments

namespace Bank

open Assignment Assignments

variable {items : List (List Char)}

theorem exists_entries_iff :
    (∃ entries, List.Forall₂ (fun item e => Assignment.parse item = .ok e) items entries) ↔
      ∀ item ∈ items, ∃ r x, Sets item r x := by
  simp only [exists_forall₂_iff, Prod.exists, Assignment.parse_eq_ok_iff]

theorem exists_parse_iff : (∃ b, parse items = .ok b) ↔ ∀ item ∈ items, ∃ r x, Sets item r x := by
  rw [← exists_entries_iff]
  constructor
  · rintro ⟨b, hb⟩
    obtain ⟨entries, hentries, -⟩ := parse_eq_ok_iff.1 hb
    exact ⟨entries, hentries⟩
  · rintro ⟨entries, hentries⟩
    exact ⟨_, parse_eq_ok_iff.2 ⟨entries, hentries, rfl⟩⟩

/-- A list is read as the bank that holds what its items leave. -/
theorem parse_eq_ok_iff_leaves {b : Bank} : parse items = .ok b ↔
    (∀ item ∈ items, ∃ r x, Sets item r x) ∧ ∀ r, Leaves items r (b.read r) := by
  rw [parse_eq_ok_iff]
  constructor
  · rintro ⟨entries, hentries, rfl⟩
    refine ⟨exists_entries_iff.1 ⟨entries, hentries⟩, fun r => ?_⟩
    rw [read_ofTable_ofList]
    exact leaves_last? hentries r
  · rintro ⟨hitems, hleaves⟩
    obtain ⟨entries, hentries⟩ := exists_entries_iff.2 hitems
    refine ⟨entries, hentries, ext_read fun r => ?_⟩
    rw [read_ofTable_ofList]
    exact (leaves_last? hentries r).unique (hleaves r)

theorem parse_eq_error_iff_refused {e : AssignmentError} : parse items = .error e ↔
    ∃ above item below, items = above ++ item :: below ∧
      (∀ good ∈ above, ∃ r x, Sets good r x) ∧ Refused item e := by
  simp only [parse_eq_error_iff, Prod.exists, Assignment.parse_eq_ok_iff,
    Assignment.parse_eq_error_iff]

/-- **The bank of a list of items.** A list is read if and only if every item is a register's name,
an equals sign and a number. The bank holds for each register what the last item that names it sets
it to, and zero if none does. So items that name different registers can change places. A list that
is not read is refused for its first wrong item: for its form if it names no register, otherwise for
its number. Both complaints quote the item. -/
theorem parse_meets_items (items : List (List Char)) :
    ((∃ b, parse items = .ok b) ↔ ∀ item ∈ items, ∃ r x, Sets item r x) ∧
    (∀ b, parse items = .ok b ↔
      (∀ item ∈ items, ∃ r x, Sets item r x) ∧ ∀ r, Leaves items r (b.read r)) ∧
    (∀ items', items'.Perm items →
      (∀ r, items'.filter (Names · r) = items.filter (Names · r)) →
      ∀ b, parse items = .ok b → parse items' = .ok b) ∧
    (∀ e, parse items = .error e ↔ ∃ above item below, items = above ++ item :: below ∧
      (∀ good ∈ above, ∃ r x, Sets good r x) ∧ Refused item e) ∧
    ∀ item, (AssignmentError.malformed item).message =
        "bad register assignment: " ++ String.ofList (quoted item) ++ " (want R1..R6=<number>)" ∧
      (AssignmentError.badValue item).message =
        "bad register value: " ++ String.ofList (quoted item) := by
  refine ⟨exists_parse_iff, fun b => parse_eq_ok_iff_leaves, ?_,
    fun e => parse_eq_error_iff_refused, fun item => ⟨rfl, rfl⟩⟩
  intro items' hperm hkeep b hb
  obtain ⟨hitems, hleaves⟩ := parse_eq_ok_iff_leaves.1 hb
  refine parse_eq_ok_iff_leaves.2 ⟨fun item hitem => hitems item (hperm.subset hitem), fun r => ?_⟩
  unfold Leaves
  rw [hkeep r]
  exact hleaves r

/-- Three items for two registers, one of them named twice. -/
theorem parse_meets_items_twice :
    ∃ b, parse ["R1=1".toList, "r2=2".toList, "r1=3".toList] = .ok b ∧
      parse ["r2=2".toList, "R1=1".toList, "r1=3".toList] = .ok b := by
  have hone : Sets "R1=1".toList .r1 1.0 :=
    ⟨"1".toList, ⟨"R1".toList, rfl, by decide, .inl rfl⟩, by decide +kernel⟩
  have htwo : Sets "r2=2".toList .r2 2.0 :=
    ⟨"2".toList, ⟨"r2".toList, rfl, by decide, .inr (by decide)⟩, by decide +kernel⟩
  have hthree : Sets "r1=3".toList .r1 3.0 :=
    ⟨"3".toList, ⟨"r1".toList, rfl, by decide, .inr (by decide)⟩, by decide +kernel⟩
  obtain ⟨hread, -, hreorder, -⟩ :=
    parse_meets_items ["R1=1".toList, "r2=2".toList, "r1=3".toList]
  obtain ⟨b, hb⟩ := hread.2 (by
    simp only [List.forall_mem_cons]
    exact ⟨⟨_, _, hone⟩, ⟨_, _, htwo⟩, ⟨_, _, hthree⟩, fun _ h => (by cases h)⟩)
  refine ⟨b, hb, hreorder _ (.swap _ _ _) (fun r => ?_) b hb⟩
  simp only [List.filter_cons, hone.names_iff, htwo.names_iff, hthree.names_iff]
  cases r <;> rfl

end Bank

end RegisterMachine
