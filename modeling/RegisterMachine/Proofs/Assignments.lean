import Mathlib.Data.List.Forall2
import Mathlib.Data.List.Induction
import RegisterMachine.Assignment
import RegisterMachine.Proofs.Assembly

/-!
# What assignments lead to

A table of assignments keeps for each register the value that was set last, so the bank that it
leads to holds these values, and zero where nothing was set. If no register is set twice the order
does not matter.

* `Assignments.last?`: the last value of a register in a list of settings.

Principal results: `Bank.read_ofTable_ofList` (the bank of a list of settings holds the last
values), `Bank.ofTable_ofList_of_perm` (the settings of a bank, in any order, lead to that bank),
`Bank.parse_eq_ok_iff` (when items are read, and as what) and `Bank.parse_eq_error_iff` (which item
is reported).
-/

set_option autoImplicit false

namespace RegisterMachine

namespace Assignments

variable {α : Type} {t : Assignments α} {r s : Register} {a : α}

/-- The last value that a register is set to. -/
def last? (t : Assignments α) (r : Register) : Option α :=
  (t.reverse.find? (·.1 == r)).map (·.2)

theorem last?_concat (t : Assignments α) (s : Register) (a : α) (r : Register) :
    last? (t ++ [(s, a)]) r = if s = r then some a else last? t r := by
  unfold last?
  rw [List.reverse_append]
  by_cases h : s = r <;> simp [h]

/-- Replacing the value of a register everywhere. -/
theorem last?_map (t : Assignments α) (s : Register) (a : α) (r : Register) :
    last? (t.map fun e => if e.1 == s then (s, a) else e) r =
      if s = r then (last? t r).map fun _ => a else last? t r := by
  induction t using List.reverseRecOn with
  | nil => simp [last?]
  | append_singleton t e ih =>
    obtain ⟨u, b⟩ := e
    rw [List.map_append, List.map_singleton, last?_concat]
    by_cases hu : u = s
    · subst hu
      have hnew : (if (u, b).1 == u then (u, a) else (u, b)) = (u, a) := if_pos (beq_self_eq_true u)
      rw [hnew, last?_concat, ih]
      by_cases hur : u = r <;> simp [hur]
    · have hold : (if (u, b).1 == s then (s, a) else (u, b)) = (u, b) := if_neg (by simpa using hu)
      rw [hold, last?_concat, ih]
      by_cases hur : u = r
      · have hsr : s ≠ r := fun h => hu (hur.trans h.symm)
        simp [hur, hsr]
      · simp [hur]

theorem last?_isSome_iff : (last? t r).isSome ↔ t.any (·.1 == r) = true := by
  simp [last?]

theorem last?_set (t : Assignments α) (s : Register) (a : α) (r : Register) :
    last? (t.set s a) r = if s = r then some a else last? t r := by
  unfold set
  split
  · rename_i hany
    rw [last?_map]
    by_cases h : s = r
    · subst h
      obtain ⟨b, hb⟩ := Option.isSome_iff_exists.1 (last?_isSome_iff.2 hany)
      simp [hb]
    · simp [h]
  · exact last?_concat t s a r

theorem ofList_concat (entries : List (Register × α)) (e : Register × α) :
    ofList (entries ++ [e]) = (ofList entries).set e.1 e.2 := by
  simp [ofList]

/-- **A table keeps the values that were set last.** -/
theorem last?_ofList (entries : List (Register × α)) (r : Register) :
    last? (ofList entries) r = last? entries r := by
  induction entries using List.reverseRecOn with
  | nil => rfl
  | append_singleton entries e ih => rw [ofList_concat, last?_set, ih, last?_concat]

theorem last?_eq_of_mem (hnd : (t.map Prod.fst).Nodup) (h : (r, a) ∈ t) : last? t r = some a := by
  have hany : t.any (·.1 == r) = true := List.any_eq_true.2 ⟨_, h, beq_self_eq_true r⟩
  obtain ⟨b, hb⟩ := Option.isSome_iff_exists.1 (last?_isSome_iff.2 hany)
  obtain ⟨⟨u, c⟩, hfind, rfl⟩ := Option.map_eq_some_iff.1 hb
  have hmem : (u, c) ∈ t := List.mem_reverse.1 (List.mem_of_find?_eq_some hfind)
  have hu : u = r := by simpa using List.find?_some hfind
  rw [hb, List.inj_on_of_nodup_map hnd hmem h hu]

end Assignments

namespace Bank

open Assignments

/-- **The bank of a table holds the last values**, and zero where nothing is set. -/
theorem read_ofTable (t : Assignments Float) (r : Register) :
    (ofTable t).read r = (last? t r).getD 0.0 := by
  induction t using List.reverseRecOn with
  | nil => cases r <;> rfl
  | append_singleton t e ih =>
    have hwrite : ofTable (t ++ [e]) = (ofTable t).write e.1 e.2 := by simp [ofTable]
    rw [hwrite, last?_concat]
    by_cases h : e.1 = r
    · rw [if_pos h, ← h, read_write_self, Option.getD_some]
    · rw [if_neg h, read_write_of_ne _ _ (Ne.symm h), ih]

theorem read_ofTable_ofList (entries : List (Register × Float)) (r : Register) :
    (ofTable (Assignments.ofList entries)).read r = (last? entries r).getD 0.0 := by
  rw [read_ofTable, last?_ofList]

theorem map_fst_toList (b : Bank) : b.toList.map Prod.fst = Register.all := by
  rw [toList, List.map_map]
  exact List.map_id _

/-- **The settings of a bank lead to that bank**, in whatever order they come. -/
theorem ofTable_ofList_of_perm {b : Bank} {entries : List (Register × Float)}
    (h : entries.Perm b.toList) : ofTable (Assignments.ofList entries) = b := by
  have hnd : (entries.map Prod.fst).Nodup := by
    rw [(h.map Prod.fst).nodup_iff, map_fst_toList]
    decide
  refine ext_read fun r => ?_
  have hmem : (r, b.read r) ∈ entries :=
    h.mem_iff.2 (List.mem_map.2 ⟨r, Register.mem_all r, rfl⟩)
  rw [read_ofTable_ofList, last?_eq_of_mem hnd hmem, Option.getD_some]

theorem parse_eq_map (items : List (List Char)) : parse items =
    (items.mapM Assignment.parse).map fun entries => ofTable (Assignments.ofList entries) := by
  unfold parse
  cases items.mapM Assignment.parse <;> rfl

theorem parse_eq_ok_iff {items : List (List Char)} {b : Bank} :
    parse items = .ok b ↔ ∃ entries,
      List.Forall₂ (fun item e => Assignment.parse item = .ok e) items entries ∧
      ofTable (Assignments.ofList entries) = b := by
  simp only [parse_eq_map, map_eq_ok_iff, mapM_eq_ok_iff]

theorem parse_eq_error_iff {items : List (List Char)} {e : AssignmentError} :
    parse items = .error e ↔ ∃ above item below, items = above ++ item :: below ∧
      (∀ good ∈ above, ∃ entry, Assignment.parse good = .ok entry) ∧
      Assignment.parse item = .error e := by
  rw [parse_eq_map, map_eq_error_iff, mapM_eq_error_iff]

end Bank

end RegisterMachine
