import AccessPlan.Collection.NameMap
import AccessPlan.Json.Basic
import AccessPlan.Text.Utf8

/-!
# Maps as JSON objects

A map is written as an object. The names of its fields are encoded right away, so halves of surrogate pairs in them are
replaced, and of names that become one the last one counts.

* `ofEntries_of_isWhole`: different names without halves are written as they are.
-/

namespace AccessPlan.Json

/-- The object of entries. -/
def ofEntries (entries : List (String × Json)) : Json :=
  obj (entries.foldl (fun fields e => withEntry fields (Text.withoutHalves e.1) e.2) [])

/-- The object of a map. -/
def ofMap {α : Type} (write : α → Json) (m : NameMap α) : Json := ofEntries (m.entries.map fun e => (e.1, write e.2))

theorem foldl_withEntry_of_isWhole : ∀ {entries before : List (String × Json)},
    (∀ e ∈ entries, Text.isWhole e.1 = true) → (before ++ entries).Pairwise (fun a b => a.1 ≠ b.1) →
      entries.foldl (fun fields e => withEntry fields (Text.withoutHalves e.1) e.2) before = before ++ entries
  | [], before, _, _ => (List.append_nil before).symm
  | e :: es, before, hw, hd => by
    have hn : (before.any (·.1 == e.1)) = false := by
      rw [List.any_eq_false]
      intro f hf he
      exact (List.pairwise_append.1 hd).2.2 f hf e List.mem_cons_self (by simpa using he)
    rw [List.foldl_cons, Text.withoutHalves_of_isWhole (hw e List.mem_cons_self), withEntry, hn]
    simp only [Bool.false_eq_true, if_false]
    have hd' : (before ++ [e] ++ es).Pairwise (fun a b => a.1 ≠ b.1) := by simpa using hd
    rw [foldl_withEntry_of_isWhole (fun f hf => hw f (List.mem_cons_of_mem _ hf)) hd']
    simp

/-- Different names without halves are written as they are. -/
theorem ofEntries_of_isWhole {entries : List (String × Json)} (hw : ∀ e ∈ entries, Text.isWhole e.1 = true)
    (hd : entries.Pairwise fun a b => a.1 ≠ b.1) : ofEntries entries = obj entries := by
  rw [ofEntries, foldl_withEntry_of_isWhole hw (by simpa using hd), List.nil_append]

end AccessPlan.Json
