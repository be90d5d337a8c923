import AccessPlan.Json.OfMap
import AccessPlan.Proofs.Collection.Order
import Mathlib.Data.List.Nodup

/-!
# Maps that are written

The names of a map are shown without halves of surrogate pairs (`NameMap.shown`), so a map of whole names is shown as it
is (`shown_of_isWhole`). What is written of entries is a list that names nothing twice (`nodup_written`) and stands for
the same map (`ofList_written`).
-/

namespace AccessPlan

namespace Text

/-- What is shown without halves is whole. -/
theorem isWhole_withoutHalves (s : String) : isWhole (withoutHalves s) = true := by
  unfold withoutHalves
  split
  · assumption
  · have hsigns : ∀ x ∈ (signs s).flatMap fun x => if x.isHalf then List.replicate 3 (.character replacement) else [x],
        x.IsWellFormed ∧ x.isHalf = false := by
      intro x hx
      obtain ⟨y, -, hy⟩ := List.mem_flatMap.1 hx
      split at hy
      · rw [List.eq_of_mem_replicate hy]
        exact ⟨trivial, rfl⟩
      · rename_i hh
        obtain rfl := List.mem_singleton.1 hy
        cases x with
        | character c => exact ⟨trivial, rfl⟩
        | half code => exact absurd rfl hh
    rw [isWhole, signs, ofSigns, String.toList_ofList, signsOf_flatMap fun x hx => (hsigns x hx).1, Bool.not_eq_true',
      List.any_eq_false]
    intro x hx
    rw [(hsigns x hx).2]
    decide

end Text

section Lists

variable {α β : Type} {es : List (String × α)} {name : String} {v : α}

theorem mem_of_lookup (h : es.lookup name = some v) : (name, v) ∈ es := by
  obtain ⟨before, after, he, -⟩ := List.lookup_eq_some_iff.1 h
  simp [he]

theorem lookup_eq_some_of_mem (hn : (es.map (·.1)).Nodup) (h : (name, v) ∈ es) : es.lookup name = some v := by
  induction es with
  | nil => cases h
  | cons e es ih =>
    rw [List.map_cons, List.nodup_cons] at hn
    rcases List.mem_cons.1 h with rfl | h
    · simp
    · have hne : name ≠ e.1 := by
        rintro rfl
        exact hn.1 (List.mem_map.2 ⟨_, h, rfl⟩)
      rw [List.lookup_cons, beq_eq_false_iff_ne.2 hne]
      exact ih hn.2 h

theorem map_withEntry (f : α → β) : (withEntry es name v).map (fun e => (e.1, f e.2)) =
    withEntry (es.map fun e => (e.1, f e.2)) name (f v) := by
  unfold withEntry
  simp only [List.any_map, Function.comp_def]
  split
  · rw [List.map_map, List.map_map]
    refine List.map_congr_left fun e _ => ?_
    simp only [Function.comp_def]
    split <;> rfl
  · rw [List.map_append]
    rfl

theorem mem_withEntry {e : String × α} (h : e ∈ withEntry es name v) : e = (name, v) ∨ e ∈ es := by
  unfold withEntry at h
  split at h
  · obtain ⟨d, hd, rfl⟩ := List.mem_map.1 h
    split
    · rename_i hk
      exact Or.inl (by rw [eq_of_beq hk])
    · exact Or.inr hd
  · exact (List.mem_append.1 h).symm.imp List.mem_singleton.1 id

theorem names_withEntry : (withEntry es name v).map (·.1) =
    if name ∈ es.map (·.1) then es.map (·.1) else es.map (·.1) ++ [name] := by
  have hany : es.any (·.1 == name) = true ↔ name ∈ es.map (·.1) := by simp
  unfold withEntry
  by_cases h : es.any (·.1 == name) = true
  · rw [if_pos h, if_pos (hany.1 h), List.map_map]
    refine List.map_congr_left fun e _ => ?_
    simp only [Function.comp_def]
    split <;> rfl
  · rw [if_neg h, if_neg (hany.not.1 h), List.map_append]
    rfl

/-- One more entry repeats no name. -/
theorem nodup_withEntry (hn : (es.map (·.1)).Nodup) : ((withEntry es name v).map (·.1)).Nodup := by
  rw [names_withEntry]
  split
  · exact hn
  · have hno : name ∉ es.map (·.1) := ‹_›
    exact List.nodup_append.2 ⟨hn, List.nodup_singleton _, fun a ha b hb hab =>
      hno (List.mem_singleton.1 hb ▸ hab ▸ ha)⟩

end Lists

namespace NameMap

variable {α : Type} {m : NameMap α}

/-- The map as it is shown: its names without halves. Of names that become one the last one counts. -/
def shown (m : NameMap α) : NameMap α := .ofList (m.entries.map fun e => (Text.withoutHalves e.1, e.2))

/-- A list with the entries of a map stands for this map. -/
theorem ofList_eq_of_mem_iff {es : List (String × α)} (h : ∀ e, e ∈ es ↔ e ∈ m.entries) : ofList es = m := by
  refine eq_of_get? fun name => ?_
  rw [get?_ofList]
  refine Option.ext fun v => ?_
  have hbound : ∀ {w}, es.reverse.lookup name = some w → m.get? name = some w := fun hw =>
    get?_eq_some_iff.2 ((h _).1 (List.mem_reverse.1 (mem_of_lookup hw)))
  refine ⟨hbound, fun hv => ?_⟩
  have hm : (name, v) ∈ es := (h _).2 (get?_eq_some_iff.1 hv)
  have hsome : (es.reverse.lookup name).isSome = true :=
    List.lookup_isSome_iff.2 ⟨_, List.mem_reverse.2 hm, beq_self_eq_true _⟩
  obtain ⟨w, hw⟩ := Option.isSome_iff_exists.1 hsome
  rw [hw, ← hbound hw, hv]

/-- The names of a shown map are whole. -/
theorem isWhole_of_mem_shown {e : String × α} (h : e ∈ m.shown.entries) : Text.isWhole e.1 = true := by
  obtain ⟨d, -, rfl⟩ := List.mem_map.1 (mem_ofList h)
  exact Text.isWhole_withoutHalves d.1

theorem map_withoutHalves {es : List (String × α)} (h : ∀ e ∈ es, Text.isWhole e.1 = true) :
    es.map (fun e => (Text.withoutHalves e.1, e.2)) = es := by
  refine (List.map_congr_left fun e he => ?_).trans (List.map_id es)
  rw [Text.withoutHalves_of_isWhole (h e he)]
  rfl

/-- A map of whole names is shown as it is. -/
theorem shown_of_isWhole (h : ∀ e ∈ m.entries, Text.isWhole e.1 = true) : m.shown = m := by
  rw [shown, map_withoutHalves h, ofList_entries]

/-- The map is shown as it is only if its names are whole. -/
theorem shown_eq_self_iff : m.shown = m ↔ ∀ e ∈ m.entries, Text.isWhole e.1 = true :=
  ⟨fun h _ he => isWhole_of_mem_shown (h.symm ▸ he), shown_of_isWhole⟩

end NameMap

namespace Json

section Written

variable {α β : Type} {es : List (String × α)}

/-- The entries that are written, in the order in which their names come first. -/
def written (es : List (String × α)) : List (String × α) :=
  es.foldl (fun fields e => withEntry fields (Text.withoutHalves e.1) e.2) []

theorem ofEntries_eq (entries : List (String × Json)) : ofEntries entries = obj (written entries) := rfl

theorem map_written (f : α → β) :
    written (es.map fun e => (e.1, f e.2)) = (written es).map fun e => (e.1, f e.2) := by
  have hfold : ∀ (es before : List (String × α)),
      (es.map fun e => (e.1, f e.2)).foldl (fun fields e => withEntry fields (Text.withoutHalves e.1) e.2)
          (before.map fun e => (e.1, f e.2)) =
        (es.foldl (fun fields e => withEntry fields (Text.withoutHalves e.1) e.2) before).map
          fun e => (e.1, f e.2) := by
    intro es
    induction es with
    | nil => exact fun _ => rfl
    | cons e es ih =>
      intro before
      rw [List.map_cons, List.foldl_cons, List.foldl_cons, ← ih, map_withEntry]
  exact hfold es []

/-- No name is written twice. -/
theorem nodup_written (es : List (String × α)) : ((written es).map (·.1)).Nodup := by
  have hfold : ∀ (es before : List (String × α)), (before.map (·.1)).Nodup →
      ((es.foldl (fun fields e => withEntry fields (Text.withoutHalves e.1) e.2) before).map (·.1)).Nodup := by
    intro es
    induction es with
    | nil => exact fun _ h => h
    | cons e es ih => exact fun before h => ih _ (nodup_withEntry h)
  exact hfold es [] .nil

/-- What is written is an entry with its name shown. -/
theorem exists_of_mem_written {e : String × α} (h : e ∈ written es) :
    ∃ d ∈ es, e = (Text.withoutHalves d.1, d.2) := by
  have hfold : ∀ (es before : List (String × α)),
      e ∈ es.foldl (fun fields e => withEntry fields (Text.withoutHalves e.1) e.2) before →
        (∃ d ∈ es, e = (Text.withoutHalves d.1, d.2)) ∨ e ∈ before := by
    intro es
    induction es with
    | nil => exact fun _ h => Or.inr h
    | cons d es ih =>
      intro before h
      rcases ih _ h with ⟨d', hd', rfl⟩ | h
      · exact Or.inl ⟨d', List.mem_cons_of_mem _ hd', rfl⟩
      · exact (mem_withEntry h).imp_left fun he => ⟨d, List.mem_cons_self, he⟩
  exact (hfold es [] h).resolve_right nofun

theorem lookup_written (name : String) :
    (written es).lookup name = (es.map fun e => (Text.withoutHalves e.1, e.2)).reverse.lookup name := by
  have hfold : ∀ (es before : List (String × α)),
      (es.foldl (fun fields e => withEntry fields (Text.withoutHalves e.1) e.2) before).lookup name =
        ((es.map fun e => (Text.withoutHalves e.1, e.2)).reverse.lookup name).or (before.lookup name) := by
    intro es
    induction es with
    | nil => exact fun _ => rfl
    | cons e es ih =>
      intro before
      rw [List.foldl_cons, ih, lookup_withEntry, List.map_cons, List.reverse_cons, List.lookup_append, Option.or_assoc]
      cases hname : name == Text.withoutHalves e.1 <;> simp [List.lookup_cons, hname]
  rw [written, hfold, List.lookup_nil, Option.or_none]

/-- What is written are the entries of the map of the shown names. -/
theorem mem_written {e : String × α} :
    e ∈ written es ↔ e ∈ (NameMap.ofList (es.map fun e => (Text.withoutHalves e.1, e.2))).entries := by
  obtain ⟨name, v⟩ := e
  rw [← NameMap.get?_eq_some_iff, NameMap.get?_ofList, ← lookup_written]
  exact ⟨lookup_eq_some_of_mem (nodup_written es), mem_of_lookup⟩

theorem ofList_written : NameMap.ofList (written es) = .ofList (es.map fun e => (Text.withoutHalves e.1, e.2)) :=
  NameMap.ofList_eq_of_mem_iff fun _ => mem_written

/-- The entries of a shown map are those that are written, in ascending order. -/
theorem entries_shown_perm (m : NameMap α) : m.shown.entries.Perm (written m.entries) :=
  (List.perm_ext_iff_of_nodup (NameMap.nodup_names m.shown).of_map (nodup_written m.entries).of_map).2
    fun _ => mem_written.symm

end Written

end Json

end AccessPlan
