import AccessPlan.Proofs.Calendar.RoundTrip
import AccessPlan.Proofs.Json.Maps
import AccessPlan.Schema.Reader

/-!
# What readers read back

A list is read back if its items are (`Reader.listOf_ok_of_mem`), and a map if its values are, with its names as they
are shown (`Reader.mapOf_ofMap`). A timestamp is read back with its offset (`Reader.timestampUtc_text`).
-/

namespace AccessPlan.Schema.Reader

variable {α β : Type} {read : Reader β} {write : α → Json} {f : α → β}

/-- A list is read back if its items are. -/
theorem listOf_ok_of_mem {read : Reader α} {xs : List α} (h : ∀ a ∈ xs, read (write a) = .ok a) :
    listOf read (.arr (xs.map write)) = .ok xs := by
  have hitems : ∀ (index : Nat) (xs : List α), (∀ a ∈ xs, read (write a) = .ok a) →
      itemsFrom read index (xs.map write) = .ok xs := by
    intro index xs
    induction xs generalizing index with
    | nil => exact fun _ => rfl
    | cons x xs ih =>
      intro h
      obtain ⟨hx, hxs⟩ := List.forall_mem_cons.1 h
      rw [List.map_cons, itemsFrom, hx, ih (index + 1) hxs]
      rfl
  exact hitems 0 xs h

/-- A timestamp is read back; one without an offset becomes one of Coordinated Universal Time. -/
theorem timestampUtc_text (t : Calendar.Timestamp) : timestampUtc (.str t.text) = .ok t.asUtc := by
  have hwhole : Text.isWhole t.text = true := by
    rw [Text.isWhole, Text.signs, Text.any_isHalf_ascii t.isAscii_text]
    rfl
  simp only [timestampUtc, timestamp, wholeText, hwhole, if_true, Checked.andThen, timestampValue,
    Calendar.Timestamp.ofJson, t.ofText_text]
  rfl

/-! ## Maps -/

theorem entriesOf_text {es : List (String × α)} (h : ∀ e ∈ es, read (write e.2) = .ok (f e.2)) :
    entriesOf text read (es.map fun e => (e.1, write e.2)) = .ok (es.map fun e => (e.1, f e.2)) := by
  induction es with
  | nil => rfl
  | cons e es ih =>
    obtain ⟨he, hes⟩ := List.forall_mem_cons.1 h
    rw [List.map_cons, entriesOf, he, ih hes]
    rfl

/-- Entries are read back as a map of the names that are shown. -/
theorem mapOf_ofEntries {es : List (String × α)} (h : ∀ e ∈ es, read (write e.2) = .ok (f e.2)) :
    mapOf read (.ofEntries (es.map fun e => (e.1, write e.2))) =
      .ok (.ofList (es.map fun e => (Text.withoutHalves e.1, f e.2))) := by
  have hw : ∀ e ∈ Json.written es, read (write e.2) = .ok (f e.2) := by
    intro e he
    obtain ⟨d, hd, rfl⟩ := Json.exists_of_mem_written he
    exact h d hd
  rw [mapOf, Json.ofEntries_eq, Json.map_written, entries, entriesOf_text hw, ← Json.map_written, Checked.map_ok,
    Json.ofList_written, List.map_map]
  rfl

/-- A map is read back as it is shown. -/
theorem mapOf_ofMap {read : Reader α} {m : NameMap α} (h : ∀ e ∈ m.entries, read (write e.2) = .ok e.2) :
    mapOf read (.ofMap write m) = .ok m.shown := mapOf_ofEntries (f := id) h

/-- A map of whole names is read back. -/
theorem mapOf_ofMap_of_isWhole {read : Reader α} {m : NameMap α} (h : ∀ e ∈ m.entries, read (write e.2) = .ok e.2)
    (hw : ∀ e ∈ m.entries, Text.isWhole e.1 = true) : mapOf read (.ofMap write m) = .ok m := by
  rw [mapOf_ofMap h, NameMap.shown_of_isWhole hw]

end AccessPlan.Schema.Reader
