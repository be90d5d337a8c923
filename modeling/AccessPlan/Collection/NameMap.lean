import AccessPlan.Collection.Sorted

/-!
# Maps from names

A `NameMap α` binds names to values. Its entries are kept in strictly ascending order of their names, so a map has
one representation: two maps with the same bindings are equal, and no name is bound twice.

* `get?_insert`: an insertion binds its own name and leaves every other name as it was.
* `get?_overlay`: in `a.overlay b` the bindings of `b` hide those of `a`.
-/

namespace AccessPlan

/-- A finite map from names, its entries in strictly ascending order of their names. -/
structure NameMap (α : Type u) where
  entries : List (String × α)
  ascending : entries.Pairwise fun a b => a.1 < b.1
  deriving DecidableEq

namespace NameMap

variable {α : Type u} {β : Type v}

/-- The map that binds no name. -/
def empty : NameMap α := ⟨[], .nil⟩

instance : EmptyCollection (NameMap α) := ⟨empty⟩

instance : Inhabited (NameMap α) := ⟨empty⟩

/-- The bound names, in ascending order. -/
def names (m : NameMap α) : List String := m.entries.map (·.1)

def isEmpty (m : NameMap α) : Bool := m.entries.isEmpty

/-- The value bound to a name in a list of entries. -/
def find (k : String) : List (String × α) → Option α
  | [] => none
  | e :: es => if k = e.1 then some e.2 else find k es

def get? (m : NameMap α) (k : String) : Option α := find k m.entries

def contains (m : NameMap α) (k : String) : Bool := (m.get? k).isSome

/-- An entry put at its place; an entry of the same name gives way. -/
def insertEntry (k : String) (v : α) : List (String × α) → List (String × α)
  | [] => [(k, v)]
  | e :: es => if k < e.1 then (k, v) :: e :: es else if k = e.1 then (k, v) :: es else e :: insertEntry k v es

theorem fst_of_mem_insertEntry {k : String} {v : α} {e : String × α} :
    ∀ {es : List (String × α)}, e ∈ insertEntry k v es → e.1 = k ∨ e ∈ es
  | [], h => by simp [insertEntry] at h; simp [h]
  | f :: es, h => by
    unfold insertEntry at h
    split at h
    · rcases List.mem_cons.1 h with rfl | h
      · exact Or.inl rfl
      · exact Or.inr h
    · split at h
      · rcases List.mem_cons.1 h with rfl | h
        · exact Or.inl rfl
        · exact Or.inr (List.mem_cons_of_mem _ h)
      · rcases List.mem_cons.1 h with rfl | h
        · exact Or.inr List.mem_cons_self
        · rcases fst_of_mem_insertEntry h with h | h
          · exact Or.inl h
          · exact Or.inr (List.mem_cons_of_mem _ h)

theorem pairwise_insertEntry {k : String} {v : α} : ∀ {es : List (String × α)},
    es.Pairwise (fun a b => a.1 < b.1) → (insertEntry k v es).Pairwise fun a b => a.1 < b.1
  | [], _ => by simp [insertEntry]
  | f :: es, h => by
    obtain ⟨hf, hes⟩ := List.pairwise_cons.1 h
    unfold insertEntry
    split
    · rename_i hk
      refine List.pairwise_cons.2 ⟨fun e he => ?_, h⟩
      rcases List.mem_cons.1 he with rfl | he
      · exact hk
      · exact String.lt_trans hk (hf e he)
    · split
      · rename_i hk
        exact List.pairwise_cons.2 ⟨fun e he => hk ▸ hf e he, hes⟩
      · rename_i hlt hne
        refine List.pairwise_cons.2 ⟨fun e he => ?_, pairwise_insertEntry hes⟩
        rcases fst_of_mem_insertEntry he with he | he
        · exact he ▸ lt_of_not_lt_of_ne hlt hne
        · exact hf e he

/-- The map with `k` bound to `v`, whatever it was bound to before. -/
def insert (m : NameMap α) (k : String) (v : α) : NameMap α :=
  ⟨insertEntry k v m.entries, pairwise_insertEntry m.ascending⟩

/-- The map of a list of bindings; the last binding of a name counts. -/
def ofList (es : List (String × α)) : NameMap α :=
  es.foldl (fun m e => m.insert e.1 e.2) empty

/-- All bindings of `b`, and those of `a` for the names that `b` does not bind. -/
def overlay (a b : NameMap α) : NameMap α :=
  b.entries.foldl (fun m e => m.insert e.1 e.2) a

/-- Every value changed by `f`, which also sees the name. -/
def mapEntries (f : String → α → β) (m : NameMap α) : NameMap β :=
  ⟨m.entries.map fun e => (e.1, f e.1 e.2), by
    rw [List.pairwise_map]
    exact m.ascending⟩

/-! ## What a map binds -/

theorem find_insertEntry (k k' : String) (v : α) : ∀ es : List (String × α),
    find k' (insertEntry k v es) = if k' = k then some v else find k' es
  | [] => by simp [insertEntry, find]
  | f :: es => by
    unfold insertEntry
    split
    · simp [find]
    · split
      · rename_i h
        simp only [find, ← h]
        split <;> rfl
      · rename_i h
        simp only [find, find_insertEntry k k' v es]
        split
        · rename_i h'
          rw [if_neg (by rw [h']; exact fun e => h e.symm)]
        · rfl

@[simp] theorem get?_empty (k : String) : (empty : NameMap α).get? k = none := rfl

theorem get?_insert (m : NameMap α) (k k' : String) (v : α) :
    (m.insert k v).get? k' = if k' = k then some v else m.get? k' :=
  find_insertEntry k k' v m.entries

theorem get?_foldl_insert (k : String) : ∀ (es : List (String × α)) (m : NameMap α),
    es.Pairwise (fun a b => a.1 < b.1) →
    (es.foldl (fun m e => m.insert e.1 e.2) m).get? k = (find k es).or (m.get? k)
  | [], m, _ => by simp [find]
  | e :: es, m, h => by
    obtain ⟨he, hes⟩ := List.pairwise_cons.1 h
    simp only [List.foldl_cons, get?_foldl_insert k es _ hes, get?_insert, find]
    split
    · rename_i hk
      have : find k es = none := by
        clear hes h
        induction es with
        | nil => rfl
        | cons f es ih =>
          have hf := he f List.mem_cons_self
          simp only [find]
          rw [if_neg (by rw [hk]; exact String.ne_of_lt hf)]
          exact ih fun e' he' => he e' (List.mem_cons_of_mem _ he')
      simp [this]
    · rfl

/-- The bindings of the upper map hide those of the lower one. -/
theorem get?_overlay (a b : NameMap α) (k : String) : (a.overlay b).get? k = (b.get? k).or (a.get? k) :=
  get?_foldl_insert k b.entries a b.ascending

end NameMap

end AccessPlan
