import AccessPlan.Proofs.Collection.Order
import AccessPlan.Schema.Reader

/-!
# What readers hand out

A check *yields* a property if its value has it whenever there is one (`Checked.Yields`), and a reader *gives*
it if all of its checks yield it (`Reader.Gives`). The readers of fields, lists and maps give what the readers
of their parts give, so a property of a part is one of the whole record.
-/

namespace AccessPlan.Schema

namespace Checked

section Success

variable {α β : Type}

theorem map_eq_ok {f : α → β} {x : Checked α} {b : β} : f <$> x = ok b ↔ ∃ a, x = ok a ∧ f a = b := by
  show map f x = ok b ↔ _
  cases x <;> simp [map]

theorem andThen_eq_ok {x : Checked α} {check : α → Checked β} {b : β} :
    x.andThen check = ok b ↔ ∃ a, x = ok a ∧ check a = ok b := by
  cases x <;> simp [andThen]

theorem under_eq_ok {x : Checked α} {step : Step} {a : α} : x.under step = ok a ↔ x = ok a := by
  cases x <;> simp [under]

theorem toExcept_eq_ok {ε : Type} {refuse : List Fault → ε} {x : Checked α} {a : α} :
    x.toExcept refuse = .ok a ↔ x = ok a := by
  cases x <;> simp [toExcept]

/-- If there is a value, it has the property. -/
def Yields (x : Checked α) (P : α → Prop) : Prop := ∀ a, x = ok a → P a

theorem Yields.map {f : α → β} {x : Checked α} {P : β → Prop} (hx : x.Yields fun a => P (f a)) :
    (f <$> x).Yields P := by
  intro b hb
  obtain ⟨a, ha, rfl⟩ := map_eq_ok.1 hb
  exact hx a ha

/-- A combination yields what follows from what its second part yields. -/
theorem Yields.seq {f : Checked (α → β)} {x : Checked α} {P : α → Prop} {Q : β → Prop} (hx : x.Yields P)
    (hf : f.Yields fun g => ∀ a, P a → Q (g a)) : (f <*> x).Yields Q := by
  intro b hb
  obtain ⟨g, a, hg, ha, rfl⟩ := seq_eq_ok.1 hb
  exact hf g hg a (hx a ha)

/-- A combination yields what does not depend on its second part. -/
theorem Yields.seq_any {f : Checked (α → β)} {x : Checked α} {Q : β → Prop} (hf : f.Yields fun g => ∀ a, Q (g a)) :
    (f <*> x).Yields Q := .seq (fun _ _ => trivial) fun g hg a (_ : True) => hf g hg a

end Success

end Checked

namespace Reader

/-! ## What is given -/

/-- Every value that the reader hands out has the property. -/
def Gives {α : Type} (read : Reader α) (P : α → Prop) : Prop := ∀ j, (read j).Yields P

section Gives

variable {α : Type} {read : Reader α} {P : α → Prop} {name : String} {j : Json} {a : α}

theorem Gives.required (h : Gives read P) : Gives (required name read) P := by
  intro j a hj
  unfold Reader.required at hj
  cases hv : j.field? name with
  | none => simp [hv, Checked.fault, Checked.under] at hj
  | some v =>
    simp only [hv, Checked.under_eq_ok] at hj
    exact h v a hj

theorem Gives.withDefault {default : α} (h : Gives read P) (hd : P default) :
    Gives (withDefault name read default) P := by
  intro j a hj
  unfold Reader.withDefault at hj
  cases hv : j.field? name with
  | none =>
    simp only [hv, Checked.ok.injEq] at hj
    exact hj ▸ hd
  | some v =>
    simp only [hv, Checked.under_eq_ok] at hj
    exact h v a hj

theorem Gives.nullable (h : Gives read P) : Gives (nullable read) fun x => ∀ a, x = some a → P a := by
  intro j x hj
  cases j with
  | null =>
    cases hj
    nofun
  | _ =>
    obtain ⟨b, hb, rfl⟩ := Checked.map_eq_ok.1 hj
    rintro _ ⟨⟩
    exact h _ b hb

theorem Gives.optional (h : Gives read P) : Gives (optional name read) fun x => ∀ a, x = some a → P a :=
  h.nullable.withDefault nofun

theorem Gives.record {origin : Origin} (h : Gives read P) : Gives (record origin name read) P := by
  intro j a hj
  cases j with
  | obj fields => exact h _ a hj
  | _ => cases hj

/-- The items of a list give what their reader gives. -/
theorem Gives.itemsFrom (h : Gives read P) :
    ∀ {items : List Json} {index : Nat} {xs : List α}, itemsFrom read index items = .ok xs → ∀ x ∈ xs, P x
  | [], _, xs, hi => by
    cases hi
    nofun
  | j :: items, index, xs, hi => by
    simp only [Reader.itemsFrom, Checked.seq_eq_ok, Checked.map_eq_ok, Checked.under_eq_ok] at hi
    obtain ⟨_, rest, ⟨x, hx, rfl⟩, hrest, rfl⟩ := hi
    exact List.forall_mem_cons.2 ⟨h j x hx, Gives.itemsFrom h hrest⟩

theorem Gives.listOf (h : Gives read P) : Gives (listOf read) fun xs => ∀ x ∈ xs, P x := by
  intro j xs hj
  cases j with
  | arr items => exact Gives.itemsFrom h hj
  | _ => cases hj

/-- The entries of a map give what its reader of values gives. -/
theorem Gives.entriesOf {β : Type} {readName : Reader β} (h : Gives read P) :
    ∀ {fields : List (String × Json)} {es : List (β × α)}, entriesOf readName read fields = .ok es → ∀ e ∈ es, P e.2
  | [], es, hf => by
    cases hf
    nofun
  | (n, v) :: fields, es, hf => by
    simp only [Reader.entriesOf, Checked.seq_eq_ok, Checked.map_eq_ok, Checked.under_eq_ok] at hf
    obtain ⟨_, rest, ⟨_, ⟨_, a, ⟨_, -, rfl⟩, ha, rfl⟩, rfl⟩, hr, rfl⟩ := hf
    exact List.forall_mem_cons.2 ⟨h v a ha, Gives.entriesOf h hr⟩

/-- A map gives of its values what its reader of values gives. -/
theorem Gives.mapOf (h : Gives read P) : Gives (mapOf read) fun m => ∀ e ∈ m.entries, P e.2 := by
  intro j m hm e he
  obtain ⟨es, hes, rfl⟩ := Checked.map_eq_ok.1 hm
  cases j with
  | obj fields => exact Gives.entriesOf h hes e (NameMap.mem_ofList he)
  | _ => cases hes

/-- A text of at least one sign is whole and not empty. -/
theorem gives_textOf {most : Option Nat} : Gives (textOf 1 most) fun s => s ≠ "" ∧ Text.isWhole s = true := by
  intro j s hs
  simp only [textOf, Checked.andThen_eq_ok] at hs
  obtain ⟨t, ⟨u, -, hw⟩, ht⟩ := hs
  unfold wholeText at hw
  split at hw
  · rename_i hu
    cases hw
    split at ht
    · cases ht
    · rename_i hl
      have hne : t ≠ "" := fun he => hl (by rw [Text.length_eq_zero.2 he]; exact Nat.one_pos)
      cases most with
      | none =>
        cases ht
        exact ⟨hne, hu⟩
      | some m =>
        simp only at ht
        split at ht
        · cases ht
        · cases ht
          exact ⟨hne, hu⟩
  · cases hw

end Gives

end Reader

end AccessPlan.Schema
