import AccessPlan.Proofs.Role.Agreement
import AccessPlan.Proofs.Schema.Reading
import Mathlib.Data.List.Forall2
import Mathlib.Data.List.Perm.Basic

/-!
# What readers make of values that differ in order

Two values may be the same but for the order of a list (`Json.Reordered`), or for the order and the repetitions of its
items (`Json.SameItems`). Records are compared field by field (`Json.SameFields`) and maps entry by entry
(`Json.SameEntries`).

Two checks *agree* on a relation if their values are related whenever both have one (`Checked.Agrees`), and a reader
*carries* a relation of values to one of results if it agrees on all related values (`Reader.Carries`). The readers of
records and of maps carry what the readers of their parts carry, as they give what these give (`Reader.Gives`).
-/

namespace AccessPlan

/-! ## Maps with related values -/

/-- Two entries have the same name and related values. -/
def SameName {α : Type} (R : α → α → Prop) (e e' : String × α) : Prop := e.1 = e'.1 ∧ R e.2 e'.2

/-- Two maps bind the same names to related values. -/
def NameMap.Related {α : Type} (R : α → α → Prop) (m m' : NameMap α) : Prop :=
  List.Forall₂ (SameName R) m.entries m'.entries

section Maps

variable {α : Type} {R : α → α → Prop} {es es' : List (String × α)} {e e' : String × α} {m m' : NameMap α}

theorem forall₂_insertEntry (he : SameName R e e') (hes : List.Forall₂ (SameName R) es es') :
    List.Forall₂ (SameName R) (NameMap.insertEntry e.1 e.2 es) (NameMap.insertEntry e'.1 e'.2 es') := by
  obtain ⟨k, v⟩ := e
  obtain ⟨_, v'⟩ := e'
  obtain ⟨rfl, hv⟩ := he
  have he : SameName R (k, v) (k, v') := ⟨rfl, hv⟩
  induction hes with
  | nil => exact .cons he .nil
  | @cons d d' ds ds' hd hds ih =>
    have hname := hd.1
    unfold NameMap.insertEntry
    simp only [hname]
    split
    · exact .cons he (.cons hd hds)
    · split
      · exact .cons he hds
      · exact .cons hd ih

/-- Related lists of entries have related maps. -/
theorem NameMap.related_ofList (h : List.Forall₂ (SameName R) es es') :
    (NameMap.ofList es).Related R (.ofList es') := by
  have hfold : ∀ {m m' : NameMap α}, m.Related R m' →
      NameMap.Related R (es.foldl (fun m e => m.insert e.1 e.2) m) (es'.foldl (fun m e => m.insert e.1 e.2) m') := by
    induction h with
    | nil => exact id
    | cons he _ ih => exact fun hm => ih (forall₂_insertEntry he hm)
  exact hfold .nil

/-- Maps that bind the same names to the same values are equal. -/
theorem NameMap.Related.eq (h : NameMap.Related Eq m m') : m = m' := by
  have he : m.entries = m'.entries := List.forall₂_eq_eq_eq ▸ h.imp fun _ _ h => Prod.ext h.1 h.2
  cases m
  cases m'
  cases he
  rfl

end Maps

namespace Json

/-! ## Values that differ in order -/

/-- The same value, or the same items in another order. -/
inductive Reordered : Json → Json → Prop
  | refl (j : Json) : Reordered j j
  | arr {xs ys : List Json} (h : xs.Perm ys) : Reordered (.arr xs) (.arr ys)

/-- The same value, or the same items in another order and another number of times. -/
inductive SameItems : Json → Json → Prop
  | refl (j : Json) : SameItems j j
  | arr {xs ys : List Json} (h : ∀ x, x ∈ xs ↔ x ∈ ys) : SameItems (.arr xs) (.arr ys)

/-- The same value, or entries of the same names with related values. -/
inductive SameEntries (R : Json → Json → Prop) : Json → Json → Prop
  | refl (j : Json) : SameEntries R j j
  | obj {fs gs : List (String × Json)} (h : List.Forall₂ (SameName R) fs gs) : SameEntries R (.obj fs) (.obj gs)

/-- The same fields; how the values of a field are related is told by its name. -/
def SameFields (R : String → Json → Json → Prop) (j j' : Json) : Prop :=
  ∀ name, Option.Rel (R name) (j.field? name) (j'.field? name)

theorem sameFields_obj {R : String → Json → Json → Prop} {fs gs : List (String × Json)}
    (h : List.Forall₂ (fun f g => f.1 = g.1 ∧ R f.1 f.2 g.2) fs gs) : SameFields R (.obj fs) (.obj gs) := by
  intro name
  show Option.Rel (R name) (lookup name fs) (lookup name gs)
  induction h with
  | nil => exact .none
  | @cons f g _ _ hf _ ih =>
    obtain ⟨hname, hR⟩ := hf
    unfold lookup
    rw [← hname]
    split
    · rename_i h
      exact .some (h ▸ hR)
    · exact ih

theorem SameFields.refl {R : String → Json → Json → Prop} (hR : ∀ name j, R name j j) (j : Json) : SameFields R j j :=
  fun name => rel_refl (hR name) (j.field? name)

end Json

namespace Schema

open Json (Reordered SameItems SameEntries SameFields)

namespace Checked

section Agreement

variable {α β : Type} {P : α → α → Prop} {Q : β → β → Prop} {x x' : Checked α}

/-- If both checks have a value, their values are related. -/
def Agrees (R : α → α → Prop) (x x' : Checked α) : Prop := ∀ a a', x = ok a → x' = ok a' → R a a'

theorem agrees_ok {a a' : α} (h : P a a') : (ok a).Agrees P (ok a') := by
  rintro _ _ ⟨⟩ ⟨⟩
  exact h

theorem Agrees.map {f f' : α → β} (hf : ∀ a a', P a a' → Q (f a) (f' a')) (hx : x.Agrees P x') :
    (f <$> x).Agrees Q (f' <$> x') := by
  intro b b' hb hb'
  obtain ⟨a, ha, rfl⟩ := map_eq_ok.1 hb
  obtain ⟨a', ha', rfl⟩ := map_eq_ok.1 hb'
  exact hf a a' (hx a a' ha ha')

/-- Combinations agree on what follows from what their second parts agree on. -/
theorem Agrees.seq {f f' : Checked (α → β)} (hx : x.Agrees P x')
    (hf : f.Agrees (fun g g' => ∀ a a', P a a' → Q (g a) (g' a')) f') : (f <*> x).Agrees Q (f' <*> x') := by
  intro b b' hb hb'
  obtain ⟨g, a, hg, ha, rfl⟩ := seq_eq_ok.1 hb
  obtain ⟨g', a', hg', ha', rfl⟩ := seq_eq_ok.1 hb'
  exact hf g g' hg hg' a a' (hx a a' ha ha')

theorem Agrees.under {step : Step} (hx : x.Agrees P x') : (x.under step).Agrees P (x'.under step) :=
  fun a a' ha ha' => hx a a' (under_eq_ok.1 ha) (under_eq_ok.1 ha')

end Agreement

end Checked

namespace Reader

/-- The reader makes related results of related values. -/
def Carries {α : Type} (read : Reader α) (R : Json → Json → Prop) (S : α → α → Prop) : Prop :=
  ∀ j j', R j j' → (read j).Agrees S (read j')

section Carries

variable {α : Type} {read : Reader α} {R : Json → Json → Prop} {S : α → α → Prop} {name : String}

/-- Every reader makes the same of the same value. -/
theorem carries_eq (read : Reader α) : read.Carries Eq Eq := by
  rintro j _ rfl a a' ha ha'
  rw [ha] at ha'
  exact Checked.ok.inj ha'

theorem Carries.record {origin : Origin} (h : read.Carries R S) : (record origin name read).Carries R S := by
  intro j j' hj a a' ha ha'
  cases j with
  | obj fields =>
    cases j' with
    | obj fields' => exact h _ _ hj a a' ha ha'
    | _ => cases ha'
  | _ => cases ha

/-- A reader that hands out nothing else carries the same. -/
theorem Carries.of_ok {read' : Reader α} (h : read.Carries R S) (hok : ∀ j a, read' j = .ok a → read j = .ok a) :
    read'.Carries R S := fun j j' hj a a' ha ha' =>
  h j j' hj a a' (hok j a ha) (hok j' a' ha')

/-- A further check that hands on its value keeps what is carried. -/
theorem Carries.andThen {check : α → Checked α} (h : read.Carries R S) (hc : ∀ a b, check a = .ok b → b = a) :
    Carries (fun j => (read j).andThen check) R S := h.of_ok fun j b hb => by
  obtain ⟨a, ha, hab⟩ := Checked.andThen_eq_ok.1 hb
  rw [ha, hc a b hab]

section Fields

variable {F : String → Json → Json → Prop} (h : read.Carries (F name) S)
include h

theorem Carries.withDefault {default : α} (hd : S default default) :
    (withDefault name read default).Carries (SameFields F) S := by
  intro j j' hj
  have hfield := hj name
  unfold Reader.withDefault
  generalize j.field? name = v at hfield
  generalize j'.field? name = v' at hfield
  cases hfield with
  | none => exact Checked.agrees_ok hd
  | some hv => exact (h _ _ hv).under

theorem Carries.required : (required name read).Carries (SameFields F) S := by
  intro j j' hj
  have hfield := hj name
  unfold Reader.required
  generalize j.field? name = v at hfield
  generalize j'.field? name = v' at hfield
  cases hfield with
  | none => rintro _ _ ⟨⟩
  | some hv => exact (h _ _ hv).under

end Fields

section SameField

variable {F : String → Json → Json → Prop} (name : String) (hF : F name = Eq)
include hF

/-- A field that is the same in both records is read as the same. -/
theorem carries_sameField {default : α} : (withDefault name read default).Carries (SameFields F) Eq :=
  Carries.withDefault (hF ▸ carries_eq read) rfl

theorem carries_sameRequired : (required name read).Carries (SameFields F) Eq :=
  Carries.required (hF ▸ carries_eq read)

end SameField

/-! ## Lists -/

theorem itemsFrom_text_eq_ok : ∀ {index : Nat} {items : List Json} {xs : List String},
    itemsFrom text index items = .ok xs → items = xs.map .str
  | _, [], xs, h => by
    cases h
    rfl
  | index, j :: js, xs, h => by
    simp only [itemsFrom, Checked.seq_eq_ok, Checked.map_eq_ok, Checked.under_eq_ok] at h
    obtain ⟨_, rest, ⟨s, hs, rfl⟩, hrest, rfl⟩ := h
    cases j with
    | str t =>
      obtain rfl := Checked.ok.inj hs
      rw [itemsFrom_text_eq_ok hrest]
      rfl
    | _ => cases hs

/-- What is read as a list of texts is the list of these texts. -/
theorem texts_eq_ok {j : Json} {xs : List String} (h : texts j = .ok xs) : j = .ofTexts xs := by
  cases j with
  | arr items => rw [itemsFrom_text_eq_ok h, Json.ofTexts]
  | _ => cases h

theorem str_injective : Function.Injective Json.str := fun _ _ h => Json.str.inj h

/-- The check of the length of a list hands it on. -/
theorem Carries.listOfLeast {item : Reader α} {S : List α → List α → Prop} {least : Nat}
    (h : (listOf item).Carries R S) : (listOfLeast least item).Carries R S := by
  refine h.andThen fun xs ys hy => ?_
  split at hy
  · cases hy
  · exact (Checked.ok.inj hy).symm

/-- Texts in another order are read as such. -/
theorem carries_texts_reordered : texts.Carries Reordered List.Perm := by
  intro j j' hj xs ys hx hy
  have hx := texts_eq_ok hx
  have hy := texts_eq_ok hy
  cases hj with
  | refl => rw [List.map_injective_iff.2 str_injective (Json.arr.inj (hx.symm.trans hy))]
  | arr h =>
    rw [Json.arr.inj hx, Json.arr.inj hy] at h
    exact (List.map_perm_map_iff str_injective).1 h

theorem carries_texts_sameItems : texts.Carries SameItems SameMembers := by
  intro j j' hj xs ys hx hy
  have hx := texts_eq_ok hx
  have hy := texts_eq_ok hy
  cases hj with
  | refl =>
    rw [List.map_injective_iff.2 str_injective (Json.arr.inj (hx.symm.trans hy))]
    exact .refl ys
  | arr h =>
    rw [Json.arr.inj hx, Json.arr.inj hy] at h
    intro s
    have hs := h (.str s)
    rwa [List.mem_map_of_injective str_injective, List.mem_map_of_injective str_injective] at hs

/-! ## Maps -/

theorem entriesOf_agrees (h : read.Carries R S) {fs gs : List (String × Json)}
    (hfs : List.Forall₂ (SameName R) fs gs) :
    (entriesOf text read fs).Agrees (List.Forall₂ (SameName S)) (entriesOf text read gs) := by
  induction hfs with
  | nil => exact Checked.agrees_ok .nil
  | @cons f g fs gs hf _ ih =>
    obtain ⟨hname, hR⟩ := hf
    refine .seq ih (.map (P := SameName S) (fun _ _ he _ _ hes => .cons he hes) ?_)
    rw [hname]
    refine .seq (h _ _ hR).under (.map (P := Eq) (fun _ _ he _ _ hv => ⟨he, hv⟩) ?_)
    exact (carries_eq text _ _ rfl).under.under

/-- The reader of a map makes related maps of related entries. -/
theorem Carries.mapOf (h : read.Carries R S) (hR : ∀ j, R j j) :
    (mapOf read).Carries (SameEntries R) (NameMap.Related S) := by
  intro j j' hj
  refine .map (P := List.Forall₂ (SameName S)) (fun _ _ => NameMap.related_ofList) ?_
  have hobj : ∀ {fs gs : List (String × Json)}, List.Forall₂ (SameName R) fs gs →
      (entries text read (.obj fs)).Agrees (List.Forall₂ (SameName S)) (entries text read (.obj gs)) := fun hfs =>
    entriesOf_agrees h hfs
  cases hj with
  | refl =>
    cases j with
    | obj fs => exact hobj (List.forall₂_same.2 fun e _ => ⟨rfl, hR e.2⟩)
    | _ => rintro _ _ ⟨⟩
  | obj hfs => exact hobj hfs

/-- If there may be no map, both are there or none. -/
theorem Carries.nullable (h : read.Carries (SameEntries R) S) :
    (nullable read).Carries (SameEntries R) (Option.Rel S) := by
  intro j j' hj
  have hsome : (some <$> read j).Agrees (Option.Rel S) (some <$> read j') := .map (fun _ _ hm => .some hm) (h j j' hj)
  cases hj with
  | refl =>
    cases j with
    | null => exact Checked.agrees_ok .none
    | _ => exact hsome
  | obj _ => exact hsome

end Carries

end Reader

end Schema

end AccessPlan
