import AccessPlan.Json.Basic
import AccessPlan.Text.UpperCase

/-!
# Personas

The four kinds of members that every environment has a group for. The order of `Persona.all` is the order in which
groups are built and looked at.

* `mem_arrange`: entries arranged by personas are the same entries.
-/

namespace AccessPlan

inductive Persona where
  | nonTechnical
  | technical
  | soloProject
  | admin
  deriving DecidableEq, Repr, Inhabited

namespace Persona

def all : List Persona := [nonTechnical, technical, soloProject, admin]

/-- The name in configurations and documents. -/
def name : Persona → String
  | nonTechnical => "non_technical"
  | technical => "technical"
  | soloProject => "solo_project"
  | admin => "admin"

/-- The name in group keys. -/
def label : Persona → String
  | nonTechnical => "non-technical"
  | technical => "technical"
  | soloProject => "solo-project"
  | admin => "admin"

/-- The name for people: the label in title case, with spaces. -/
def displayLabel (p : Persona) : String :=
  Text.toTitleCase (p.label.map fun c => if c = '-' then ' ' else c)

/-- Whether the persona has a group for every project. -/
def hasProjects (p : Persona) : Bool := p != admin

/-- The personas by name. -/
def choices : List (String × Persona) := all.map fun p => (p.name, p)

def ofName? (s : String) : Option Persona := choices.lookup s

/-- Entries by the names of personas: those of personas in their order, and then the others. -/
def arrange {α : Type} (entries : List (String × α)) : List (String × α) :=
  all.flatMap (fun p => entries.filter fun e => e.1 = p.name) ++ entries.filter fun e => (ofName? e.1).isNone

/-- The persona that a value names. -/
def ofJson? : Json → Option Persona
  | .str s => ofName? s
  | _ => none

theorem mem_all (p : Persona) : p ∈ all := by cases p <;> decide

instance decidableForall {P : Persona → Prop} [DecidablePred P] : Decidable (∀ p, P p) :=
  decidable_of_iff (∀ p ∈ all, P p) ⟨fun h p => h p p.mem_all, fun h p _ => h p⟩

@[simp] theorem ofName?_name (p : Persona) : ofName? p.name = some p := by cases p <;> decide

theorem ofName?_eq_some {s : String} {p : Persona} : ofName? s = some p ↔ s = p.name := by
  constructor
  · intro h
    obtain ⟨l₁, l₂, he, -⟩ := List.lookup_eq_some_iff.1 h
    have hm : (s, p) ∈ choices := by simp [he]
    obtain ⟨q, -, hq⟩ := List.mem_map.1 hm
    rw [Prod.mk.injEq] at hq
    rw [← hq.1, hq.2]
  · rintro rfl
    exact ofName?_name p

/-- The name tells the persona. -/
theorem name_inj {p q : Persona} (h : p.name = q.name) : p = q := by
  have hp := ofName?_name p
  rw [h, ofName?_name] at hp
  exact (Option.some.inj hp).symm

/-- Arranged entries are the same entries. -/
theorem mem_arrange {α : Type} {entries : List (String × α)} {e : String × α} : e ∈ arrange entries ↔ e ∈ entries := by
  simp only [arrange, List.mem_append, List.mem_flatMap, List.mem_filter, decide_eq_true_eq]
  constructor
  · rintro (⟨p, -, h, -⟩ | ⟨h, -⟩) <;> exact h
  · intro h
    cases hp : ofName? e.1 with
    | none => exact Or.inr ⟨h, rfl⟩
    | some p => exact Or.inl ⟨p, mem_all p, h, ofName?_eq_some.1 hp⟩

end Persona

end AccessPlan
