import AccessPlan.Assignment.Expansion
import AccessPlan.Principal.Record
import AccessPlan.Proofs.Text.Join

/-!
# Where assignments come from

An assignment is made for a role of a persona group at a place, or for a labelled grant of a service
principal. This is its `Source`, and its key is made of the parts of the source.

* `tier_eq_of_key_eq`: sources of different tiers have different keys, whatever their parts are.
* `key_group_eq_iff`, `key_principal_eq_iff`: behind names without a slash, equal keys come from the same
  place, or from the same grant. Only the boundary between the key of a group and its role is not marked.
-/

namespace AccessPlan

/-- A place that persona groups are granted access to. -/
inductive Place where
  | managementGroup
  | tenant
  | subscription
  | resourceGroup (name : String)
  deriving DecidableEq

namespace Place

def tier : Place → Tier
  | managementGroup => .managementGroup
  | tenant => .tenant
  | subscription => .subscription
  | resourceGroup _ => .resourceGroup

/-- What the keys of a place have in front. -/
def keyPrefix : Place → String
  | resourceGroup name => Tier.resourceGroup.name ++ "-" ++ name ++ "/"
  | place => place.tier.name ++ "-"

end Place

/-- What an assignment is made for. -/
inductive Source where
  /-- A role of the persona group of a key, at a place. -/
  | group (place : Place) (key role : String)
  /-- A grant of the service principal of a name, under a label. -/
  | principal (name label : String) (grant : Grant)

namespace Source

def tier : Source → Tier
  | group place _ _ => place.tier
  | principal _ _ _ => .servicePrincipal

def key : Source → String
  | group place key role => place.keyPrefix ++ key ++ "-" ++ role
  | principal name label _ => Tier.servicePrincipal.name ++ "-" ++ name ++ "/" ++ label

/-- The assignment of a source, where every place has its scope. -/
def assignment (scopeAt : Place → Scope) : Source → Assignment
  | group place key role => ⟨(group place key role).key, place.tier, scopeAt place, role, key, .group⟩
  | principal name label grant =>
    ⟨(principal name label grant).key, .servicePrincipal, .custom grant.scope, grant.role,
      "service-principal-" ++ name, .servicePrincipal⟩

@[simp] theorem key_assignment {scopeAt : Place → Scope} (s : Source) : (s.assignment scopeAt).key = s.key := by
  cases s <;> rfl

/-- The name in front of a slash in the key, if there is one, holds no slash. -/
def IsSeparable : Source → Prop
  | group (.resourceGroup name) _ _ => '/' ∉ name.toList
  | group _ _ _ => True
  | principal name _ _ => '/' ∉ name.toList

/-! ## Keys of different tiers -/

/-- The first two characters of the name of a tier tell it. -/
theorem tier_eq_of_take_eq {t u : Tier} (h : t.name.toList.take 2 = u.name.toList.take 2) : t = u := by
  cases t <;> cases u <;> first | rfl | (revert h; decide)

/-- A key begins with the name of its tier. -/
theorem exists_key_eq (s : Source) : ∃ rest, s.key = s.tier.name ++ rest := by
  cases s with
  | group place key role =>
    cases place with
    | resourceGroup name =>
      refine ⟨"-" ++ name ++ "/" ++ key ++ "-" ++ role, ?_⟩
      simp only [Source.key, Place.keyPrefix, tier, Place.tier, String.append_assoc]
    | _ =>
      refine ⟨"-" ++ key ++ "-" ++ role, ?_⟩
      simp only [Source.key, Place.keyPrefix, tier, Place.tier, String.append_assoc]
  | principal name label grant =>
    refine ⟨"-" ++ name ++ "/" ++ label, ?_⟩
    simp only [Source.key, tier, String.append_assoc]

/-- Sources of different tiers have different keys. -/
theorem tier_eq_of_key_eq {s t : Source} (h : s.key = t.key) : s.tier = t.tier := by
  obtain ⟨x, hx⟩ := exists_key_eq s
  obtain ⟨y, hy⟩ := exists_key_eq t
  have hl : ∀ u : Tier, 2 ≤ u.name.toList.length := by
    intro u
    cases u <;> decide
  have ht : (s.tier.name.toList ++ x.toList).take 2 = (t.tier.name.toList ++ y.toList).take 2 := by
    rw [← String.toList_append, ← String.toList_append, ← hx, ← hy, h]
  rw [List.take_append_of_le_length (hl _), List.take_append_of_le_length (hl _)] at ht
  exact tier_eq_of_take_eq ht

/-! ## Keys of one tier -/

section SameTier

variable {p q : Place} {g k a b name name' label label' : String} {grant grant' : Grant}

/-- A group and a service principal have different keys. -/
theorem key_group_ne_principal : (group p g a).key ≠ (principal name label grant).key := by
  intro h
  have ht := tier_eq_of_key_eq h
  cases p <;> cases ht

/-- Grants of service principals have the same key exactly when they have one name and one label. -/
theorem key_principal_eq_iff (h : (principal name label grant).IsSeparable)
    (h' : (principal name' label' grant').IsSeparable) :
    (principal name label grant).key = (principal name' label' grant').key ↔ name = name' ∧ label = label' := by
  have hs : ∀ n l g, (principal n l g).key = (Tier.servicePrincipal.name ++ "-") ++ (n ++ "/" ++ l) := fun n l g => by
    simp only [Source.key, String.append_assoc]
  rw [hs, hs, String.append_right_inj, append_slash_inj h h']

/-- What stands behind the prefix of a place is joined by a hyphen. -/
theorem key_group : (group p g a).key = p.keyPrefix ++ (g ++ "-" ++ a) := by
  simp only [Source.key, String.append_assoc]

theorem key_group_same_place : (group p g a).key = (group p k b).key ↔ g ++ "-" ++ a = k ++ "-" ++ b := by
  rw [key_group, key_group, String.append_right_inj]

/-- Groups have the same key exactly at one place, if the group and its role are joined to the same text. -/
theorem key_group_eq_iff (h : (group p g a).IsSeparable) (h' : (group q k b).IsSeparable) :
    (group p g a).key = (group q k b).key ↔ p = q ∧ g ++ "-" ++ a = k ++ "-" ++ b := by
  constructor
  · intro hk
    have ht : p.tier = q.tier := tier_eq_of_key_eq hk
    have hp : p = q := by
      cases p with
      | resourceGroup n =>
        cases q with
        | resourceGroup n' =>
          have hs : ∀ n g a, (group (.resourceGroup n) g a).key =
              (Tier.resourceGroup.name ++ "-") ++ (n ++ "/" ++ (g ++ "-" ++ a)) := fun n g a => by
            simp only [Source.key, Place.keyPrefix, String.append_assoc]
          rw [hs, hs, String.append_right_inj, append_slash_inj h h'] at hk
          rw [hk.1]
        | _ => cases ht
      | _ => cases q <;> first | rfl | cases ht
    subst hp
    exact ⟨rfl, key_group_same_place.1 hk⟩
  · rintro ⟨rfl, hj⟩
    exact key_group_same_place.2 hj

end SameTier

end Source

end AccessPlan
