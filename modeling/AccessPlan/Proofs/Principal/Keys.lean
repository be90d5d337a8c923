import AccessPlan.Policy.Document
import AccessPlan.Proofs.Principal.Issuing
import Mathlib.Data.List.Nodup

/-!
# The keys of service principals

All records that a definition is expanded to have keys that are made of its name (`keys_ofDefinition`,
`isKeyOf_of_mem_keys`). If no slash stands in the name, a key tells it (`name_eq_of_isKeyOf`), so the records of
different names have different keys.
-/

namespace AccessPlan

/-- A key of a record of a kind is made of the name of a service principal. -/
def IsKeyOf (name : String) : EntityKind → String → Prop
  | .applications, k => k = "application-" ++ name
  | .servicePrincipals, k => k = "service-principal-" ++ name
  | .ownerEdges, k => ∃ owner, k = "service-principal-" ++ name ++ "/" ++ owner
  | .credentials, k => k = "credential-" ++ name
  | .assignments, k => ∃ label, k = "service_principal-" ++ name ++ "/" ++ label
  | _, _ => False

namespace PrincipalDefinition

/-- The owners of a definition, or the default ones if it has none, in ascending order. -/
def ownersOr (d : PrincipalDefinition) (owners : List String) : List String :=
  sortedUnique (if d.owners.isEmpty then owners else d.owners)

/-- The keys of the records of a definition. It has none of the other kinds. -/
def keys (d : PrincipalDefinition) (owners : List String) (name : String) : EntityKind → List String
  | .applications => ["application-" ++ name]
  | .servicePrincipals => ["service-principal-" ++ name]
  | .ownerEdges => (d.ownersOr owners).map fun owner => "service-principal-" ++ name ++ "/" ++ owner
  | .credentials => ["credential-" ++ name]
  | .assignments => d.roles.names.map fun label => "service_principal-" ++ name ++ "/" ++ label
  | _ => []

section Keys

variable {d : PrincipalDefinition} {owners : List String} {name name' k : String} {kind : EntityKind}

theorem isKeyOf_of_mem_keys (h : k ∈ d.keys owners name kind) : IsKeyOf name kind k := by
  have hmany : ∀ {pre : String} {xs : List String}, k ∈ xs.map (fun x => pre ++ name ++ "/" ++ x) →
      ∃ x, k = pre ++ name ++ "/" ++ x := fun h => by
    obtain ⟨x, -, rfl⟩ := List.mem_map.1 h
    exact ⟨x, rfl⟩
  cases kind with
  | applications => exact List.mem_singleton.1 h
  | servicePrincipals => exact List.mem_singleton.1 h
  | credentials => exact List.mem_singleton.1 h
  | ownerEdges => exact hmany h
  | assignments => exact hmany h
  | _ => cases h

/-- A key tells the name that it is made of. -/
theorem name_eq_of_isKeyOf (hn : '/' ∉ name.toList) (hn' : '/' ∉ name'.toList) (h : IsKeyOf name kind k)
    (h' : IsKeyOf name' kind k) : name = name' := by
  have hone : ∀ {pre : String}, k = pre ++ name → k = pre ++ name' → name = name' := fun h h' =>
    (String.append_right_inj _).1 (h.symm.trans h')
  have hmany : ∀ {pre : String}, (∃ x, k = pre ++ name ++ "/" ++ x) → (∃ y, k = pre ++ name' ++ "/" ++ y) →
      name = name' := fun h h' => by
    obtain ⟨x, rfl⟩ := h
    obtain ⟨y, he⟩ := h'
    simp only [String.append_assoc, String.append_right_inj] at he
    simp only [← String.append_assoc] at he
    exact ((append_slash_inj hn hn').1 he).1
  cases kind with
  | applications => exact hone h h'
  | servicePrincipals => exact hone h h'
  | credentials => exact hone h h'
  | ownerEdges => exact hmany h h'
  | assignments => exact hmany h h'
  | _ => cases h

/-- No key of a definition occurs twice. -/
theorem nodup_keys : (d.keys owners name kind).Nodup := by
  have hmany : ∀ {pre : String} {xs : List String}, xs.Nodup → (xs.map fun x => pre ++ name ++ "/" ++ x).Nodup :=
    fun h => h.map fun _ _ he => (String.append_right_inj _).1 he
  cases kind with
  | ownerEdges => exact hmany ((pairwise_sortedUnique _).imp String.ne_of_lt)
  | assignments => exact hmany (NameMap.nodup_names _)
  | applications => exact List.nodup_singleton _
  | servicePrincipals => exact List.nodup_singleton _
  | credentials => exact List.nodup_singleton _
  | _ => exact .nil

end Keys

end PrincipalDefinition

namespace PrincipalRecords

/-- The keys of the records of a service principal. -/
def keys (r : PrincipalRecords) : EntityKind → List String
  | .applications => [r.application.key]
  | .servicePrincipals => [r.principal.key]
  | .ownerEdges => r.ownerEdges.map OwnerEdge.key
  | .credentials => [r.credential.key]
  | .assignments => r.assignments.map Assignment.key
  | _ => []

variable {d : PrincipalDefinition} {c : Context} {name : String} {owners : List String} {r : PrincipalRecords}

theorem effectiveOwners_texts : effectiveOwners d (.ofTexts owners) = .ok (d.ownersOr owners) := by
  unfold effectiveOwners PrincipalDefinition.ownersOr
  cases d.owners.isEmpty with
  | true => exact ownersOf_texts _ _
  | false => rfl

/-- What a definition is expanded to, and how its credential was issued. -/
theorem exists_issued (ho : owners ≠ []) (h : ofDefinition c (.ofTexts owners) name d = .ok r) :
    ∃ credential, Credential.issue ("application-" ++ name) name c.now (.whole (rotationDaysOf d c)) = .ok credential ∧
      r = ofParts d name (d.ownersOr owners) credential ((d.sources name).map (·.assignment fun _ => .tenant "")) := by
  have hr := ((exists_ofDefinition_iff ho).1 ⟨r, h⟩).rotation
  obtain ⟨os, hos, hne⟩ := exists_effectiveOwners (d := d) ho
  obtain rfl := Except.ok.inj (effectiveOwners_texts.symm.trans hos)
  simp only [ofDefinition_of_rotation hr hos hne, bind_eq_ok] at h
  obtain ⟨cr, hcr, as, has, hp⟩ := h
  obtain ⟨-, rfl⟩ := (grants_eq_ok_iff (s := fun _ => .tenant "")).1 has
  exact ⟨cr, hcr, (Except.ok.inj hp).symm⟩

/-- What a definition is expanded to. -/
theorem exists_parts (ho : owners ≠ []) (h : ofDefinition c (.ofTexts owners) name d = .ok r) :
    ∃ credential, credential.key = "credential-" ++ name ∧ credential.secret = none ∧
      r = ofParts d name (d.ownersOr owners) credential ((d.sources name).map (·.assignment fun _ => .tenant "")) := by
  obtain ⟨credential, hcr, hr⟩ := exists_issued ho h
  obtain ⟨endDate, keyId, -, -, rfl⟩ := issue_eq_ok_iff.1 hcr
  exact ⟨_, rfl, rfl, hr⟩

/-- The keys of the records of a definition. -/
theorem keys_ofDefinition (ho : owners ≠ []) (h : ofDefinition c (.ofTexts owners) name d = .ok r)
    (kind : EntityKind) : r.keys kind = d.keys owners name kind := by
  obtain ⟨credential, hk, -, rfl⟩ := exists_parts ho h
  cases kind with
  | credentials => exact congrArg (fun k => [k]) hk
  | ownerEdges => exact List.map_map
  | assignments =>
    simp only [keys, ofParts, PrincipalDefinition.keys, PrincipalDefinition.sources, NameMap.names, List.map_map]
    rfl
  | _ => rfl

end PrincipalRecords

end AccessPlan
