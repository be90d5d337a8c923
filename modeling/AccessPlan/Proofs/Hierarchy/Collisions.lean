import AccessPlan.Proofs.Hierarchy.Tree
import AccessPlan.Proofs.Text.Join

/-!
# When keys of groups collide

Keys are names joined by hyphens, and names may have hyphens of their own. A hierarchy is refused for its keys exactly
if an environment is named after the root, or the name of one continues that of another by a hyphen and a text that
`Clashes` describes (`exists_keyCollision_iff`). The prefix is part of every key and decides nothing.

Below an environment every group is one of a `Branch`: of a persona, or of a project of a persona. What its key has
behind the environment is the branch's text, which tells the branch (`Branch.text_injective`). So two keys can only be
the same across environments, where one text continues the other one (`clashes_iff`).
-/

namespace AccessPlan

/-! ## Clashing names -/

/-- What may not follow the name of an environment and a hyphen in the name of another one. -/
inductive Clashes (projects : List String) (projectGroups : Bool) : String → Prop
  /-- The longer name is that of the group of a persona. -/
  | persona (p : Persona) : Clashes projects projectGroups p.label
  /-- The technical members of the longer name are the non-technical ones of the shorter name. -/
  | non : Clashes projects projectGroups "non"
  /-- The longer name is that of the group of a project. -/
  | project {p : Persona} {q : String} (on : projectGroups = true) (hasProjects : p.hasProjects = true)
      (mem : q ∈ projects) : Clashes projects projectGroups (p.label ++ "-" ++ q)
  /-- A persona group of the longer name is the group of a project. -/
  | personaOfProject {p m : Persona} {q r : String} (on : projectGroups = true) (hasProjects : p.hasProjects = true)
      (mem : q ∈ projects) (joined : p.label ++ "-" ++ q = r ++ "-" ++ m.label) : Clashes projects projectGroups r
  /-- The group of a project of the longer name is the group of a project. -/
  | projects {p m : Persona} {q q' r : String} (on : projectGroups = true) (hasProjects : p.hasProjects = true)
      (hasProjects' : m.hasProjects = true) (mem : q ∈ projects) (mem' : q' ∈ projects)
      (joined : p.label ++ "-" ++ q = r ++ "-" ++ m.label ++ "-" ++ q') : Clashes projects projectGroups r

/-- Two groups of these names have the same key. -/
def HasClash (environments projects : List String) (projectGroups : Bool) : Prop :=
  "org" ∈ environments ∨ ∃ e ∈ environments, ∃ f ∈ environments, ∃ r,
    f = e ++ "-" ++ r ∧ Clashes projects projectGroups r

/-! ## Labels -/

theorem hyphen_assoc (s t u : String) : s ++ "-" ++ t ++ "-" ++ u = s ++ "-" ++ (t ++ "-" ++ u) := by
  simp only [String.append_assoc]

theorem toList_hyphen (s t : String) : (s ++ "-" ++ t).toList = s.toList ++ '-' :: t.toList := by simp

namespace Persona

variable {p r : Persona} {s t u : String}

theorem label_injective (h : p.label = r.label) : p = r := by
  cases p <;> cases r <;> first | rfl | exact absurd h (by decide)

/-- No label continues another one by a hyphen. -/
theorem label_ne_append : p.label ≠ r.label ++ "-" ++ s := by
  intro h
  have hnone : ∀ p r : Persona, ¬ (r.label.toList ++ ['-']) <+: p.label.toList := by decide
  refine hnone p r ⟨s.toList, ?_⟩
  rw [h, toList_hyphen, List.append_assoc]
  rfl

/-- No text that begins with a label begins with a hyphen. -/
theorem label_append_ne_hyphen : p.label ++ s ≠ "-" ++ t := by
  intro h
  have hstarts : ∀ p : Persona, p.label.toList ≠ [] ∧ p.label.toList.head? ≠ some '-' := by decide
  have hhead := congrArg (fun u => u.toList.head?) h
  simp only [String.toList_append, List.head?_append_of_ne_nil _ (hstarts p).1] at hhead
  exact (hstarts p).2 hhead

/-- Only one label ends in a hyphen and a label. -/
theorem eq_non_of_label (h : p.label = s ++ "-" ++ r.label) : s = "non" := by
  have hends : ∀ p r : Persona, ('-' :: r.label.toList) <:+ p.label.toList → p = .nonTechnical ∧ r = .technical := by
    decide
  obtain ⟨rfl, rfl⟩ := hends p r ⟨s.toList, by rw [h, toList_hyphen]⟩
  have hjoined : "non" ++ "-technical" = s ++ "-technical" := by
    rw [String.append_assoc] at h
    exact h
  exact ((String.append_left_inj _).1 hjoined).symm

/-- A label has no two hyphens. -/
theorem label_ne_append_append : p.label ≠ s ++ "-" ++ (t ++ "-" ++ u) := by
  intro h
  have hcount : ∀ p : Persona, p.label.toList.count '-' ≤ 1 := by decide
  have hle := hcount p
  rw [h, toList_hyphen, toList_hyphen, List.count_append, List.count_cons_self, List.count_append,
    List.count_cons_self] at hle
  omega

end Persona

/-! ## Branches -/

/-- What the groups below an environment are for. -/
inductive Branch where
  | persona (p : Persona)
  | project (p : Persona) (q : String)

namespace Branch

/-- What the key of a group has behind its environment. -/
def text : Branch → String
  | persona p => p.label
  | project p q => p.label ++ "-" ++ q

/-- The text of a branch tells it. -/
theorem text_injective {x y : Branch} (h : x.text = y.text) : x = y := by
  cases x with
  | persona p =>
    cases y with
    | persona r => rw [Persona.label_injective h]
    | project r q => exact absurd h Persona.label_ne_append
  | project p q =>
    cases y with
    | persona r => exact absurd h.symm Persona.label_ne_append
    | project r q' =>
      rcases hyphen_join_eq_iff.1 h with ⟨hp, rfl⟩ | ⟨s, hp, -⟩ | ⟨s, hp, -⟩
      · rw [Persona.label_injective hp]
      · exact absurd hp Persona.label_ne_append
      · exact absurd hp Persona.label_ne_append

end Branch

namespace Blueprint

variable {b : Blueprint} {g g' : Group}

/-- The branches below every environment. -/
def HasBranch (b : Blueprint) : Branch → Prop
  | .persona _ => True
  | .project p q => q ∈ b.projectsOf p

def branchGroup (b : Blueprint) (e : String) : Branch → Group
  | .persona p => b.personaGroup e p
  | .project p q => b.projectGroup e p q

theorem makes_branchGroup {e : String} {x : Branch} (he : e ∈ b.environments) (hx : b.HasBranch x) :
    b.Makes (b.branchGroup e x) := by
  cases x with
  | persona p => exact .persona he p
  | project p q => exact .project he hx

theorem environment_branchGroup (e : String) (x : Branch) : (b.branchGroup e x).environment = some e := by
  cases x <;> rfl

theorem level_branchGroup (e : String) (x : Branch) : (b.branchGroup e x).level ≠ .environment := by
  cases x <;> exact nofun

theorem key_branchGroup (e : String) (x : Branch) :
    (b.branchGroup e x).key = b.org ++ "-" ++ (e ++ "-" ++ x.text) := by
  cases x with
  | persona p => exact hyphen_assoc _ _ _
  | project p q =>
    show b.org ++ "-" ++ e ++ "-" ++ p.label ++ "-" ++ q = _
    rw [hyphen_assoc, hyphen_assoc]
    rfl

/-- The texts that clash are those of branches, and what one text has in front of another one. -/
theorem clashes_iff {r : String} : Clashes b.projects b.projectGroups r ↔
    ∃ x, b.HasBranch x ∧ (r = x.text ∨ ∃ y, b.HasBranch y ∧ x.text = r ++ "-" ++ y.text) := by
  constructor
  · intro h
    cases h with
    | persona p => exact ⟨.persona p, trivial, Or.inl rfl⟩
    | non => exact ⟨.persona .nonTechnical, trivial, Or.inr ⟨.persona .technical, trivial, rfl⟩⟩
    | project on hp hq => exact ⟨.project _ _, mem_projectsOf.2 ⟨⟨on, hp⟩, hq⟩, Or.inl rfl⟩
    | @personaOfProject p m q _ on hp hq hjoined =>
      exact ⟨.project p q, mem_projectsOf.2 ⟨⟨on, hp⟩, hq⟩, Or.inr ⟨.persona m, trivial, hjoined⟩⟩
    | @projects p m q q' _ on hp hm hq hq' hjoined =>
      exact ⟨.project p q, mem_projectsOf.2 ⟨⟨on, hp⟩, hq⟩,
        Or.inr ⟨.project m q', mem_projectsOf.2 ⟨⟨on, hm⟩, hq'⟩, hjoined.trans (hyphen_assoc _ _ _)⟩⟩
  · rintro ⟨x, hx, rfl | ⟨y, hy, hxy⟩⟩
    · cases x with
      | persona p => exact .persona p
      | project p q =>
        obtain ⟨⟨on, hp⟩, hq⟩ := mem_projectsOf.1 hx
        exact .project on hp hq
    · cases x with
      | persona p =>
        cases y with
        | persona m =>
          obtain rfl := Persona.eq_non_of_label hxy
          exact .non
        | project m q => exact absurd hxy Persona.label_ne_append_append
      | project p q =>
        obtain ⟨⟨on, hp⟩, hq⟩ := mem_projectsOf.1 hx
        cases y with
        | persona m => exact .personaOfProject on hp hq hxy
        | project m q' =>
          obtain ⟨⟨-, hm⟩, hq'⟩ := mem_projectsOf.1 hy
          exact .projects on hp hm hq hq' (hxy.trans (hyphen_assoc _ _ _).symm)

/-! ## Groups are different -/

theorem environment_of_mem {e : String} (h : g ∈ b.environmentGroups e) : g.environment = some e := by
  simp only [environmentGroups, List.mem_cons, List.mem_flatMap, mem_personaGroups_iff] at h
  rcases h with rfl | ⟨p, -, rfl | ⟨q, -, rfl⟩⟩ <;> rfl

theorem persona_of_mem {e : String} {p : Persona} (h : g ∈ b.personaGroups e p) : g.persona = some p := by
  rcases mem_personaGroups_iff.1 h with rfl | ⟨q, -, rfl⟩ <;> rfl

section Different

variable (hP : b.projects.Nodup)
include hP

theorem nodup_personaGroups (e : String) (p : Persona) : (b.personaGroups e p).Nodup := by
  have hprojects : (b.projectsOf p).Nodup := by
    unfold projectsOf
    split
    · exact hP
    · exact List.nodup_nil
  refine List.nodup_cons.2 ⟨fun hm => ?_, hprojects.map fun _ _ h => Option.some.inj (congrArg Group.project h)⟩
  obtain ⟨q, -, hq⟩ := List.mem_map.1 hm
  cases congrArg Group.level hq

theorem nodup_environmentGroups (e : String) : (b.environmentGroups e).Nodup := by
  refine List.nodup_cons.2 ⟨fun hm => ?_, List.nodup_flatMap.2 ⟨fun p _ => nodup_personaGroups hP e p, ?_⟩⟩
  · obtain ⟨p, -, hp⟩ := List.mem_flatMap.1 hm
    cases persona_of_mem hp
  · have hall : Persona.all.Nodup := by decide
    refine hall.imp fun {p p'} hne g hg hg' => hne ?_
    exact Option.some.inj ((persona_of_mem hg).symm.trans (persona_of_mem hg'))

/-- A blueprint makes every group once. -/
theorem nodup_groups (hE : b.environments.Nodup) : b.groups.Nodup := by
  refine List.nodup_cons.2 ⟨fun hm => ?_, List.nodup_flatMap.2 ⟨fun e _ => nodup_environmentGroups hP e, ?_⟩⟩
  · obtain ⟨e, -, he⟩ := List.mem_flatMap.1 hm
    cases environment_of_mem he
  · refine hE.imp fun {e e'} hne g hg hg' => hne ?_
    exact Option.some.inj ((environment_of_mem hg).symm.trans (environment_of_mem hg'))

end Different

/-! ## When the keys are different -/

/-- A group is the root, that of an environment, or one of a branch. -/
theorem Makes.cases_branch (h : b.Makes g) : g = b.rootGroup ∨ ∃ e ∈ b.environments, g = b.environmentGroup e ∨
    ∃ x, b.HasBranch x ∧ g = b.branchGroup e x := by
  cases h with
  | root => exact Or.inl rfl
  | environment he => exact Or.inr ⟨_, he, Or.inl rfl⟩
  | persona he p => exact Or.inr ⟨_, he, Or.inr ⟨.persona p, trivial, rfl⟩⟩
  | project he hq => exact Or.inr ⟨_, he, Or.inr ⟨.project _ _, hq, rfl⟩⟩

/-- The text behind the prefix is no join of two texts if the key is that of the root. -/
theorem org_ne_append {s t : String} : "org" ≠ s ++ "-" ++ t := by
  intro h
  have hm : '-' ∈ "org".toList := by
    rw [h, toList_hyphen]
    exact List.mem_append_right _ List.mem_cons_self
  exact absurd hm (by decide)

/-- Keys are different behind the prefix. -/
theorem rest_eq_of_key_eq {s t : String} (h : b.org ++ "-" ++ s = b.org ++ "-" ++ t) : s = t :=
  (String.append_right_inj _).1 h

section Pairs

variable {e f : String} {x y : Branch}

theorem hasClash_of_root (he : e ∈ b.environments) (hk : b.rootGroup.key = (b.environmentGroup e).key) :
    HasClash b.environments b.projects b.projectGroups := by
  obtain rfl : "org" = e := rest_eq_of_key_eq hk
  exact Or.inl he

theorem root_key_ne : b.rootGroup.key ≠ (b.branchGroup e x).key := by
  rw [key_branchGroup]
  exact fun hk => org_ne_append (rest_eq_of_key_eq hk)

theorem hasClash_of_environment (he : e ∈ b.environments) (hf : f ∈ b.environments) (hx : b.HasBranch x)
    (hk : (b.environmentGroup f).key = (b.branchGroup e x).key) :
    HasClash b.environments b.projects b.projectGroups := by
  rw [key_branchGroup] at hk
  exact Or.inr ⟨e, he, f, hf, x.text, rest_eq_of_key_eq hk, clashes_iff.2 ⟨x, hx, Or.inl rfl⟩⟩

/-- Groups of branches with the same key are the same, or one of their environments continues the other one. -/
theorem eq_or_hasClash_of_branch (he : e ∈ b.environments) (hf : f ∈ b.environments) (hx : b.HasBranch x)
    (hy : b.HasBranch y) (hk : (b.branchGroup e x).key = (b.branchGroup f y).key) :
    b.branchGroup e x = b.branchGroup f y ∨ HasClash b.environments b.projects b.projectGroups := by
  rw [key_branchGroup, key_branchGroup] at hk
  rcases hyphen_join_eq_iff.1 (rest_eq_of_key_eq hk) with ⟨rfl, htext⟩ | ⟨r, rfl, htext⟩ | ⟨r, rfl, htext⟩
  · rw [Branch.text_injective htext]
    exact Or.inl rfl
  · exact Or.inr (Or.inr ⟨e, he, _, hf, r, rfl, clashes_iff.2 ⟨x, hx, Or.inr ⟨y, hy, htext⟩⟩⟩)
  · exact Or.inr (Or.inr ⟨f, hf, _, he, r, rfl, clashes_iff.2 ⟨y, hy, Or.inr ⟨x, hx, htext⟩⟩⟩)

end Pairs

/-- If no names clash, a key tells its group. -/
theorem eq_of_key_eq_of_not_hasClash (hc : ¬ HasClash b.environments b.projects b.projectGroups) (h : b.Makes g)
    (h' : b.Makes g') (hk : g.key = g'.key) : g = g' := by
  rcases h.cases_branch with rfl | ⟨e, he, rfl | ⟨x, hx, rfl⟩⟩
  · rcases h'.cases_branch with rfl | ⟨f, hf, rfl | ⟨y, hy, rfl⟩⟩
    · rfl
    · exact absurd (hasClash_of_root hf hk) hc
    · exact absurd hk root_key_ne
  · rcases h'.cases_branch with rfl | ⟨f, hf, rfl | ⟨y, hy, rfl⟩⟩
    · exact absurd (hasClash_of_root he hk.symm) hc
    · rw [show e = f from rest_eq_of_key_eq hk]
    · exact absurd (hasClash_of_environment hf he hy hk) hc
  · rcases h'.cases_branch with rfl | ⟨f, hf, rfl | ⟨y, hy, rfl⟩⟩
    · exact absurd hk.symm root_key_ne
    · exact absurd (hasClash_of_environment he hf hx hk.symm) hc
    · exact (eq_or_hasClash_of_branch he hf hx hy hk).resolve_right hc

/-- If names clash, two groups have the same key. -/
theorem not_nodup_of_hasClash (hc : HasClash b.environments b.projects b.projectGroups) :
    ¬ (b.groups.map Group.key).Nodup := by
  intro hn
  rcases hc with horg | ⟨e, he, f, hf, r, rfl, hr⟩
  · cases congrArg Group.level (eq_of_key_eq hn .root (.environment horg) rfl)
  · obtain ⟨x, hx, rfl | ⟨y, hy, htext⟩⟩ := clashes_iff.1 hr
    · have hgroup := eq_of_key_eq hn (.environment hf) (makes_branchGroup he hx) (key_branchGroup e x).symm
      exact level_branchGroup e x (congrArg Group.level hgroup).symm
    · have hkey : (b.branchGroup e x).key = (b.branchGroup (e ++ "-" ++ r) y).key := by
        rw [key_branchGroup, key_branchGroup, htext, hyphen_assoc]
      have hgroup := congrArg Group.environment
        (eq_of_key_eq hn (makes_branchGroup he hx) (makes_branchGroup hf hy) hkey)
      rw [environment_branchGroup, environment_branchGroup] at hgroup
      exact ne_append_hyphen (Option.some.inj hgroup)

/-- The keys of a blueprint are different exactly if no names clash. -/
theorem nodup_keys_iff_not_hasClash (hE : b.environments.Nodup) (hP : b.projects.Nodup) :
    (b.groups.map Group.key).Nodup ↔ ¬ HasClash b.environments b.projects b.projectGroups := by
  refine ⟨fun hn hc => not_nodup_of_hasClash hc hn, fun hc => (nodup_groups hP hE).map_on ?_⟩
  intro g hg g' hg' hk
  exact eq_of_key_eq_of_not_hasClash hc (mem_groups_iff.1 hg) (mem_groups_iff.1 hg') hk

end Blueprint

/-! ## Hierarchies that are refused -/

section Build

variable {org : String} {environments projects owners : List String} {projectGroups : Bool}

theorem ofGroups_eq_error_iff {groups : List Group} :
    (∃ key, Hierarchy.ofGroups groups = .error (.keyCollision key)) ↔ ¬ (groups.map Group.key).Nodup := by
  rw [← firstRepeated_eq_none, Hierarchy.ofGroups]
  cases firstRepeated (groups.map Group.key) <;> simp

/-- What clashes among names clashes among more of them. -/
theorem Clashes.mono {projects' : List String} {r : String} (h : Clashes projects projectGroups r)
    (hsub : ∀ q ∈ projects, q ∈ projects') : Clashes projects' projectGroups r := by
  cases h with
  | persona p => exact .persona p
  | non => exact .non
  | project on hp hq => exact .project on hp (hsub _ hq)
  | personaOfProject on hp hq hjoined => exact .personaOfProject on hp (hsub _ hq) hjoined
  | projects on hp hm hq hq' hjoined => exact .projects on hp hm (hsub _ hq) (hsub _ hq') hjoined

/-- There is something behind the hyphen. -/
theorem Clashes.ne_empty {r : String} (h : Clashes projects projectGroups r) : r ≠ "" := by
  cases h with
  | persona p => cases p <;> decide
  | non => decide
  | project => simp
  | personaOfProject _ _ _ hjoined =>
    rintro rfl
    simp only [String.append_assoc, String.empty_append] at hjoined
    exact Persona.label_append_ne_hyphen hjoined
  | projects _ _ _ _ _ hjoined =>
    rintro rfl
    simp only [String.append_assoc, String.empty_append] at hjoined
    exact Persona.label_append_ne_hyphen hjoined

theorem HasClash.mono {environments' projects' : List String} (h : HasClash environments projects projectGroups)
    (he : ∀ e ∈ environments, e ∈ environments') (hq : ∀ q ∈ projects, q ∈ projects') :
    HasClash environments' projects' projectGroups := by
  rcases h with horg | ⟨e, hm, f, hm', r, hf, hr⟩
  · exact Or.inl (he _ horg)
  · exact Or.inr ⟨e, he e hm, f, he f hm', r, hf, hr.mono hq⟩

/-- The keys for texts are different exactly if no names clash, in whatever order they are given. -/
theorem nodup_keys_ofTexts_iff (hE : environments.Nodup) (hP : projects.Nodup) :
    ((Blueprint.ofTexts org environments projects projectGroups owners).groups.map Group.key).Nodup ↔
      ¬ HasClash environments projects projectGroups := by
  have hsorted := Blueprint.nodup_keys_iff_not_hasClash
    (b := Blueprint.ofTexts org environments projects projectGroups owners)
    ((sortedBy_perm id environments).nodup_iff.2 hE) ((sortedBy_perm id projects).nodup_iff.2 hP)
  rw [hsorted]
  refine not_congr ⟨fun h => h.mono ?_ ?_, fun h => h.mono ?_ ?_⟩
  · exact fun _ => mem_sortedBy.1
  · exact fun _ => mem_sortedBy.1
  · exact fun _ => mem_sortedBy.2
  · exact fun _ => mem_sortedBy.2

section Accepted

variable {s : String} {es ps : List String} (ho : checkPrefix (.str org) = .ok s) (hne : environments ≠ [])
  (hE : checkNames "environments" (environments.map .str) = .ok es)
  (hP : checkNames "projects" (projects.map .str) = .ok ps)
include ho hne hE hP

/-- Once the names are accepted, only the keys are left to check. -/
theorem build_of_accepted : Hierarchy.build (.str org) (.ofTexts environments) (.ofTexts projects) projectGroups
    (.ofTexts owners) = (Hierarchy.ofGroups (Blueprint.ofTexts org environments projects projectGroups
      owners).groups).mapError .config := by
  obtain ⟨-, rfl⟩ := checkPrefix_str.1 ho
  simp only [build_texts, Hierarchy.ofTexts, ho, if_neg hne, hE, hP, bind, Except.bind]
  rw [(checkNames_texts.1 hE).2, (checkNames_texts.1 hP).2]
  rfl

theorem exists_keyCollision_iff_hasClash : (∃ key, Hierarchy.build (.str org) (.ofTexts environments)
    (.ofTexts projects) projectGroups (.ofTexts owners) = .error (.config (.keyCollision key))) ↔
      HasClash environments projects projectGroups := by
  have hcollides : (∃ key, Hierarchy.ofGroups (Blueprint.ofTexts org environments projects projectGroups
      owners).groups = .error (.keyCollision key)) ↔ HasClash environments projects projectGroups := by
    rw [ofGroups_eq_error_iff, nodup_keys_ofTexts_iff (checkNames_texts.1 hE).1.nodup (checkNames_texts.1 hP).1.nodup,
      not_not]
  rw [build_of_accepted ho hne hE hP, ← hcollides]
  refine exists_congr fun key => ?_
  rw [mapError_eq_error]
  constructor
  · rintro ⟨cause, hcause, h⟩
    rw [hcause, PolicyError.config.inj (Failure.policy.inj h)]
  · intro h
    exact ⟨_, h, rfl⟩

/-- Once the names are accepted, a hierarchy is refused for its keys exactly if names clash. Otherwise it is built, so
it always is if no environment is named after the root and no name of one continues that of another one by a hyphen and
more text; what the prefix is does not matter. -/
theorem exists_keyCollision_iff :
    ((∃ key, Hierarchy.build (.str org) (.ofTexts environments) (.ofTexts projects) projectGroups (.ofTexts owners) =
        .error (.config (.keyCollision key))) ↔ HasClash environments projects projectGroups) ∧
      (¬ HasClash environments projects projectGroups → ∃ h, Hierarchy.build (.str org) (.ofTexts environments)
        (.ofTexts projects) projectGroups (.ofTexts owners) = .ok h) ∧
      ("org" ∉ environments → (∀ e ∈ environments, ∀ f ∈ environments, ∀ r, r ≠ "" → f ≠ e ++ "-" ++ r) →
        ∃ h, Hierarchy.build (.str org) (.ofTexts environments) (.ofTexts projects) projectGroups (.ofTexts owners) =
          .ok h) ∧
      ∀ org' s', checkPrefix (.str org') = .ok s' →
        ((∃ key, Hierarchy.build (.str org') (.ofTexts environments) (.ofTexts projects) projectGroups
            (.ofTexts owners) = .error (.config (.keyCollision key))) ↔
          ∃ key, Hierarchy.build (.str org) (.ofTexts environments) (.ofTexts projects) projectGroups
            (.ofTexts owners) = .error (.config (.keyCollision key))) := by
  have hbuilt : ¬ HasClash environments projects projectGroups → ∃ h, Hierarchy.build (.str org)
      (.ofTexts environments) (.ofTexts projects) projectGroups (.ofTexts owners) = .ok h := fun hc => by
    obtain ⟨hE, -⟩ := checkNames_texts.1 hE
    obtain ⟨hP, -⟩ := checkNames_texts.1 hP
    exact ⟨_, build_texts_eq_ok_iff.2 ⟨(checkPrefix_str.1 ho).1, hne, hE, hP,
      (nodup_keys_ofTexts_iff hE.nodup hP.nodup).2 hc, rfl⟩⟩
  refine ⟨exists_keyCollision_iff_hasClash ho hne hE hP, hbuilt, fun horg hnone => hbuilt ?_, fun org' s' ho' => ?_⟩
  · rintro (h | ⟨e, he, f, hf, r, hr, hclash⟩)
    · exact horg h
    · exact hnone e he f hf r hclash.ne_empty hr
  · rw [exists_keyCollision_iff_hasClash ho' hne hE hP, exists_keyCollision_iff_hasClash ho hne hE hP]

end Accepted

/-- The technical members of the second environment have the key of the non-technical ones of the first. -/
theorem exists_keyCollision_non : checkPrefix (.str "acme") = .ok "acme" ∧
    checkNames "environments" (["dev", "dev-non"].map .str) = .ok ["dev", "dev-non"] ∧
    checkNames "projects" (["web"].map .str) = .ok ["web"] ∧
    ∃ key, Hierarchy.build (.str "acme") (.ofTexts ["dev", "dev-non"]) (.ofTexts ["web"]) true (.ofTexts ["owner"]) =
      .error (.config (.keyCollision key)) := by
  have ho : checkPrefix (.str "acme") = .ok "acme" := checkPrefix_str.2 ⟨by decide +kernel, rfl⟩
  have hE : checkNames "environments" (["dev", "dev-non"].map .str) = .ok ["dev", "dev-non"] :=
    checkNames_texts.2 ⟨⟨by decide +kernel, by decide +kernel⟩, (sortedBy_of_pairwise (by decide)).symm⟩
  have hP : checkNames "projects" (["web"].map .str) = .ok ["web"] :=
    checkNames_texts.2 ⟨⟨by decide +kernel, by decide +kernel⟩, (sortedBy_of_pairwise (by decide)).symm⟩
  refine ⟨ho, hE, hP, (exists_keyCollision_iff ho (by decide) hE hP).1.2 (Or.inr ?_)⟩
  exact ⟨"dev", by decide, "dev-non", by decide, "non", by decide, .non⟩

end Build

end AccessPlan
