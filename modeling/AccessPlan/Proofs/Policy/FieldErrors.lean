import AccessPlan.Proofs.Collection.Distinct
import AccessPlan.Proofs.Policy.Refusal
import AccessPlan.Proofs.Schema.Fitting

/-!
# The report of a refused configuration

A configuration that is refused for faults of its fields is reported with one entry for every text of a place, in the
order in which the faults come, and with the message of the last fault there (`Reports`). That is one entry for every
place exactly as long as no two places have one text. Two places of a configuration have one text only if they part at
two of its names, of which one continues the other one by a dot (`faults_reported`). With a resource group `a` that has
no name, and another one that is called `a.name` and is no record, both faults share an entry
(`places_share_entry`).
-/

namespace AccessPlan

open Schema (Checked Fault Form Origin Part PartsAtDot Trail placeText)

/-! ## Entries of faults -/

/-- The entries are named by the texts of the places, each at its first fault. -/
theorem names_fieldErrors (faults : List Fault) :
    (fieldErrors faults).map (·.1) = (faults.map Fault.location).eraseDups := by
  induction faults using List.reverseRecOn with
  | nil => rfl
  | append_singleton faults f ih =>
    rw [fieldErrors, List.foldl_append, ← fieldErrors, List.map_append, List.map_singleton, eraseDups_concat]
    simp only [List.foldl_cons, List.foldl_nil, names_withEntry, ih, List.mem_eraseDups]

theorem fieldErrors_ne_nil {faults : List Fault} (h : faults ≠ []) : fieldErrors faults ≠ [] := by
  obtain ⟨f, hf⟩ := List.exists_mem_of_ne_nil faults h
  have hlocation : f.location ∈ (fieldErrors faults).map (·.1) := by
    rw [names_fieldErrors]
    exact List.mem_eraseDups.2 (List.mem_map_of_mem hf)
  exact fun hnil => by rw [hnil] at hlocation; cases hlocation

/-- An entry has the message of the last fault at a place of its text. -/
theorem lookup_fieldErrors (faults : List Fault) (text : String) : (fieldErrors faults).lookup text =
    ((faults.filter fun f => f.location = text).getLast?).map fun f => f.cause.message := by
  induction faults using List.reverseRecOn with
  | nil => rfl
  | append_singleton faults f ih =>
    rw [fieldErrors, List.foldl_append, ← fieldErrors, List.filter_append]
    simp only [List.foldl_cons, List.foldl_nil, lookup_withEntry, ih]
    by_cases h : text = f.location
    · subst h
      simp
    · simp [h, Ne.symm h]

/-! ## Reports -/

/-- The different places of faults, each where it comes first. -/
def faultPlaces (faults : List Fault) : List Trail := (faults.map Fault.place).eraseDups

/-- Faults at different places have different texts of their places. -/
def AreSeparated (faults : List Fault) : Prop := ∀ f ∈ faults, ∀ g ∈ faults, f.location = g.location → f.place = g.place

/-- The report has one entry for every text of a place, with the message of the last fault there, and tells the number
of the entries. -/
structure ErrorReport.Reports (r : ErrorReport) (faults : List Fault) (entries : List (String × String)) : Prop where
  kind : r.kind = .config
  message : r.message = s!"Invalid policy configuration ({entries.length} errors)"
  details : r.details = .obj [("field_errors", .obj (entries.map fun e => (e.1, .str e.2)))]
  names : entries.map (·.1) = (faults.map Fault.location).eraseDups
  last (text : String) : entries.lookup text =
    ((faults.filter fun f => f.location = text).getLast?).map fun f => f.cause.message

theorem reports_fieldErrors (faults : List Fault) :
    (ConfigCause.invalidFields faults).report.Reports faults (fieldErrors faults) where
  kind := rfl
  message := rfl
  details := rfl
  names := names_fieldErrors faults
  last := lookup_fieldErrors faults

section Separated

variable {faults : List Fault}

theorem map_location (faults : List Fault) : faults.map Fault.location = (faults.map Fault.place).map placeText := by
  rw [List.map_map]
  exact List.map_congr_left fun f _ => f.location_eq

theorem areSeparated_iff : AreSeparated faults ↔
    ∀ p ∈ faults.map Fault.place, ∀ q ∈ faults.map Fault.place, placeText p = placeText q → p = q := by
  simp only [AreSeparated, Fault.location_eq, List.forall_mem_map]

/-- There are as many entries as places exactly if no two places share an entry. -/
theorem length_fieldErrors_eq_iff :
    (fieldErrors faults).length = (faultPlaces faults).length ↔ AreSeparated faults := by
  have hlength : (fieldErrors faults).length = ((fieldErrors faults).map (·.1)).length := (List.length_map _).symm
  rw [hlength, names_fieldErrors, map_location, faultPlaces, length_eraseDups_map_eq_iff, areSeparated_iff]

/-- If no two places share an entry, every place has its own. -/
theorem AreSeparated.names_eq (h : AreSeparated faults) :
    (fieldErrors faults).map (·.1) = (faultPlaces faults).map placeText := by
  rw [names_fieldErrors, map_location, faultPlaces, eraseDups_map (areSeparated_iff.1 h)]

end Separated

/-! ## Forms of configurations -/

section Forms

variable {origin : Origin}

open Schema.Reader

def Grant.form : Form := .record [("scope", .simple), ("role", .simple)]

theorem Grant.fits : (Grant.read origin).Fits Grant.form :=
  .record fun _ => ((simple_textOf.fits.required rfl).map _).seq (simple_textOf.fits.required rfl)

def PrincipalDefinition.form : Form := .record [("display_name", .simple), ("description", .simple),
  ("owners", .list .simple), ("roles", .map Grant.form), ("tags", .list .simple), ("rotation_days", .simple)]

theorem PrincipalDefinition.fits : (PrincipalDefinition.read origin).Fits PrincipalDefinition.form :=
  .record fun _ => ((simple_textOf.fits.required rfl).map _).seq (simple_text.fits.withDefault rfl)
    |>.seq (fits_texts.withDefault rfl)
    |>.seq (Grant.fits.mapOf.withDefault rfl)
    |>.seq (fits_texts.withDefault rfl)
    |>.seq (simple_integer.fits.optional rfl)

def ResourceGroup.form : Form := .record [("id", .simple), ("name", .simple), ("environment", .simple),
  ("resource_types", .list .simple), ("criticality_level", .simple)]

theorem ResourceGroup.fits : (ResourceGroup.read origin).Fits ResourceGroup.form :=
  .record fun _ => ((simple_textOf.fits.required rfl).map _).seq (simple_textOf.fits.required rfl)
    |>.seq (simple_text.fits.required rfl)
    |>.seq (fits_texts.withDefault rfl)
    |>.seq (simple_member.fits.withDefault rfl)

def CustomRole.form : Form := .record [("description", .simple), ("actions", .list .simple),
  ("not_actions", .list .simple), ("data_actions", .list .simple), ("not_data_actions", .list .simple)]

theorem CustomRole.fits : (CustomRole.read origin).Fits CustomRole.form :=
  have hpermissions : CustomRole.permissions.Fits (.list .simple) := fits_texts.map _
  .record fun _ => ((simple_text.fits.withDefault rfl).map _).seq (hpermissions.withDefault rfl)
    |>.seq (hpermissions.withDefault rfl)
    |>.seq (hpermissions.withDefault rfl)
    |>.seq (hpermissions.withDefault rfl)

def RoleTable.form : Form := .map (.map (.list .simple))

theorem RoleTable.fits : RoleTable.read.Fits RoleTable.form :=
  ((Fits.entries simple_member.fits fits_texts).map _).mapOf

end Forms

namespace PolicyConfig

open Schema.Reader

variable {origin : Origin}

/-- The fields of a configuration with their forms. -/
def fieldForms : List (String × Form) := [
  ("org_prefix", .simple),
  ("environments", .list .simple),
  ("projects", .list .simple),
  ("enable_project_groups", .simple),
  ("owners", .list .simple),
  ("resource_groups", .map ResourceGroup.form),
  ("service_principals", .map PrincipalDefinition.form),
  ("enable_management_group_assignments", .simple),
  ("enable_tenant_assignments", .simple),
  ("enable_subscription_assignments", .simple),
  ("enable_resource_group_assignments", .simple),
  ("management_group_name", .simple),
  ("tenant_id", .simple),
  ("environment_role_tables", RoleTable.form),
  ("resource_type_role_tables", RoleTable.form),
  ("environment_role_overrides", RoleTable.form),
  ("resource_type_role_overrides", RoleTable.form),
  ("custom_roles", .map CustomRole.form)]

theorem fits_orgPrefixField : orgPrefixField.Fits .simple := simple_text.fits.andThen fun _ _ hP => by
  split
  · exact Checked.failsAt_ok
  · exact Checked.failsAt_fault hP

theorem fits_ownersField : ownersField.Fits (.list .simple) := simple_text.fits.listOfLeast.andThen fun _ _ hP => by
  split
  · exact Checked.failsAt_fault hP
  · exact Checked.failsAt_ok

theorem fits_segmentMap {α : Type} {read : Schema.Reader α} {form : Form} (h : read.Fits form) :
    (segmentMap read).Fits (.map form) := (Fits.entries fits_text h).andThen fun es P hP => by
  unfold keySegments
  split
  · exact Checked.failsAt_fault hP
  · exact Checked.failsAt_ok

/-- All faults of a configuration are at places of its form. -/
theorem fits_read : (PolicyConfig.read origin).Fits (.record fieldForms) :=
  .record fun _ => ((fits_orgPrefixField.required rfl).map _).seq (simple_text.fits.listOfLeast.required rfl)
    |>.seq (fits_texts.withDefault rfl)
    |>.seq (simple_switch.fits.withDefault rfl)
    |>.seq (fits_ownersField.required rfl)
    |>.seq ((fits_segmentMap ResourceGroup.fits).optional rfl)
    |>.seq ((fits_segmentMap PrincipalDefinition.fits).withDefault rfl)
    |>.seq (simple_switch.fits.withDefault rfl)
    |>.seq (simple_switch.fits.withDefault rfl)
    |>.seq (simple_switch.fits.withDefault rfl)
    |>.seq (simple_switch.fits.withDefault rfl)
    |>.seq (simple_text.fits.optional rfl)
    |>.seq (simple_text.fits.optional rfl)
    |>.seq (RoleTable.fits.optional rfl)
    |>.seq (RoleTable.fits.optional rfl)
    |>.seq (RoleTable.fits.optional rfl)
    |>.seq (RoleTable.fits.optional rfl)
    |>.seq (CustomRole.fits.mapOf.withDefault rfl)

/-! ## Reports on configurations -/

/-- What a configuration is refused with for the given faults. -/
structure ReportsFaults (j : Json) (faults : List Fault) : Prop where
  /-- It is an error of the configuration, unless a reason holds half of a surrogate pair. -/
  raised : ofJson j = .error (.config (.invalidFields faults)) ↔ ¬ HasBrokenNames j
  report : (ConfigCause.invalidFields faults).report.Reports faults (fieldErrors faults)
  nonempty : fieldErrors faults ≠ []
  /-- There are as many entries as places exactly if no two places share an entry. -/
  counted : (fieldErrors faults).length = (faultPlaces faults).length ↔ AreSeparated faults
  /-- If no two places share an entry, the entries are those of the places, one by one. -/
  named : AreSeparated faults → (fieldErrors faults).map (·.1) = (faultPlaces faults).map placeText
  /-- Places that share an entry part at two names of the configuration. -/
  parted : ∀ f ∈ faults, ∀ g ∈ faults, f.location = g.location → f.place = g.place ∨ Part j j f.place g.place
  /-- No two places share an entry if no name of the configuration continues another one by a dot. -/
  separated : (∀ n m, j.HasName n → j.HasName m → ¬ PartsAtDot (Text.withoutHalves n) (Text.withoutHalves m)) →
    AreSeparated faults

variable {j : Json} {faults : List Fault}

theorem ofJson_eq_iff (h : PolicyConfig.read .document j = .faulty faults) :
    ofJson j = .error (.config (.invalidFields faults)) ↔ ¬ HasBrokenNames j := by
  rw [← halves?_read, ofJson, h, Checked.toExcept, Checked.halves?, Failure.ofFaults]
  cases Schema.loneHalves? faults with
  | none => simp
  | some halves => simp [Failure.config]

/-- A configuration with faults is refused with an error that lists them. Two places share an entry of the list only
if they part at two names of the configuration, of which one continues the other one by a dot. -/
theorem faults_reported (h : PolicyConfig.read .document j = .faulty faults) : ReportsFaults j faults := by
  obtain ⟨hne, hplaces⟩ := fits_read j faults h
  have hparted : ∀ f ∈ faults, ∀ g ∈ faults, f.location = g.location →
      f.place = g.place ∨ Part j j f.place g.place := fun f hf g hg htext => by
    rw [Fault.location_eq, Fault.location_eq] at htext
    exact (hplaces f hf).part_of_placeText_eq rfl (hplaces g hg) htext
  refine ⟨ofJson_eq_iff h, reports_fieldErrors faults, fieldErrors_ne_nil hne, length_fieldErrors_eq_iff,
    AreSeparated.names_eq, hparted, fun hnames f hf g hg htext => ?_⟩
  rcases hparted f hf g hg htext with heq | ⟨_, n, m, _, _, -, -, hn, hm, hdot⟩
  · exact heq
  · exact absurd hdot (hnames n m hn hm)

/-- A configuration with an environment that is no text, and a resource group without a name. -/
def faultyJson : Json := .obj [
  ("org_prefix", .str "acme"),
  ("environments", .arr [.str "dev", .int 5]),
  ("owners", .arr [.str "owner"]),
  ("resource_groups", .obj [("a", .obj [("id", .str "i"), ("environment", .str "dev")])])]

def faultyJsonFaults : List Fault := [
  ⟨[.field "environments", .item 1], .notText⟩,
  ⟨[.field "resource_groups", .field "a", .field "name"], .missing⟩]

theorem faults_reported_faultyJson : PolicyConfig.read .document faultyJson = .faulty faultyJsonFaults ∧
    ReportsFaults faultyJson faultyJsonFaults ∧ AreSeparated faultyJsonFaults ∧ fieldErrors faultyJsonFaults =
      [("environments.1", "Input should be a valid string"), ("resource_groups.a.name", "Field required")] := by
  have hreports : ReportsFaults faultyJson faultyJsonFaults := faults_reported rfl
  exact ⟨rfl, hreports, hreports.counted.1 (by decide +kernel), by decide +kernel⟩

/-- A resource group without a name, and one that is no record. -/
def sharedJson : Json := .obj [
  ("org_prefix", .str "acme"),
  ("environments", .arr [.str "dev"]),
  ("owners", .arr [.str "owner"]),
  ("resource_groups", .obj [("a", .obj [("id", .str "i"), ("environment", .str "dev")]), ("a.name", .int 5)])]

/-- Two faults at different places share an entry, and the message counts one. -/
theorem places_share_entry : ∃ faults, PolicyConfig.read .document sharedJson = .faulty faults ∧
    ofJson sharedJson = .error (.config (.invalidFields faults)) ∧ (faultPlaces faults).length = 2 ∧
    (fieldErrors faults).length = 1 ∧ ¬ AreSeparated faults := by
  refine ⟨[⟨[.field "resource_groups", .field "a", .field "name"], .missing⟩,
    ⟨[.field "resource_groups", .field "a.name"], .notRecord "ResourceGroupConfig"⟩], rfl, rfl, by decide +kernel,
    by decide +kernel, ?_⟩
  rw [← length_fieldErrors_eq_iff]
  decide +kernel

end PolicyConfig

end AccessPlan
