import AccessPlan.Proofs.Json.RoundTrip
import AccessPlan.Proofs.Policy.Difference
import AccessPlan.Service.Api

/-!
# Differences that are sent

A request whose body holds two documents is read as the policies of the documents (`Service.readBody_diff`) and answered
with their difference (`Service.handle_diff`). The answer goes out exactly if every key that the difference lists can be
encoded (`Service.sent_diffed`). The text of two documents is such a body (`Service.holdsDocuments_text`).
-/

namespace AccessPlan

namespace PolicyDiff

/-- The difference can be sent: no key that it lists has half of a surrogate pair. -/
def IsWhole (d : PolicyDiff) : Prop := ∀ kind k, (d.changes kind).Lists k → Text.isWhole k = true

theorem textsOfItems_str (xs : List String) : Json.textsOfItems (xs.map .str) = xs := by
  induction xs with
  | nil => rfl
  | cons x xs ih =>
    rw [List.map_cons, Json.textsOfItems, ih]
    rfl

theorem mem_textsOfFields {fs : List (String × Json)} {s : String} :
    s ∈ Json.textsOfFields fs ↔ ∃ f ∈ fs, s ∈ f.2.allTexts := by
  induction fs with
  | nil => simp [Json.textsOfFields]
  | cons f fs ih =>
    rw [Json.textsOfFields, List.mem_append, ih]
    simp

/-- The texts of the answer are the keys that the difference lists. -/
theorem mem_allTexts {d : PolicyDiff} {k : String} :
    k ∈ (Json.obj [("changes", d.changesJson)]).allTexts ↔ ∃ kind, (d.changes kind).Lists k := by
  have hdiff : ∀ e : EntityDiff, k ∈ e.toJson.allTexts ↔ e.Lists k := fun e => by
    simp [EntityDiff.toJson, Json.allTexts, Json.textsOfFields, Json.ofTexts, textsOfItems_str, EntityDiff.Lists]
  have hkind : ∀ kind, kind ∈ EntityKind.all := fun kind => by cases kind <;> decide
  simp only [changesJson, Json.allTexts, Json.textsOfFields, List.append_nil, mem_textsOfFields, List.mem_map, hkind,
    true_and]
  constructor
  · rintro ⟨_, ⟨kind, rfl⟩, hk⟩
    exact ⟨kind, (hdiff _).1 hk⟩
  · rintro ⟨kind, hk⟩
    exact ⟨_, ⟨kind, rfl⟩, (hdiff _).2 hk⟩

theorem firstHalves?_eq_none {d : PolicyDiff} :
    Service.firstHalves? (.obj [("changes", d.changesJson)]) = none ↔ d.IsWhole := by
  rw [Service.firstHalves?, List.findSome?_eq_none_iff]
  simp only [mem_allTexts, Text.loneHalves?_eq_none, IsWhole]
  exact ⟨fun h kind k hk => h k ⟨kind, hk⟩, fun h k ⟨kind, hk⟩ => h kind k hk⟩

end PolicyDiff

namespace Service

/-- A difference that was asked for is answered, unless a key that it lists cannot be encoded. -/
theorem handle_diff {settings : Settings} {tally : Tally} {body : String} {b : DiffBody}
    (hb : readBody DiffBody.read body = .ok b) :
    (handle settings tally ⟨"POST", "/policy/diff", body⟩).1 = sent (.ok (diffed b)) := by
  have hroute : Route.ofPath? (pathOf "/policy/diff") = some .diff := by decide +kernel
  have hmethod : Route.diff.method = "POST" := rfl
  simp only [handle, respond, hroute, hmethod, if_true, serve, hb]
  rfl

theorem readBody_eq_ok {α : Type} {read : Schema.Reader α} {body : String} {j : Json} {a : α}
    (hb : Json.readBody body = some (.ok j)) (ha : read j = .ok a) : readBody read body = .ok a := by
  have hne : body ≠ "" := by
    rintro rfl
    have hempty : (Json.readBody "").map Except.isOk = some false := by decide +kernel
    rw [hb] at hempty
    cases hempty
  rw [readBody, if_neg hne, hb]
  simp only [ha, Schema.Checked.toExcept]

/-- An answer with a difference goes out if all of its keys can be encoded, and fails otherwise. -/
theorem sent_diffed (b : DiffBody) :
    ((PolicyDiff.between b.previous b.current).IsWhole → sent (.ok (diffed b)) = .ok (.ok (diffed b))) ∧
      (¬ (PolicyDiff.between b.previous b.current).IsWhole →
        ∃ halves, sent (.ok (diffed b)) = .error (.unwritable halves)) := by
  have hstatus : (Response.ok (diffed b)).status = 200 := rfl
  have hbody : firstHalves? (Response.ok (diffed b)).body = none ↔
      (PolicyDiff.between b.previous b.current).IsWhole := PolicyDiff.firstHalves?_eq_none
  rw [← hbody, sent, if_pos hstatus]
  cases firstHalves? (Response.ok (diffed b)).body with
  | none => exact ⟨fun _ => rfl, fun h => absurd rfl h⟩
  | some halves => exact ⟨nofun, fun _ => ⟨halves, rfl⟩⟩

/-- The body of a request holds two documents that are to be compared. -/
def HoldsDocuments (body : String) (previous current : Json) : Prop :=
  ∃ fields, Json.readBody body = some (.ok (.obj fields)) ∧ Json.lookup "previous" fields = some previous ∧
    Json.lookup "current" fields = some current

/-- Two documents that are to be compared as one value. -/
def documents (previous current : Json) : Json := .obj [("previous", previous), ("current", current)]

variable {previous current : Json}

/-- A body of two documents is read as the policies that they show. -/
theorem readBody_diff {p q : ResolvedPolicy} {body : String} (hb : HoldsDocuments body previous current)
    (hp : ResolvedPolicy.read .request previous = .ok p) (hq : ResolvedPolicy.read .request current = .ok q) :
    readBody DiffBody.read body = .ok ⟨p, q⟩ := by
  obtain ⟨fields, hbody, hprevious, hcurrent⟩ := hb
  refine readBody_eq_ok hbody ?_
  have hprevious : (Json.obj fields).field? "previous" = some previous := hprevious
  have hcurrent : (Json.obj fields).field? "current" = some current := hcurrent
  change DiffBody.mk <$> Schema.Reader.required "previous" _ (.obj fields) <*> _ = _
  rw [Schema.Reader.required_ok hprevious hp, Schema.Reader.required_ok hcurrent hq]
  rfl

/-- The text of two documents is a body that holds them if every character in it stands for itself. -/
theorem holdsDocuments_text (hp : previous.IsSimple 963) (hc : current.IsSimple 963)
    (hm : ∀ c ∈ (documents previous current).chars, c ≠ Text.mark) :
    HoldsDocuments (documents previous current).text previous current := by
  have hsimple : (documents previous current).IsSimple Json.deepestBody :=
    Json.isSimple_obj_iff.2 ⟨by simp, by simp [hp, hc]⟩
  exact ⟨_, Json.readBody_text hsimple hm, rfl, rfl⟩

end Service

end AccessPlan
