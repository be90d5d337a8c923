import AccessPlan.Proofs.Json.Sameness
import AccessPlan.Proofs.Text.Join
import AccessPlan.Schema.Fault
import Mathlib.Data.List.Basic

/-!
# Places of faults

A fault is reported at a place: the names and indices that lead from the whole value to the part that is wrong. Two
faults have one place exactly if they are reported at one location (`Fault.place_eq_iff`). Which places there are in a
value follows from its form and from its parts (`Form.IsPlace`).

The text of a place joins its steps by dots. A dot may stand in a name of a map, but neither in an index nor in the
name of a field of a record. So two places of one form that have one text part at two names of maps, and one of these
names continues the other one by a dot (`Form.IsPlace.parts`).
-/

namespace AccessPlan

/-- A name of an object inside of a value. -/
inductive Json.HasName (name : String) : Json → Prop
  | here {fields : List (String × Json)} {v : Json} : (name, v) ∈ fields → HasName name (.obj fields)
  | field {fields : List (String × Json)} {other : String} {v : Json} : (other, v) ∈ fields → HasName name v →
      HasName name (.obj fields)
  | item {items : List Json} {v : Json} : v ∈ items → HasName name v → HasName name (.arr items)

namespace Schema

open Text (withoutHalves isWhole)

/-! ## Places as they are reported -/

/-- A step as reports show it. -/
inductive ShownStep where
  | name (s : String)
  | index (i : Nat)
  deriving DecidableEq, Repr

/-- The steps to a part of a value as reports show them. -/
abbrev Trail := List ShownStep

def Step.shown : Step → ShownStep
  | item index => .index index
  | s => .name s.text

/-- The steps to the faulty part as reports show them. -/
def Fault.place (f : Fault) : Trail := f.path.map Step.shown

namespace ShownStep

def text : ShownStep → String
  | name s => s
  | index i => toString i

def toJson : ShownStep → Json
  | name s => .str s
  | index i => .int i

theorem toJson_injective : Function.Injective toJson := by
  rintro (a | a) (b | b) h
  · exact congrArg name (Json.str.inj h)
  · cases h
  · cases h
  · exact congrArg index (Int.ofNat.inj (Json.int.inj h))

end ShownStep

/-- Two faults have one place exactly if they are reported at one location. -/
theorem Fault.place_eq_iff {f g : Fault} : f.place = g.place ↔ f.path.map Step.toJson = g.path.map Step.toJson := by
  have htoJson : Step.toJson = ShownStep.toJson ∘ Step.shown := funext fun s => by cases s <;> rfl
  rw [htoJson, ← List.map_map, ← List.map_map, (List.map_injective_iff.2 ShownStep.toJson_injective).eq_iff]
  rfl

theorem Step.text_shown (s : Step) : s.shown.text = s.text := by cases s <;> rfl

/-- A place as one text. -/
def placeText (p : Trail) : String := if p = [] then "root" else ".".intercalate (p.map ShownStep.text)

theorem Fault.location_eq (f : Fault) : f.location = placeText f.place := by
  have hs : ShownStep.text ∘ Step.shown = Step.text := funext Step.text_shown
  simp only [Fault.location, placeText, Fault.place, List.map_map, hs, List.map_eq_nil_iff]

/-! ## Texts of places -/

/-- The characters of a place, with a dot in front of every step. -/
def dotted (p : Trail) : List Char := p.flatMap fun s => '.' :: s.text.toList

theorem dotted_cons (s : ShownStep) (p : Trail) : dotted (s :: p) = '.' :: (s.text.toList ++ dotted p) := rfl

theorem eq_nil_of_dot_notMem {p : Trail} (h : '.' ∉ dotted p) : p = [] := by
  cases p with
  | nil => rfl
  | cons s p => exact absurd List.mem_cons_self h

theorem dotted_eq_nil {p : Trail} (h : dotted p = []) : p = [] :=
  eq_nil_of_dot_notMem (h ▸ List.not_mem_nil)

/-- The text of a place begins with its first step. -/
theorem toList_placeText_cons (s : ShownStep) (p : Trail) :
    (placeText (s :: p)).toList = s.text.toList ++ dotted p := by
  rw [placeText, if_neg (List.cons_ne_nil s p)]
  induction p generalizing s with
  | nil => simp [dotted]
  | cons t p ih =>
    rw [List.map_cons, List.map_cons, String.intercalate_cons_cons, String.toList_append, String.toList_append,
      ← List.map_cons, ih t, dotted_cons, List.append_assoc]
    rfl

/-- Two texts with dotted places behind them give one text only if both are the same, or one text continues the
other one by a dot. -/
theorem append_dotted_eq {a b : String} {p q : Trail}
    (h : a.toList ++ dotted p = b.toList ++ dotted q) :
    (a = b ∧ dotted p = dotted q) ∨ (∃ s, a = b ++ "." ++ s) ∨ ∃ s, b = a ++ "." ++ s := by
  have hs : ∀ s t : String, (s ++ "." ++ t).toList = s.toList ++ '.' :: t.toList := by simp
  -- What one text is longer by begins the place behind the other one.
  have hrest : ∀ {cs rest : List Char} {p : Trail}, dotted p = cs ++ rest → cs ≠ [] →
      ∃ ds, cs = '.' :: ds := by
    intro cs rest p hp hne
    cases cs with
    | nil => exact absurd rfl hne
    | cons c ds =>
      cases p with
      | nil => cases hp
      | cons s p =>
        rw [dotted_cons, List.cons_append, List.cons.injEq] at hp
        exact ⟨ds, by rw [hp.1]⟩
  rcases List.append_eq_append_iff.1 h with ⟨cs, hb, hp⟩ | ⟨cs, ha, hq⟩
  · by_cases hcs : cs = []
    · subst hcs
      exact Or.inl ⟨(String.toList_inj.1 (by simpa using hb)).symm, hp⟩
    · obtain ⟨ds, rfl⟩ := hrest hp hcs
      exact Or.inr (Or.inr ⟨String.ofList ds, by rw [← String.toList_inj, hs, hb, String.toList_ofList]⟩)
  · by_cases hcs : cs = []
    · subst hcs
      exact Or.inl ⟨String.toList_inj.1 (by simpa using ha), hq.symm⟩
    · obtain ⟨ds, rfl⟩ := hrest hq hcs
      exact Or.inr (Or.inl ⟨String.ofList ds, by rw [← String.toList_inj, hs, ha, String.toList_ofList]⟩)

/-- Texts without dots are told from what follows them. -/
theorem append_dotted_inj {a b : String} {p q : Trail} (ha : '.' ∉ a.toList) (hb : '.' ∉ b.toList)
    (h : a.toList ++ dotted p = b.toList ++ dotted q) : a = b ∧ dotted p = dotted q := by
  rcases append_dotted_eq h with heq | ⟨s, rfl⟩ | ⟨s, rfl⟩
  · exact heq
  · simp at ha
  · simp at hb

theorem isDigit_of_mem_toString {n : Nat} {c : Char} (h : c ∈ (toString n).toList) : c.isDigit = true :=
  Nat.isDigit_of_mem_toDigits (b := 10) (n := n) (by decide) (by decide)
    (by simpa [Nat.toString_eq_ofList_toDigits] using h)

/-- The text of an index tells it. -/
theorem toString_inj {n m : Nat} (h : toString n = toString m) : n = m := by
  have hdigits := congrArg (fun s : String => Nat.ofDigitChars 10 s.toList 0) h
  simpa [Nat.toString_eq_ofList_toDigits, Nat.ofDigitChars_ten_toDigits] using hdigits

theorem dot_notMem_toString (n : Nat) : '.' ∉ (toString n).toList := fun h =>
  absurd (isDigit_of_mem_toString h) (by decide)

/-- The step to the name of an entry is told from all places inside of the entry. -/
theorem eq_key_of_dotted {p : Trail} (h : dotted [Step.key.shown] = dotted p) :
    [Step.key.shown] = p := by
  cases p with
  | nil => cases h
  | cons s p =>
    rw [dotted_cons, dotted_cons, List.cons.injEq] at h
    have htext : "[key]".toList = s.text.toList ++ dotted p := (List.append_nil _).symm.trans h.2
    have hdot : '.' ∉ s.text.toList ++ dotted p := by
      rw [← htext]
      decide
    obtain rfl := eq_nil_of_dot_notMem fun h => hdot (List.mem_append_right _ h)
    cases s with
    | name name => exact congrArg (fun t => [ShownStep.name t]) (String.toList_inj.1 (htext.trans (List.append_nil _)))
    | index index =>
      have hm : '[' ∈ (toString index).toList := by
        rw [← List.append_nil (toString index).toList]
        exact htext ▸ by decide
      exact absurd (isDigit_of_mem_toString hm) (by decide)

/-! ## Forms -/

/-- The forms of values, as far as parts of a value can be faulty on their own. -/
inductive Form where
  /-- A value that is taken as a whole. -/
  | simple
  | list (item : Form)
  | map (entry : Form)
  | record (fields : List (String × Form))

/-- Whether a field can be told from the rest of a place: its name is shown as it is, and holds no dot. -/
def isFieldName (name : String) : Bool := isWhole name && !name.toList.contains '.'

/-- The form of a field of a record. -/
def formOf? (fields : List (String × Form)) (name : String) : Option Form :=
  if isFieldName name then fields.lookup name else none

theorem dot_notMem_of_formOf? {fields : List (String × Form)} {name : String} {form : Form}
    (h : formOf? fields name = some form) : '.' ∉ name.toList := by
  unfold formOf? at h
  split at h
  · have hn : isFieldName name = true := ‹_›
    simp only [isFieldName, Bool.and_eq_true, Bool.not_eq_true', List.contains_eq_mem, decide_eq_false_iff_not] at hn
    exact hn.2
  · cases h

/-- The field of a name that has a form is shown as it is. -/
theorem shown_of_formOf? {fields : List (String × Form)} {name : String} {form : Form}
    (h : formOf? fields name = some form) : (Step.field name).shown = .name name := by
  unfold formOf? at h
  split at h
  · have hn : isFieldName name = true := ‹_›
    simp only [isFieldName, Bool.and_eq_true] at hn
    exact congrArg ShownStep.name (Text.withoutHalves_of_isWhole hn.1)
  · cases h

namespace Form

/-- The places in a value of a form at which there can be a fault. -/
inductive IsPlace : Form → Json → Trail → Prop
  | whole {form : Form} {j : Json} : IsPlace form j []
  | item {form : Form} {items : List Json} {index : Nat} {v : Json} {p : Trail} :
      items[index]? = some v → IsPlace form v p → IsPlace (.list form) (.arr items) (.index index :: p)
  /-- The name of an entry. -/
  | name {form : Form} {fields : List (String × Json)} {name : String} {v : Json} : (name, v) ∈ fields →
      IsPlace (.map form) (.obj fields) [.name (withoutHalves name), Step.key.shown]
  | entry {form : Form} {fields : List (String × Json)} {name : String} {v : Json} {p : Trail} :
      (name, v) ∈ fields → IsPlace form v p → IsPlace (.map form) (.obj fields) (.name (withoutHalves name) :: p)
  | missing {fields : List (String × Form)} {form : Form} {name : String} {j : Json} :
      formOf? fields name = some form → j.field? name = none → IsPlace (.record fields) j [.name name]
  | field {fields : List (String × Form)} {form : Form} {name : String} {j v : Json} {p : Trail} :
      formOf? fields name = some form → j.field? name = some v → IsPlace form v p →
      IsPlace (.record fields) j (.name name :: p)

end Form

/-- Two names part at a dot: one of them continues the other one by a dot. -/
def PartsAtDot (a b : String) : Prop := (∃ s, a = b ++ "." ++ s) ∨ ∃ s, b = a ++ "." ++ s

/-- Two places, one in each of two values, part at two names of objects, as they are shown, of which one continues the
other one by a dot. -/
def Part (j k : Json) (p q : Trail) : Prop :=
  ∃ common n m p' q', p = common ++ .name (withoutHalves n) :: p' ∧ q = common ++ .name (withoutHalves m) :: q' ∧
    j.HasName n ∧ k.HasName m ∧ PartsAtDot (withoutHalves n) (withoutHalves m)

section Part

variable {j k v w : Json} {p q : Trail}

theorem Part.cons (h : Part v w p q) (s : ShownStep) (hj : ∀ name, v.HasName name → j.HasName name)
    (hk : ∀ name, w.HasName name → k.HasName name) : Part j k (s :: p) (s :: q) := by
  obtain ⟨common, n, m, p', q', rfl, rfl, hn, hm, hdot⟩ := h
  exact ⟨s :: common, n, m, p', q', rfl, rfl, hj n hn, hk m hm, hdot⟩

theorem hasName_of_field? {name other : String} (h : j.field? other = some v) (hn : v.HasName name) :
    j.HasName name := by
  cases j with
  | obj fields => exact .field (mem_of_lookup ((Json.lookup_eq fields other).symm.trans h)) hn
  | _ => cases h

/-- Entries of two maps whose places have one text are of one name, or their names part at a dot. -/
theorem parts_of_entries {fields gs : List (String × Json)} {n m : String} (hn : (n, v) ∈ fields) (hm : (m, w) ∈ gs)
    (h : dotted (.name (withoutHalves n) :: p) = dotted (.name (withoutHalves m) :: q))
    (hinner : dotted p = dotted q → p = q ∨ Part v w p q) :
    ShownStep.name (withoutHalves n) :: p = .name (withoutHalves m) :: q ∨
      Part (.obj fields) (.obj gs) (.name (withoutHalves n) :: p) (.name (withoutHalves m) :: q) := by
  rw [dotted_cons, dotted_cons, List.cons.injEq] at h
  rcases append_dotted_eq h.2 with ⟨hname, hp⟩ | hdot
  · have hname : withoutHalves n = withoutHalves m := hname
    rw [hname]
    exact (hinner hp).imp (congrArg _) fun hpart => hpart.cons _ (fun _ => .field hn) fun _ => .field hm
  · exact Or.inr ⟨[], n, m, p, q, rfl, rfl, .here hn, .here hm, hdot⟩

/-- Fields of two records whose places have one text are of one name. -/
theorem eq_of_fields {fields : List (String × Form)} {n m : String} {form form' : Form}
    (hn : formOf? fields n = some form) (hm : formOf? fields m = some form')
    (h : dotted (.name n :: p) = dotted (.name m :: q)) : n = m ∧ dotted p = dotted q := by
  rw [dotted_cons, dotted_cons, List.cons.injEq] at h
  exact append_dotted_inj (dot_notMem_of_formOf? hn) (dot_notMem_of_formOf? hm) h.2

namespace Form

/-- Two places of one form with one text are one place, or part at two names of which one continues the other one by a
dot. -/
theorem IsPlace.parts {form : Form} (hp : form.IsPlace j p) :
    ∀ {k : Json} {q : Trail}, form.IsPlace k q → dotted p = dotted q → p = q ∨ Part j k p q := by
  induction hp with
  | whole => exact fun _ h => Or.inl (dotted_eq_nil h.symm).symm
  | item hv _ ih =>
    intro k q hq h
    cases hq with
    | whole => cases h
    | item hw hq =>
      rw [dotted_cons, dotted_cons, List.cons.injEq] at h
      obtain ⟨hindex, hrest⟩ := append_dotted_inj (dot_notMem_toString _) (dot_notMem_toString _) h.2
      obtain rfl := toString_inj hindex
      exact (ih hq hrest).imp (congrArg _) fun hpart =>
        hpart.cons _ (fun _ => .item (List.mem_of_getElem? hv)) fun _ => .item (List.mem_of_getElem? hw)
  | name hn =>
    intro k q hq h
    cases hq with
    | whole => cases h
    | name hm => exact parts_of_entries hn hm h fun _ => Or.inl rfl
    | entry hm _ => exact parts_of_entries hn hm h fun hkey => Or.inl (eq_key_of_dotted hkey)
  | entry hn _ ih =>
    intro k q hq h
    cases hq with
    | whole => cases h
    | name hm => exact parts_of_entries hn hm h fun hkey => Or.inl (eq_key_of_dotted hkey.symm).symm
    | entry hm hq => exact parts_of_entries hn hm h (ih hq)
  | missing hn _ =>
    intro k q hq h
    cases hq with
    | whole => cases h
    | missing hm _ =>
      obtain ⟨rfl, -⟩ := eq_of_fields hn hm h
      exact Or.inl rfl
    | field hm _ _ =>
      obtain ⟨rfl, hrest⟩ := eq_of_fields hn hm h
      exact Or.inl (congrArg _ (dotted_eq_nil hrest.symm).symm)
  | field hn hv _ ih =>
    intro k q hq h
    cases hq with
    | whole => cases h
    | missing hm _ =>
      obtain ⟨rfl, hrest⟩ := eq_of_fields hn hm h
      exact Or.inl (congrArg _ (dotted_eq_nil hrest))
    | field hm hw hq =>
      obtain ⟨rfl, hrest⟩ := eq_of_fields hn hm h
      obtain rfl := Option.some.inj (hn.symm.trans hm)
      exact (ih hq hrest).imp (congrArg _) fun hpart =>
        hpart.cons _ (fun _ => hasName_of_field? hv) fun _ => hasName_of_field? hw

variable {fields : List (String × Form)}

/-- No part of a record is shown as the record itself if there is no field of that name. -/
theorem IsPlace.placeText_ne (hroot : formOf? fields "root" = none) {s : ShownStep}
    (hp : IsPlace (.record fields) j (s :: p)) : placeText (s :: p) ≠ placeText [] := by
  have hfield : ∃ name form, s = .name name ∧ formOf? fields name = some form := by
    cases hp with
    | missing hname _ => exact ⟨_, _, rfl, hname⟩
    | field hname _ _ => exact ⟨_, _, rfl, hname⟩
  obtain ⟨name, form, rfl, hname⟩ := hfield
  intro h
  have htext : name.toList ++ dotted p = "root".toList :=
    (toList_placeText_cons (.name name) p).symm.trans (congrArg String.toList h)
  have hdot : '.' ∉ name.toList ++ dotted p := by
    rw [htext]
    decide
  obtain rfl := eq_nil_of_dot_notMem fun h => hdot (List.mem_append_right _ h)
  rw [String.toList_inj.1 ((List.append_nil _).symm.trans htext), hroot] at hname
  cases hname

/-- Two places in a record with one text are one place, or part at two names of which one continues the other one by a
dot. -/
theorem IsPlace.part_of_placeText_eq (hroot : formOf? fields "root" = none) (hp : IsPlace (.record fields) j p)
    (hq : IsPlace (.record fields) j q) (h : placeText p = placeText q) : p = q ∨ Part j j p q := by
  cases p with
  | nil =>
    cases q with
    | nil => exact Or.inl rfl
    | cons t q => exact absurd h.symm (hq.placeText_ne hroot)
  | cons s p =>
    cases q with
    | nil => exact absurd h (hp.placeText_ne hroot)
    | cons t q =>
      have htext := congrArg String.toList h
      rw [toList_placeText_cons, toList_placeText_cons] at htext
      exact hp.parts hq (by rw [dotted_cons, dotted_cons, htext])

end Form

end Part

end Schema

end AccessPlan
