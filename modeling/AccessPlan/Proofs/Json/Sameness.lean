import AccessPlan.Proofs.Json.Maps
import Mathlib.Data.List.Forall2
import Mathlib.Data.List.Perm.Subperm

/-!
# Values that are the same

Objects are compared without regard to the order of their fields. Where no object names a field twice (`NamesOnce`), a
value is the same as itself (`NamesOnce.same_self`), and it does not matter which of two values is compared with the
other (`NamesOnce.same_comm`).

Values as documents are made of them (`IsSimple`) are such values. Two objects of them with the same fields are the same
in whatever order they have them (`same_obj_of_perm`).
-/

namespace AccessPlan.Json

/-- No object within a value names a field twice. -/
inductive NamesOnce : Json → Prop
  | null : NamesOnce .null
  | bool (b : Bool) : NamesOnce (.bool b)
  | int (n : Int) : NamesOnce (.int n)
  | float (x : Binary64) : NamesOnce (.float x)
  | str (s : String) : NamesOnce (.str s)
  | arr {items : List Json} (h : ∀ x ∈ items, NamesOnce x) : NamesOnce (.arr items)
  | obj {fields : List (String × Json)} (hn : (fields.map (·.1)).Nodup) (h : ∀ f ∈ fields, NamesOnce f.2) :
      NamesOnce (.obj fields)

/-- A value as documents are made of them: without numbers, with at most `n` lists and objects inside one another, and
no object names a field twice. -/
inductive IsSimple : Nat → Json → Prop
  | null {n : Nat} : IsSimple n .null
  | bool {n : Nat} (b : Bool) : IsSimple n (.bool b)
  | str {n : Nat} (s : String) : IsSimple n (.str s)
  | arr {n : Nat} {items : List Json} (h : ∀ x ∈ items, IsSimple n x) : IsSimple (n + 1) (.arr items)
  | obj {n : Nat} {fields : List (String × Json)} (hn : (fields.map (·.1)).Nodup) (h : ∀ f ∈ fields, IsSimple n f.2) :
      IsSimple (n + 1) (.obj fields)

section Lookup

variable {fs gs : List (String × Json)} {name : String} {j : Json}

theorem lookup_eq (fs : List (String × Json)) (name : String) : lookup name fs = fs.lookup name := by
  induction fs with
  | nil => rfl
  | cons f fs ih =>
    rw [lookup, List.lookup_cons, ih]
    by_cases hname : f.1 = name
    · rw [if_pos hname, hname, beq_self_eq_true]
    · rw [if_neg hname, beq_eq_false_iff_ne.2 (Ne.symm hname)]

theorem lookup_of_mem (hn : (fs.map (·.1)).Nodup) {f : String × Json} (h : f ∈ fs) : lookup f.1 fs = some f.2 := by
  rw [lookup_eq]
  exact lookup_eq_some_of_mem hn h

/-- Fields that are the same as those of the other object, whatever their order. -/
theorem sameFields_iff :
    sameFields fs gs = true ↔ ∀ f ∈ fs, ∃ j, lookup f.1 gs = some j ∧ same f.2 j = true := by
  induction fs with
  | nil => simp [sameFields]
  | cons f fs ih =>
    rw [sameFields, Bool.and_eq_true, ih, List.forall_mem_cons]
    refine and_congr_left fun _ => ?_
    cases lookup f.1 gs <;> simp

theorem sameItems_self {xs : List Json} (h : ∀ x ∈ xs, same x x = true) : sameItems xs xs = true := by
  induction xs with
  | nil => rfl
  | cons x xs ih =>
    obtain ⟨hx, hxs⟩ := List.forall_mem_cons.1 h
    rw [sameItems, hx, ih hxs]
    rfl

/-- Objects with the same fields are the same. -/
theorem same_obj (hl : fs.length = gs.length)
    (h : ∀ f ∈ fs, ∃ j, lookup f.1 gs = some j ∧ same f.2 j = true) : same (.obj fs) (.obj gs) = true := by
  rw [same, hl, sameFields_iff.2 h, beq_self_eq_true]
  rfl

end Lookup

/-! ## Values that name no field twice -/

section NamesOnce

variable {x y : Json}

theorem NamesOnce.same_self (h : x.NamesOnce) : same x x = true := by
  induction h with
  | null => rfl
  | bool b => cases b <;> rfl
  | int n => simp [same, number?]
  | float x => cases x <;> simp [same, number?, Binary64.value?]
  | str s => simp [same]
  | arr _ ih => exact sameItems_self ih
  | obj hn _ ih => exact same_obj rfl fun f hf => ⟨f.2, lookup_of_mem hn hf, ih f hf⟩

/-- Numbers are compared by their values, whatever way they are written. -/
theorem same_comm_of_isNumber (hx : x.isNumber = true) : same x y = same y x := by
  cases x with
  | bool b =>
    cases y with
    | float a => cases a <;> simp [same, number?, Binary64.value?, BEq.comm]
    | _ => simp [same, number?, BEq.comm]
  | int n =>
    cases y with
    | float a => cases a <;> simp [same, number?, Binary64.value?, BEq.comm]
    | _ => simp [same, number?, BEq.comm]
  | float a =>
    cases y with
    | float b => cases a <;> cases b <;> simp [same, number?, Binary64.value?, BEq.comm]
    | _ => cases a <;> simp [same, number?, Binary64.value?, BEq.comm]
  | _ => cases hx

theorem sameItems_symm {xs : List Json} (h : ∀ x ∈ xs, ∀ y, y.NamesOnce → same x y = true → same y x = true) :
    ∀ {ys : List Json}, (∀ y ∈ ys, y.NamesOnce) → sameItems xs ys = true → sameItems ys xs = true := by
  induction xs with
  | nil =>
    intro ys _ hs
    cases ys with
    | nil => rfl
    | cons y ys => cases hs
  | cons x xs ih =>
    intro ys hys hs
    cases ys with
    | nil => cases hs
    | cons y ys =>
      obtain ⟨hx, hxs⟩ := List.forall_mem_cons.1 h
      obtain ⟨hy, hys⟩ := List.forall_mem_cons.1 hys
      obtain ⟨hxy, hrest⟩ := Bool.and_eq_true_iff.1 hs
      exact Bool.and_eq_true_iff.2 ⟨hx y hy hxy, ih hxs hys hrest⟩

/-- An object that finds its fields in another one with no more fields has the same names. -/
theorem perm_names_of_sameFields {fs gs : List (String × Json)} (hn : (fs.map (·.1)).Nodup)
    (hl : fs.length = gs.length) (h : sameFields fs gs = true) : (fs.map (·.1)).Perm (gs.map (·.1)) := by
  have hsubset : fs.map (·.1) ⊆ gs.map (·.1) := by
    intro name hm
    obtain ⟨f, hf, rfl⟩ := List.mem_map.1 hm
    obtain ⟨j, hj, -⟩ := sameFields_iff.1 h f hf
    rw [lookup_eq] at hj
    exact List.mem_map.2 ⟨_, mem_of_lookup hj, rfl⟩
  exact (List.Nodup.subperm hn hsubset).perm_of_length_le (by simp [hl])

theorem NamesOnce.same_symm (hx : x.NamesOnce) : ∀ y : Json, y.NamesOnce → same x y = true → same y x = true := by
  induction hx with
  | null =>
    intro y _ h
    cases y with
    | null => rfl
    | _ => simp [same, number?] at h
  | bool b => exact fun y _ h => (same_comm_of_isNumber rfl).symm.trans h
  | int n => exact fun y _ h => (same_comm_of_isNumber rfl).symm.trans h
  | float x => exact fun y _ h => (same_comm_of_isNumber rfl).symm.trans h
  | str s =>
    intro y _ h
    cases y with
    | str t => exact BEq.comm.trans h
    | _ => simp [same, number?] at h
  | arr _ ih =>
    intro y hy h
    cases hy with
    | arr hys => exact sameItems_symm ih hys h
    | _ => simp [same, number?] at h
  | @obj fs hn _ ih =>
    intro y hy h
    cases hy with
    | @obj gs hn' hgs =>
      obtain ⟨hl, hs⟩ := Bool.and_eq_true_iff.1 h
      have hperm := perm_names_of_sameFields hn (eq_of_beq hl) hs
      refine same_obj (eq_of_beq hl).symm fun g hg => ?_
      obtain ⟨f, hf, hname⟩ := List.mem_map.1 (hperm.mem_iff.2 (List.mem_map_of_mem hg))
      obtain ⟨j, hj, hsame⟩ := sameFields_iff.1 hs f hf
      rw [show f.1 = g.1 from hname, lookup_of_mem hn' hg] at hj
      obtain rfl := Option.some.inj hj
      exact ⟨f.2, hname ▸ lookup_of_mem hn hf, ih f hf g.2 (hgs g hg) hsame⟩
    | _ => simp [same, number?] at h

/-- It does not matter which of two values is compared with the other. -/
theorem NamesOnce.same_comm (hx : x.NamesOnce) (hy : y.NamesOnce) : same x y = same y x :=
  Bool.eq_iff_iff.2 ⟨hx.same_symm y hy, hy.same_symm x hx⟩

end NamesOnce

theorem IsSimple.namesOnce {n : Nat} {j : Json} (h : j.IsSimple n) : j.NamesOnce := by
  induction h with
  | null => exact .null
  | bool b => exact .bool b
  | str s => exact .str s
  | arr _ ih => exact .arr ih
  | obj hn _ ih => exact .obj hn ih

/-- A simple value is the same as itself. -/
theorem IsSimple.same_self {n : Nat} {j : Json} (h : j.IsSimple n) : same j j = true := h.namesOnce.same_self

/-- The order of the fields does not matter. -/
theorem same_obj_of_perm {n : Nat} {fs gs : List (String × Json)} (hp : fs.Perm gs) (h : (Json.obj gs).IsSimple n) :
    same (.obj fs) (.obj gs) = true := by
  cases h with
  | obj hn h => exact same_obj hp.length_eq fun f hf =>
      ⟨f.2, lookup_of_mem hn (hp.mem_iff.1 hf), (h f (hp.mem_iff.1 hf)).same_self⟩

theorem exists_of_mem_left {α β : Type} {R : α → β → Prop} {xs : List α} {ys : List β} (h : List.Forall₂ R xs ys)
    {x : α} (hx : x ∈ xs) : ∃ y ∈ ys, R x y := by
  induction h with
  | nil => cases hx
  | cons hR _ ih =>
    rcases List.mem_cons.1 hx with rfl | hx
    · exact ⟨_, List.mem_cons_self, hR⟩
    · obtain ⟨y, hy, hxy⟩ := ih hx
      exact ⟨y, List.mem_cons_of_mem _ hy, hxy⟩

/-- Objects with fields of the same names and the same values are the same. -/
theorem same_obj_of_forall₂ {fs gs : List (String × Json)}
    (h : List.Forall₂ (fun f g => f.1 = g.1 ∧ same f.2 g.2 = true) fs gs) (hn : (gs.map (·.1)).Nodup) :
    same (.obj fs) (.obj gs) = true := by
  refine same_obj h.length_eq fun f hf => ?_
  obtain ⟨g, hg, hname, hs⟩ := exists_of_mem_left h hf
  exact ⟨g.2, hname ▸ lookup_of_mem hn hg, hs⟩

/-- Objects that differ in one field only are the same if its values are. -/
theorem same_obj_of_field {n : Nat} (before : List (String × Json)) {name : String} {a b : Json}
    {after : List (String × Json)} (h : (Json.obj (before ++ (name, b) :: after)).IsSimple n)
    (hs : same a b = true) :
    same (.obj (before ++ (name, a) :: after)) (.obj (before ++ (name, b) :: after)) = true := by
  cases h with
  | obj hn h =>
    obtain ⟨hbefore, hafter⟩ := List.forall_mem_append.1 h
    refine same_obj_of_forall₂ (List.rel_append ?_ (.cons ⟨rfl, hs⟩ ?_)) hn
    · exact List.forall₂_same.2 fun f hf => ⟨rfl, (hbefore f hf).same_self⟩
    · exact List.forall₂_same.2 fun f hf => ⟨rfl, (hafter f (List.mem_cons_of_mem _ hf)).same_self⟩

/-! ## Simple values -/

section Simple

variable {n : Nat}

@[simp] theorem isSimple_null : null.IsSimple n := .null

@[simp] theorem isSimple_bool (b : Bool) : (bool b).IsSimple n := .bool b

@[simp] theorem isSimple_str (s : String) : (str s).IsSimple n := .str s

@[simp] theorem isSimple_obj_iff {fields : List (String × Json)} :
    (obj fields).IsSimple (n + 1) ↔ (fields.map (·.1)).Nodup ∧ ∀ f ∈ fields, f.2.IsSimple n := by
  constructor
  · intro h
    cases h with
    | obj hn h => exact ⟨hn, h⟩
  · exact fun h => .obj h.1 h.2

theorem isSimple_arr_map {α : Type} {write : α → Json} {xs : List α} (h : ∀ a ∈ xs, (write a).IsSimple n) :
    (arr (xs.map write)).IsSimple (n + 1) := by
  refine .arr fun x hx => ?_
  obtain ⟨a, ha, rfl⟩ := List.mem_map.1 hx
  exact h a ha

@[simp] theorem isSimple_ofTexts (xs : List String) : (ofTexts xs).IsSimple (n + 1) :=
  isSimple_arr_map fun s _ => .str s

@[simp] theorem isSimple_ofOption (s : Option String) : (ofOption s).IsSimple n := by
  cases s with
  | none => exact .null
  | some s => exact .str s

/-- An object that is written of entries names none twice. -/
theorem isSimple_ofEntries {α : Type} {write : α → Json} {es : List (String × α)}
    (h : ∀ e ∈ es, (write e.2).IsSimple n) : (ofEntries (es.map fun e => (e.1, write e.2))).IsSimple (n + 1) := by
  rw [ofEntries_eq]
  refine .obj (nodup_written _) fun f hf => ?_
  obtain ⟨d, hd, rfl⟩ := exists_of_mem_written hf
  obtain ⟨e, he, rfl⟩ := List.mem_map.1 hd
  exact h e he

end Simple

end AccessPlan.Json
