import Mathlib.Data.List.Forall2

/-!
# Runs over lists that may fail

A list is run through by an operation that gives a result or an error, and the first error ends the run.

* `bind_eq_ok`, `bind_eq_error`: a composition gives a result exactly when both parts do, and fails exactly
  when the first part does or the second one does on the result of the first.
* `mapM_eq_ok_iff`: a run gives a result exactly when every item has one; `mapM_eq_error_iff`: it fails with
  the error of the first item that has none.
* `mapM_eq_ok_iff_forall₂`: the results of a run stand beside the items in their order.
* `map_mapM`: a function of every result can be put into the operation.
* `mapM_flatMap`: a run over parts, put together at the end, is one run over all items.
* `IsRunOf` says of a result that it is put together from the results of parts, the first error winning;
  `isRunOf_mapM` gives this for runs.
-/

namespace AccessPlan

section Bind

variable {ε α β : Type}

theorem bind_eq_ok {x : Except ε α} {f : α → Except ε β} {b : β} :
    x >>= f = .ok b ↔ ∃ a, x = .ok a ∧ f a = .ok b := by
  cases x with
  | error e => simp [bind, Except.bind]
  | ok a => simp [bind, Except.bind]

theorem bind_eq_error {x : Except ε α} {f : α → Except ε β} {e : ε} :
    x >>= f = .error e ↔ x = .error e ∨ ∃ a, x = .ok a ∧ f a = .error e := by
  cases x with
  | error d => simp [bind, Except.bind]
  | ok a => simp [bind, Except.bind]

theorem except_map_eq_ok {x : Except ε α} {f : α → β} {b : β} : x.map f = .ok b ↔ ∃ a, x = .ok a ∧ f a = b := by
  cases x <;> simp [Except.map]

theorem except_map_eq_error {x : Except ε α} {f : α → β} {e : ε} : x.map f = .error e ↔ x = .error e := by
  cases x <;> simp [Except.map]

section Errors

variable {ε' : Type} {x : Except ε α} {g : ε → ε'}

@[simp] theorem mapError_ok {a : α} : (Except.ok a : Except ε α).mapError g = .ok a := rfl

@[simp] theorem mapError_error {e : ε} : (Except.error e : Except ε α).mapError g = .error (g e) := rfl

theorem mapError_eq_ok {a : α} : x.mapError g = .ok a ↔ x = .ok a := by
  cases x <;> simp

theorem mapError_eq_error {e : ε'} : x.mapError g = .error e ↔ ∃ d, x = .error d ∧ g d = e := by
  cases x <;> simp

end Errors

end Bind

section Runs

variable {ε α β γ : Type}

/-- The run over a list whose first item has a result. -/
theorem mapM_cons_ok {f : α → Except ε β} {x : α} {y : β} {xs : List α} (h : f x = .ok y) :
    (x :: xs).mapM f = (xs.mapM f).map (y :: ·) := by
  rw [List.mapM_cons, h]
  cases hr : xs.mapM f <;> simp [bind, Except.bind, pure, Except.pure, Except.map]

theorem mapM_cons_error {f : α → Except ε β} {x : α} {e : ε} {xs : List α} (h : f x = .error e) :
    (x :: xs).mapM f = .error e := by
  rw [List.mapM_cons, h]
  rfl

/-- A run gives a result exactly when every item has one, whatever says when an item has one. -/
theorem mapM_eq_ok_iff {f : α → Except ε β} {P : α → Prop} {g : α → β} :
    ∀ {xs : List α} {ys : List β}, (∀ x ∈ xs, ∀ y, f x = .ok y ↔ P x ∧ y = g x) →
      (xs.mapM f = .ok ys ↔ (∀ x ∈ xs, P x) ∧ ys = xs.map g)
  | [], ys, _ => by
    simp only [List.mapM_nil, List.not_mem_nil, false_imp_iff, implies_true, List.map_nil, true_and]
    exact ⟨fun h => (Except.ok.inj h).symm, fun h => by rw [h]; rfl⟩
  | x :: xs, ys, h => by
    have ih := @mapM_eq_ok_iff f P g xs
    cases hx : f x with
    | error e =>
      have hP : ¬ P x := fun hP => by
        have := (h x List.mem_cons_self (g x)).2 ⟨hP, rfl⟩
        rw [hx] at this
        cases this
      rw [mapM_cons_error hx]
      exact ⟨nofun, fun h => absurd (h.1 x List.mem_cons_self) hP⟩
    | ok y =>
      obtain ⟨hP, rfl⟩ := (h x List.mem_cons_self y).1 hx
      have ih' := fun zs => @ih zs fun z hz => h z (List.mem_cons_of_mem _ hz)
      rw [mapM_cons_ok hx]
      cases hr : xs.mapM f with
      | error e =>
        have hn : ¬ ∀ z ∈ xs, P z := fun hz => by
          have := (ih' _).2 ⟨hz, rfl⟩
          rw [hr] at this
          cases this
        exact ⟨nofun, fun h => absurd (fun z hz => h.1 z (List.mem_cons_of_mem _ hz)) hn⟩
      | ok zs =>
        obtain ⟨hz, rfl⟩ := (ih' zs).1 hr
        simp only [Except.map, Except.ok.injEq, List.forall_mem_cons, List.map_cons]
        exact ⟨fun h => ⟨⟨hP, hz⟩, h.symm⟩, fun h => h.2.symm⟩

/-- A run gives a result exactly when every item has one. -/
theorem exists_mapM_eq_ok_iff {f : α → Except ε β} : ∀ {xs : List α},
    (∃ ys, xs.mapM f = .ok ys) ↔ ∀ x ∈ xs, ∃ y, f x = .ok y
  | [] => ⟨fun _ => List.forall_mem_nil _, fun _ => ⟨[], rfl⟩⟩
  | x :: xs => by
    have ih := @exists_mapM_eq_ok_iff f xs
    rw [List.forall_mem_cons, ← ih]
    cases hx : f x with
    | error e =>
      rw [mapM_cons_error hx]
      exact ⟨nofun, nofun⟩
    | ok y =>
      rw [mapM_cons_ok hx]
      cases xs.mapM f <;> simp [Except.map]

/-- The results of a run stand beside the items that they belong to. -/
theorem mapM_eq_ok_iff_forall₂ {f : α → Except ε β} : ∀ {xs : List α} {ys : List β},
    xs.mapM f = .ok ys ↔ List.Forall₂ (fun x y => f x = .ok y) xs ys
  | [], ys => by
    rw [List.forall₂_nil_left_iff]
    exact ⟨fun h => (Except.ok.inj h).symm, fun h => by rw [h]; rfl⟩
  | x :: xs, ys => by
    rw [List.mapM_cons, bind_eq_ok, List.forall₂_cons_left_iff]
    constructor
    · rintro ⟨y, hy, h⟩
      obtain ⟨zs, hzs, h⟩ := bind_eq_ok.1 h
      exact ⟨y, zs, hy, mapM_eq_ok_iff_forall₂.1 hzs, (Except.ok.inj h).symm⟩
    · rintro ⟨y, zs, hy, hzs, rfl⟩
      exact ⟨y, hy, bind_eq_ok.2 ⟨zs, mapM_eq_ok_iff_forall₂.2 hzs, rfl⟩⟩

/-- Runs over two lists are equal if those of their items are, pair by pair. -/
theorem mapM_eq_of_forall₂ {R : α → β → Prop} {f : α → Except ε γ} {g : β → Except ε γ} {xs : List α} {ys : List β}
    (h : List.Forall₂ R xs ys) (hfg : ∀ x y, R x y → f x = g y) : xs.mapM f = ys.mapM g := by
  induction h with
  | nil => rfl
  | cons hxy _ ih => rw [List.mapM_cons, List.mapM_cons, hfg _ _ hxy, ih]

/-- Two lists have the same image if their items have, pair by pair. -/
theorem map_eq_of_forall₂ {R : α → β → Prop} {f : α → γ} {g : β → γ} {xs : List α} {ys : List β}
    (h : List.Forall₂ R xs ys) (hfg : ∀ x y, R x y → f x = g y) : xs.map f = ys.map g := by
  induction h with
  | nil => rfl
  | cons hxy _ ih => rw [List.map_cons, List.map_cons, hfg _ _ hxy, ih]

/-- Related items of which the same ones are kept, seen through two functions that agree on them. -/
theorem map_filter_eq_of_forall₂ {R : α → β → Prop} {f : α → γ} {g : β → γ} {p : α → Bool} {q : β → Bool} {xs : List α}
    {ys : List β} (h : List.Forall₂ R xs ys) (hpq : ∀ x y, R x y → p x = q y) (hfg : ∀ x y, R x y → f x = g y) :
    (xs.filter p).map f = (ys.filter q).map g := by
  have hkept : ∀ ⦃x y⦄, R x y → (p x = true ↔ q y = true) := fun x y hxy => by rw [hpq x y hxy]
  exact map_eq_of_forall₂ (List.rel_filter hkept h) hfg

/-- What the results of a run have to do with the items, seen through two functions. -/
theorem map_of_mapM_eq_ok {f : α → Except ε β} {g : β → γ} {k : α → γ} {xs : List α} {ys : List β}
    (hf : ∀ x y, f x = .ok y → g y = k x) (h : xs.mapM f = .ok ys) : ys.map g = xs.map k := by
  have hall := mapM_eq_ok_iff_forall₂.1 h
  exact (map_eq_of_forall₂ hall fun x y hxy => (hf x y hxy).symm).symm

/-- The results of a run are those of the items. -/
theorem mem_of_mapM_eq_ok {f : α → Except ε β} {y : β} : ∀ {xs : List α} {ys : List β}, xs.mapM f = .ok ys →
    (y ∈ ys ↔ ∃ x ∈ xs, f x = .ok y)
  | [], ys, h => by simp [← Except.ok.inj h]
  | x :: xs, ys, h => by
    rw [List.mapM_cons, bind_eq_ok] at h
    obtain ⟨z, hz, h⟩ := h
    obtain ⟨zs, hzs, h⟩ := bind_eq_ok.1 h
    rw [← Except.ok.inj h, List.mem_cons, mem_of_mapM_eq_ok hzs]
    simp only [List.mem_cons, exists_eq_or_imp, hz, Except.ok.injEq, eq_comm (a := z)]

/-- A run fails with the error of the first item that has one. -/
theorem mapM_eq_error_iff {f : α → Except ε β} {e : ε} : ∀ {xs : List α},
    xs.mapM f = .error e ↔
      ∃ before x after, xs = before ++ x :: after ∧ (∀ y ∈ before, ∃ z, f y = .ok z) ∧ f x = .error e
  | [] => by simp [pure, Except.pure]
  | x :: xs => by
    cases hx : f x with
    | error d =>
      rw [mapM_cons_error hx]
      constructor
      · intro h
        cases h
        exact ⟨[], x, xs, rfl, by simp, hx⟩
      · rintro ⟨before, y, after, he, hb, hy⟩
        cases before with
        | nil =>
          obtain ⟨rfl, -⟩ := List.cons.inj he
          rw [hx] at hy
          cases hy
          rfl
        | cons b bs =>
          obtain ⟨rfl, -⟩ := List.cons.inj he
          obtain ⟨z, hz⟩ := hb x List.mem_cons_self
          rw [hx] at hz
          cases hz
    | ok y =>
      have ih := @mapM_eq_error_iff f e xs
      rw [mapM_cons_ok hx]
      have hm : (xs.mapM f).map (y :: ·) = .error e ↔ xs.mapM f = .error e := by
        cases xs.mapM f <;> simp [Except.map]
      rw [hm, ih]
      constructor
      · rintro ⟨before, z, after, rfl, hb, hz⟩
        refine ⟨x :: before, z, after, rfl, fun w hw => ?_, hz⟩
        rcases List.mem_cons.1 hw with rfl | hw
        · exact ⟨y, hx⟩
        · exact hb w hw
      · rintro ⟨before, z, after, he, hb, hz⟩
        cases before with
        | nil =>
          obtain ⟨rfl, -⟩ := List.cons.inj he
          rw [hx] at hz
          cases hz
        | cons b bs =>
          obtain ⟨rfl, rfl⟩ := List.cons.inj he
          exact ⟨bs, z, after, rfl, fun w hw => hb w (List.mem_cons_of_mem _ hw), hz⟩

/-- A run fails at the first item that has no result, whatever says which items have one. -/
theorem mapM_eq_error_find?_iff {f : α → Except ε β} {P : α → Prop} [DecidablePred P] {e : ε} {xs : List α}
    (h : ∀ x ∈ xs, (∃ y, f x = .ok y) ↔ P x) :
    xs.mapM f = .error e ↔ ∃ x, (xs.find? fun x => !decide (P x)) = some x ∧ f x = .error e := by
  rw [mapM_eq_error_iff]
  simp only [List.find?_eq_some_iff_append, Bool.not_not, decide_eq_true_eq, Bool.not_eq_true',
    decide_eq_false_iff_not]
  constructor
  · rintro ⟨before, x, after, rfl, hb, he⟩
    refine ⟨x, ⟨fun hx => ?_, before, after, rfl, fun y hy => (h y (List.mem_append_left _ hy)).1 (hb y hy)⟩, he⟩
    obtain ⟨y, hy⟩ := (h x (by simp)).2 hx
    cases he.symm.trans hy
  · rintro ⟨x, ⟨-, before, after, rfl, hb⟩, he⟩
    exact ⟨before, x, after, rfl, fun y hy => (h y (List.mem_append_left _ hy)).2 (hb y hy), he⟩

/-- Two operations that agree on a list have the same run over it. -/
theorem mapM_congr {f g : α → Except ε β} : ∀ {xs : List α}, (∀ x ∈ xs, f x = g x) → xs.mapM f = xs.mapM g
  | [], _ => rfl
  | x :: xs, h => by
    rw [List.mapM_cons, List.mapM_cons, h x List.mem_cons_self, mapM_congr fun y hy => h y (List.mem_cons_of_mem _ hy)]

/-- Two lists that stand beside one list stand beside each other. -/
theorem forall₂_of_forall₂ {R : α → β → Prop} {S : α → γ → Prop} {T : β → γ → Prop} {xs : List α} {ys : List β}
    {zs : List γ} (hy : List.Forall₂ R xs ys) (hz : List.Forall₂ S xs zs) (h : ∀ x y z, R x y → S x z → T y z) :
    List.Forall₂ T ys zs := by
  induction hy generalizing zs with
  | nil =>
    rw [List.forall₂_nil_left_iff.1 hz]
    exact .nil
  | cons hxy _ ih =>
    obtain ⟨z, rest, hxz, hrest, rfl⟩ := List.forall₂_cons_left_iff.1 hz
    exact .cons (h _ _ _ hxy hxz) (ih hrest)

/-- What stands beside an item. -/
theorem exists_getElem?_of_forall₂ {R : α → β → Prop} {xs : List α} {ys : List β} (h : List.Forall₂ R xs ys) {i : Nat}
    {x : α} (hx : xs[i]? = some x) : ∃ y, ys[i]? = some y ∧ R x y := by
  obtain ⟨hi, rfl⟩ := List.getElem?_eq_some_iff.1 hx
  have hj : i < ys.length := h.length_eq ▸ hi
  exact ⟨ys[i], List.getElem?_eq_getElem hj, h.get hi hj⟩

/-- What stands at the position of an item in a list with the same image. -/
theorem exists_getElem?_of_map_eq {f : α → β} {xs ys : List α} (h : xs.map f = ys.map f) {i : Nat}
    {x : α} (hx : xs[i]? = some x) : ∃ y, ys[i]? = some y ∧ f x = f y := by
  have hi := congrArg (fun l => l[i]?) h
  simp only [List.getElem?_map, hx, Option.map_some] at hi
  obtain ⟨y, hy, hf⟩ := Option.map_eq_some_iff.1 hi.symm
  exact ⟨y, hy, hf.symm⟩

/-- A function of every result of a run can be put into the operation. -/
theorem map_mapM {f : α → Except ε β} {g : β → γ} : ∀ xs : List α,
    (xs.mapM f).map (List.map g) = xs.mapM fun x => (f x).map g
  | [] => rfl
  | x :: xs => by
    rw [List.mapM_cons, List.mapM_cons, ← map_mapM xs]
    cases f x with
    | error e => rfl
    | ok y => cases xs.mapM f <;> rfl

/-- A run over parts, put together at the end, is one run over all items. -/
theorem mapM_flatMap {f : β → Except ε γ} (g : α → List β) : ∀ xs : List α,
    (xs.mapM fun x => (g x).mapM f).map List.flatten = (xs.flatMap g).mapM f
  | [] => rfl
  | x :: xs => by
    rw [List.flatMap_cons, List.mapM_append, ← mapM_flatMap g xs]
    rw [List.mapM_cons]
    cases (g x).mapM f with
    | error e => rfl
    | ok ys => cases xs.mapM fun x => (g x).mapM f <;> rfl

/-- A run over one item gives what the item gives. -/
theorem flatten_mapM_singleton (f : α → Except ε (List β)) (x : α) : ([x].mapM f).map List.flatten = f x := by
  rw [List.mapM_cons, List.mapM_nil]
  cases f x with
  | error e => rfl
  | ok ys => exact congrArg Except.ok (List.append_nil ys)

/-- Items that give nothing can be left out of a run that is put together at the end. -/
theorem mapM_filter {f : α → Except ε (List β)} {p : α → Bool} : ∀ {xs : List α},
    (∀ x ∈ xs, p x = false → f x = .ok []) →
      ((xs.filter p).mapM f).map List.flatten = (xs.mapM f).map List.flatten
  | [], _ => rfl
  | x :: xs, h => by
    have ih := mapM_filter fun y hy => h y (List.mem_cons_of_mem _ hy)
    cases hp : p x with
    | true =>
      rw [List.filter_cons_of_pos hp]
      cases hx : f x with
      | error e => rw [mapM_cons_error hx, mapM_cons_error hx]
      | ok ys =>
        rw [mapM_cons_ok hx, mapM_cons_ok hx]
        revert ih
        cases (xs.filter p).mapM f <;> cases xs.mapM f <;> simp [Except.map]
    | false =>
      rw [List.filter_cons_of_neg (by simp [hp]), ih, mapM_cons_ok (h x List.mem_cons_self hp)]
      cases xs.mapM f <;> rfl

/-- The results of parts put together, or the error of the first part that has no result. -/
structure IsRunOf (parts : List (Except ε (List α))) (whole : Except ε (List α)) : Prop where
  eq_ok_iff : ∀ xs, whole = .ok xs ↔ ∃ results : List (List α), parts = results.map .ok ∧ xs = results.flatten
  eq_error_iff : ∀ e, whole = .error e ↔
    ∃ (results : List (List α)) (rest : List (Except ε (List α))), parts = results.map .ok ++ .error e :: rest

/-- A run that is put together at the end is one of the results of its items. -/
theorem isRunOf_mapM {f : α → Except ε (List β)} {xs : List α} : IsRunOf (xs.map f) ((xs.mapM f).map List.flatten) where
  eq_ok_iff ys := by
    rw [except_map_eq_ok]
    refine exists_congr fun results => ?_
    have hparts : xs.map f = results.map .ok ↔ xs.mapM f = .ok results := by
      rw [mapM_eq_ok_iff_forall₂, ← List.forall₂_eq_eq_eq, List.forall₂_map_left_iff, List.forall₂_map_right_iff]
    rw [hparts, eq_comm (a := ys)]
  eq_error_iff e := by
    rw [except_map_eq_error, mapM_eq_error_iff]
    constructor
    · rintro ⟨before, x, after, rfl, hb, hx⟩
      obtain ⟨results, hr⟩ := exists_mapM_eq_ok_iff.2 hb
      refine ⟨results, after.map f, ?_⟩
      rw [List.map_append, List.map_cons, hx, map_of_mapM_eq_ok (g := Except.ok) (fun y z hz => hz.symm) hr]
    · rintro ⟨results, rest, h⟩
      obtain ⟨before, after, rfl, hb, ha⟩ := List.map_eq_append_iff.1 h
      obtain ⟨x, after, rfl, hx, -⟩ := List.map_eq_cons_iff.1 ha
      refine ⟨before, x, after, rfl, fun y hy => ?_, hx⟩
      have hm : f y ∈ results.map Except.ok := hb ▸ List.mem_map_of_mem hy
      obtain ⟨z, -, hz⟩ := List.mem_map.1 hm
      exact ⟨z, hz.symm⟩

/-- A check of every item passes exactly when it passes on each. -/
theorem forM_eq_ok {f : α → Except ε Unit} : ∀ {xs : List α}, xs.forM f = .ok () ↔ ∀ x ∈ xs, f x = .ok ()
  | [] => by simp [pure, Except.pure]
  | x :: xs => by
    show (f x >>= fun _ => xs.forM f) = .ok () ↔ _
    rw [bind_eq_ok, List.forall_mem_cons]
    constructor
    · rintro ⟨⟨⟩, hx, hr⟩
      exact ⟨hx, forM_eq_ok.1 hr⟩
    · rintro ⟨hx, hr⟩
      exact ⟨(), hx, forM_eq_ok.2 hr⟩

/-- A check that fails does so with the error of an item. -/
theorem exists_of_forM_eq_error {f : α → Except ε Unit} {e : ε} : ∀ {xs : List α}, xs.forM f = .error e →
    ∃ x ∈ xs, f x = .error e
  | [], h => by cases h
  | x :: xs, h => by
    change (f x >>= fun _ => xs.forM f) = .error e at h
    rcases bind_eq_error.1 h with h | ⟨-, -, h⟩
    · exact ⟨x, List.mem_cons_self, h⟩
    · obtain ⟨y, hy, he⟩ := exists_of_forM_eq_error h
      exact ⟨y, List.mem_cons_of_mem _ hy, he⟩

end Runs

end AccessPlan
