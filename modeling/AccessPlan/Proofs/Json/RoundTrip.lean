import AccessPlan.Json.Reader
import AccessPlan.Json.Writer
import AccessPlan.Proofs.Json.Sameness
import Mathlib.Data.Nat.Init
import Mathlib.Tactic.SplitIfs

/-!
# Written values are read back

What is written for a simple value is read as this value in front of whatever follows, if enough levels are left
(`IsSimple.isReadBack`). So a value is read back from its text (`read_text`), and an object also as the body of a
request (`readBody_text`).
-/

namespace AccessPlan.Json

/-! ## Texts -/

section Texts

variable (opening : List Char)

theorem codeUnit?_hex : ∀ n < 32, codeUnit? (Text.hexDigit (n / 16 / 16 / 16)) (Text.hexDigit (n / 16 / 16))
    (Text.hexDigit (n / 16)) (Text.hexDigit n) = some n := by
  decide

theorem characters_ofCode {c : Char} (h : c.toNat < 32) : (Text.Sign.ofCode c.toNat).characters = [c] := by
  have hhalf : Text.isHalf c.toNat = false := decide_eq_false (by omega)
  have hmark : c ≠ Text.mark := by
    rintro rfl
    exact absurd h (by decide)
  rw [Text.Sign.ofCode, hhalf, Char.ofNat_toNat]
  exact if_neg hmark

/-- What is written for a character is read as the character. -/
theorem readText_escape (fuel : Nat) (acc : List Char) (c : Char) {rest : List Char} (hr : rest ≠ []) :
    readText opening (fuel + 1) acc (escape c ++ rest) = readText opening fuel (c :: acc) rest := by
  obtain ⟨d, ds, rfl⟩ := List.exists_cons_of_ne_nil hr
  unfold escape
  split_ifs with hquote hn ht hr hb hf hcontrol
  · rcases hquote with rfl | rfl <;> rfl
  · subst hn; rfl
  · subst ht; rfl
  · subst hr; rfl
  · subst hb; rfl
  · subst hf; rfl
  · have hcode := codeUnit?_hex c.toNat hcontrol
    have hhigh : Text.isHighHalf c.toNat = false := decide_eq_false (by omega)
    simp only [Text.hex, List.nil_append, List.cons_append, readText, hcode, hhigh, withSign,
      characters_ofCode hcontrol]
    rfl
  · rw [not_or] at hquote
    rw [List.singleton_append, readText, if_neg hcontrol]
    exacts [hquote.1, fun h => absurd h hquote.2, fun _ h => absurd h hquote.2, fun _ _ h => absurd h hquote.2]

/-- A text is read up to its closing quote. -/
theorem readText_flatMap (rest : List Char) {cs : List Char} : ∀ {fuel : Nat} {acc : List Char}, cs.length < fuel →
    readText opening fuel acc (cs.flatMap escape ++ '"' :: rest) = .ok (String.ofList (acc.reverse ++ cs), rest) := by
  induction cs with
  | nil =>
    intro fuel acc hf
    obtain ⟨fuel, rfl⟩ := Nat.exists_eq_succ_of_ne_zero (Nat.ne_of_gt hf)
    rw [List.append_nil]
    rfl
  | cons c cs ih =>
    intro fuel acc hf
    obtain ⟨fuel, rfl⟩ := Nat.exists_eq_succ_of_ne_zero (Nat.ne_of_gt (Nat.zero_lt_of_lt hf))
    rw [List.flatMap_cons, List.append_assoc, readText_escape opening fuel acc c (by simp),
      ih (Nat.lt_of_succ_lt_succ hf), List.reverse_cons, List.append_assoc, List.singleton_append]

theorem toList_quote (s : String) : (quote s).toList = '"' :: (s.toList.flatMap escape ++ ['"']) := by
  rw [quote, String.toList_ofList, List.cons_append]

theorem length_lt_quote (s : String) : s.toList.length + 1 < (quote s).toList.length := by
  have hescape : ∀ c, 1 ≤ (escape c).length := fun c => by
    unfold escape
    split_ifs <;> simp
  have hbody : s.toList.length ≤ (s.toList.flatMap escape).length := by
    induction s.toList with
    | nil => exact Nat.le_refl _
    | cons c cs ih =>
      have hc := hescape c
      simp only [List.flatMap_cons, List.length_append, List.length_cons]
      omega
  simp only [toList_quote, List.length_cons, List.length_append, List.length_nil]
  omega

/-- A quoted text is read back. -/
theorem readText_quote (s : String) (rest : List Char) {fuel : Nat} (hf : (quote s).toList.length ≤ fuel + 1) :
    ∃ cs, (quote s).toList ++ rest = '"' :: cs ∧ readText opening fuel [] cs = .ok (s, rest) := by
  have hl := length_lt_quote s
  refine ⟨s.toList.flatMap escape ++ '"' :: rest, ?_, ?_⟩
  · rw [toList_quote, List.cons_append, List.append_assoc, List.singleton_append]
  · rw [readText_flatMap opening rest (by omega), List.reverse_nil, List.nil_append, String.ofList_toList]

end Texts

/-! ## How values begin -/

/-- The characters with which simple values begin. -/
def firstChars : List Char := ['n', 't', 'f', '"', '[', '\x7b']

/-- The characters begin as a simple value does. -/
def Begins (cs : List Char) : Prop := ∃ c ds, cs = c :: ds ∧ c ∈ firstChars

theorem isSpace_firstChars : ∀ c ∈ firstChars, isSpace c = false := by
  simp [firstChars, isSpace]

theorem skipSpace_cons {c : Char} (h : isSpace c = false) (cs : List Char) : skipSpace (c :: cs) = c :: cs :=
  List.dropWhile_cons_of_neg (by simp [h])

theorem Begins.append {cs : List Char} (h : Begins cs) (rest : List Char) : Begins (cs ++ rest) := by
  obtain ⟨c, ds, rfl, hc⟩ := h
  exact ⟨c, ds ++ rest, rfl, hc⟩

theorem Begins.skipSpace_eq {cs : List Char} (h : Begins cs) : skipSpace cs = cs := by
  obtain ⟨c, ds, rfl, hc⟩ := h
  exact skipSpace_cons (isSpace_firstChars c hc) ds

/-! ## Parts between commas -/

section Joined

variable {α : Type} {write : α → List Char} {x y : α} {xs ys : List α}

/-- What is written for parts, with commas between them. -/
def joined (write : α → List Char) (xs : List α) : List Char := [','].intercalate (xs.map write)

theorem joined_singleton : joined write [x] = write x := List.intercalate_singleton

theorem joined_cons_cons : joined write (x :: y :: ys) = write x ++ ',' :: joined write (y :: ys) := by
  rw [joined, List.map_cons, List.map_cons, List.intercalate_cons_cons, List.append_assoc]
  rfl

theorem Begins.joined (h : Begins (write x)) : Begins (joined write (x :: xs)) := by
  cases xs with
  | nil => rwa [joined_singleton]
  | cons y ys =>
    rw [joined_cons_cons]
    exact h.append _

end Joined

/-- The characters of a value. -/
def chars (j : Json) : List Char := j.text.toList

/-- The characters of a field. -/
def fieldChars (f : String × Json) : List Char := (quote f.1).toList ++ ':' :: f.2.chars

theorem chars_arr (items : List Json) : (arr items).chars = '[' :: (joined chars items ++ [']']) := by
  have hitems : textItems items = items.map text := by
    induction items with
    | nil => rfl
    | cons x xs ih => rw [textItems, ih, List.map_cons]
  rw [chars, text, hitems, String.toList_append, String.toList_append, String.toList_intercalate, List.map_map]
  rfl

theorem chars_obj (fields : List (String × Json)) :
    (obj fields).chars = '\x7b' :: (joined fieldChars fields ++ ['\x7d']) := by
  have hfields : textFields fields = fields.map fun f => quote f.1 ++ ":" ++ f.2.text := by
    induction fields with
    | nil => rfl
    | cons f fs ih => rw [textFields, ih, List.map_cons]
  have hchars : ∀ f : String × Json, (quote f.1 ++ ":" ++ f.2.text).toList = fieldChars f := fun f => by
    rw [String.toList_append, String.toList_append, fieldChars, List.append_assoc]
    rfl
  rw [chars, text, hfields, String.toList_append, String.toList_append, String.toList_intercalate, List.map_map]
  simp only [Function.comp_def, hchars]
  rfl

theorem begins_quote (s : String) : Begins (quote s).toList :=
  ⟨'"', _, toList_quote s, by decide⟩

theorem begins_fieldChars (f : String × Json) : Begins (fieldChars f) := (begins_quote f.1).append _

theorem IsSimple.begins {n : Nat} {j : Json} (h : j.IsSimple n) : Begins j.chars := by
  cases h with
  | null => exact ⟨'n', _, rfl, by decide⟩
  | bool b => cases b <;> exact ⟨_, _, rfl, by decide⟩
  | str s => exact begins_quote s
  | arr _ => exact ⟨'[', _, chars_arr _, by decide⟩
  | obj _ _ => exact ⟨'\x7b', _, chars_obj _, by decide⟩

/-! ## Values -/

/-- What is written for a value is read as this value, whatever follows, if so many levels are left. Two units of fuel
for every character are enough. -/
structure IsReadBack (levels : Nat) (j : Json) : Prop where
  begins : Begins j.chars
  read : ∀ {fuel rest}, 2 * j.chars.length ≤ fuel + 1 →
    readValue (fuel + 1) levels (j.chars ++ rest) = .ok (j, rest)

section Parts

variable {levels fuel : Nat} {rest : List Char}

theorem IsReadBack.readValue_eq {j : Json} (h : j.IsReadBack levels) (hf : 2 * j.chars.length ≤ fuel) :
    readValue fuel levels (j.chars ++ rest) = .ok (j, rest) := by
  obtain ⟨c, ds, hcs, -⟩ := h.begins
  have hpos : 0 < fuel := by
    rw [hcs, List.length_cons] at hf
    omega
  obtain ⟨fuel, rfl⟩ := Nat.exists_eq_succ_of_ne_zero (Nat.ne_of_gt hpos)
  exact h.read hf

/-- Items are read back, the first one being next. -/
theorem readItems_joined {items : List Json} (hne : items ≠ []) (h : ∀ x ∈ items, x.IsReadBack levels)
    (hf : 2 * (joined chars items).length + 1 ≤ fuel) :
    readItems fuel levels (joined chars items ++ ']' :: rest) = .ok (items, rest) := by
  induction items generalizing fuel with
  | nil => exact absurd rfl hne
  | cons x xs ih =>
    obtain ⟨hx, hxs⟩ := List.forall_mem_cons.1 h
    -- the step to the next item costs one unit, and the comma in front of it gives two
    obtain ⟨fuel, rfl⟩ := Nat.exists_eq_succ_of_ne_zero (Nat.ne_of_gt (Nat.zero_lt_of_lt hf))
    cases xs with
    | nil =>
      rw [joined_singleton] at hf ⊢
      rw [readItems, hx.readValue_eq (by omega)]
      rfl
    | cons y ys =>
      rw [joined_cons_cons] at hf ⊢
      rw [List.length_append, List.length_cons] at hf
      have hcomma : ∀ cs, skipSpace (',' :: cs) = ',' :: cs := skipSpace_cons (by decide)
      have hys : Begins (joined chars (y :: ys) ++ ']' :: rest) := (hxs y List.mem_cons_self).begins.joined.append _
      have hread : readItems fuel levels (joined chars (y :: ys) ++ ']' :: rest) = .ok (y :: ys, rest) :=
        ih (by simp) hxs (by omega)
      rw [List.append_assoc, List.cons_append, readItems, hx.readValue_eq (by omega)]
      simp only [bind, Except.bind, hcomma, hys.skipSpace_eq, hread]
      rfl

/-- A field is read in front of what follows: the end of the object or the next field. -/
theorem readFields_fieldChars {before : List (String × Json)} {f : String × Json} {c : Char}
    (hv : f.2.IsReadBack levels) (hn : f.1 ∉ before.map (·.1)) (hc : isSpace c = false)
    (hf : 2 * (fieldChars f).length ≤ fuel) :
    readFields (fuel + 1) levels before (fieldChars f ++ c :: rest) =
      if c = '\x7d' then .ok (before ++ [f], rest)
      else if c = ',' then readFields fuel levels (before ++ [f]) (skipSpace rest)
      else stop .noComma (c :: rest) := by
  have hnew : withEntry before f.1 f.2 = before ++ [f] := by
    refine if_neg fun hany => hn ?_
    obtain ⟨e, he, hname⟩ := List.any_eq_true.1 hany
    exact List.mem_map.2 ⟨e, he, eq_of_beq hname⟩
  have hcolon : ∀ cs, skipSpace (':' :: cs) = ':' :: cs := skipSpace_cons (by decide)
  have hbegins : Begins (f.2.chars ++ c :: rest) := hv.begins.append _
  rw [fieldChars, List.length_append, List.length_cons] at hf
  obtain ⟨cs, hcs, hname⟩ := readText_quote (fieldChars f ++ c :: rest) f.1 (':' :: (f.2.chars ++ c :: rest))
    (by omega : _ ≤ fuel + 1)
  have hvalue : readValue fuel levels (f.2.chars ++ c :: rest) = .ok (f.2, c :: rest) :=
    hv.readValue_eq (by omega)
  -- where a text is not closed its opening quote is named, so the characters occur in the reader of the name as well
  rw [fieldChars, List.append_assoc, List.cons_append, hcs] at hname ⊢
  rw [readFields, hname]
  simp only [bind, Except.bind, hcolon, hbegins.skipSpace_eq, hvalue, hnew, skipSpace_cons hc]
  split_ifs with hend hcomma
  · subst hend; rfl
  · subst hcomma; rfl
  · simp [hend, hcomma]

/-- Fields are read back after those before, the first one being next. -/
theorem readFields_joined {before fields : List (String × Json)} (hne : fields ≠ [])
    (h : ∀ f ∈ fields, f.2.IsReadBack levels) (hn : ((before ++ fields).map (·.1)).Nodup)
    (hf : 2 * (joined fieldChars fields).length + 1 ≤ fuel) :
    readFields fuel levels before (joined fieldChars fields ++ '\x7d' :: rest) = .ok (before ++ fields, rest) := by
  induction fields generalizing fuel before with
  | nil => exact absurd rfl hne
  | cons f fs ih =>
    obtain ⟨hv, hfs⟩ := List.forall_mem_cons.1 h
    obtain ⟨fuel, rfl⟩ := Nat.exists_eq_succ_of_ne_zero (Nat.ne_of_gt (Nat.zero_lt_of_lt hf))
    have hnew : f.1 ∉ before.map (·.1) := by
      rw [List.map_append, List.nodup_append] at hn
      exact fun hm => hn.2.2 _ hm _ List.mem_cons_self rfl
    cases fs with
    | nil =>
      rw [joined_singleton] at hf ⊢
      rw [readFields_fieldChars hv hnew (by decide) (by omega), if_pos rfl]
    | cons g gs =>
      rw [joined_cons_cons] at hf ⊢
      rw [List.length_append, List.length_cons] at hf
      have hgs : Begins (joined fieldChars (g :: gs) ++ '\x7d' :: rest) := (begins_fieldChars g).joined.append _
      have hn' : ((before ++ [f] ++ g :: gs).map (·.1)).Nodup := by
        rwa [List.append_assoc, List.singleton_append]
      rw [List.append_assoc, List.cons_append, readFields_fieldChars hv hnew (by decide) (by omega),
        if_neg (by decide), if_pos rfl, hgs.skipSpace_eq, ih (by simp) hfs hn' (by omega), List.append_assoc,
        List.singleton_append]

/-- An array whose first item is next is read item by item. -/
theorem readValue_arr {cs : List Char} (h : Begins cs) : readValue (fuel + 1) (levels + 1) ('[' :: cs) =
    (readItems fuel levels cs).map fun r => (.arr r.1, r.2) := by
  rw [readValue, h.skipSpace_eq]
  obtain ⟨c, ds, rfl, hc⟩ := h
  simp only [firstChars, List.mem_cons, List.not_mem_nil, or_false] at hc
  rcases hc with rfl | rfl | rfl | rfl | rfl | rfl <;> rfl

/-- An object whose first field is next is read field by field. -/
theorem readValue_obj {cs : List Char} (h : Begins cs) : readValue (fuel + 1) (levels + 1) ('\x7b' :: cs) =
    (readFields fuel levels [] cs).map fun r => (.obj r.1, r.2) := by
  rw [readValue, h.skipSpace_eq]
  obtain ⟨c, ds, rfl, hc⟩ := h
  simp only [firstChars, List.mem_cons, List.not_mem_nil, or_false] at hc
  rcases hc with rfl | rfl | rfl | rfl | rfl | rfl <;> rfl

end Parts

/-- Simple values are read back. -/
theorem IsSimple.isReadBack {levels : Nat} {j : Json} (h : j.IsSimple levels) : j.IsReadBack levels := by
  induction h with
  | null => exact ⟨(isSimple_null (n := 0)).begins, fun _ => rfl⟩
  | bool b => exact ⟨(isSimple_bool (n := 0) b).begins, fun _ => by cases b <;> rfl⟩
  | str s =>
    refine ⟨begins_quote s, fun {fuel rest} hf => ?_⟩
    have hl := length_lt_quote s
    change 2 * (quote s).toList.length ≤ fuel + 1 at hf
    change readValue (fuel + 1) _ ((quote s).toList ++ rest) = _
    obtain ⟨cs, hcs, hread⟩ := readText_quote ((quote s).toList ++ rest) s rest (by omega : _ ≤ fuel + 1)
    rw [hcs] at hread ⊢
    rw [readValue, hread]
    rfl
  | @arr n items h ih =>
    refine ⟨(IsSimple.arr h).begins, fun {fuel rest} hf => ?_⟩
    rw [chars_arr] at hf ⊢
    simp only [List.length_cons, List.length_append, List.length_nil] at hf
    rw [List.cons_append, List.append_assoc, List.singleton_append]
    cases items with
    | nil => rfl
    | cons x xs =>
      rw [readValue_arr ((h x List.mem_cons_self).begins.joined.append _), readItems_joined (by simp) ih (by omega)]
      rfl
  | @obj n fields hn h ih =>
    refine ⟨(IsSimple.obj hn h).begins, fun {fuel rest} hf => ?_⟩
    rw [chars_obj] at hf ⊢
    simp only [List.length_cons, List.length_append, List.length_nil] at hf
    rw [List.cons_append, List.append_assoc, List.singleton_append]
    cases fields with
    | nil => rfl
    | cons f fs =>
      rw [readValue_obj ((begins_fieldChars f).joined.append _), readFields_joined (by simp) ih hn (by omega)]
      rfl

/-! ## Texts and bodies -/

section Sources

variable {levels : Nat} {j : Json}

theorem readChars_chars (h : j.IsSimple levels) : readChars levels j.chars = .ok j := by
  have hvalue : readValue (2 * j.chars.length + 2) levels (j.chars ++ []) = .ok (j, []) :=
    h.isReadBack.readValue_eq (Nat.le_add_right (2 * j.chars.length) 2)
  rw [List.append_nil] at hvalue
  rw [readChars, readAll, h.begins.skipSpace_eq, hvalue]
  rfl

/-- A simple value is read back from its text. -/
theorem read_text (h : j.IsSimple deepest) : read j.text = .ok j := by
  have hread := readChars_chars h
  obtain ⟨c, ds, hcs, hc⟩ := h.begins
  have hsource : j.text.toList = c :: ds := hcs
  rw [hcs] at hread
  simp only [firstChars, List.mem_cons, List.not_mem_nil, or_false] at hc
  rw [read, hsource]
  rcases hc with rfl | rfl | rfl | rfl | rfl | rfl <;> exact hread

/-- The bytes of a string are those of its characters. -/
theorem toList_toUTF8 (s : String) : s.toUTF8.toList = s.toList.flatMap String.utf8EncodeChar := by
  have hloop : ∀ (bs : ByteArray) (i : Nat) (acc : List UInt8),
      ByteArray.toList.loop bs i acc = acc.reverse ++ bs.data.toList.drop i := by
    intro bs i acc
    fun_induction ByteArray.toList.loop bs i acc with
    | case1 i acc h ih =>
      have hi : i < bs.data.toList.length := by simpa using h
      rw [ih, List.drop_eq_getElem_cons hi]
      simp [ByteArray.get!, h]
    | case2 i acc h =>
      rw [List.drop_eq_nil_of_le (by simpa using Nat.le_of_not_lt h)]
      simp
  have hbytes : s.toUTF8.data = (s.toList.flatMap String.utf8EncodeChar).toArray := by
    conv_lhs => rw [← String.ofList_toList (s := s)]
    rw [String.toUTF8_eq_toByteArray, String.toByteArray_ofList, List.utf8Encode, List.data_toByteArray]
  rw [ByteArray.toList, hloop, hbytes]
  simp

/-- Bytes are UTF-8 if the first two are no zeros. -/
theorem ofBytes_of_ne_zero {a b : UInt8} (ha : a ≠ 0) (hb : b ≠ 0) (bs : List UInt8) :
    Text.Encoding.ofBytes (a :: b :: bs) = .utf8 := by
  match bs with
  | [] => simp [Text.Encoding.ofBytes, ha, hb]
  | [_] => rfl
  | _ :: _ :: _ => simp [Text.Encoding.ofBytes, ha, hb]

/-- The text of an object that is sent as a body is read as UTF-8. -/
theorem bodySigns?_obj (fields : List (String × Json)) :
    bodySigns? (obj fields).text = some ((obj fields).chars.map .character) := by
  have hchars : ∃ c cs, (obj fields).chars = '\x7b' :: c :: cs ∧ c ∈ '\x7d' :: firstChars := by
    rw [chars_obj]
    cases fields with
    | nil => exact ⟨'\x7d', [], rfl, List.mem_cons_self⟩
    | cons f fs =>
      obtain ⟨c, cs, hcs, hc⟩ := (begins_fieldChars f).joined.append ['\x7d']
      exact ⟨c, cs, congrArg _ hcs, List.mem_cons_of_mem _ hc⟩
  have hbytes : ∀ c ∈ '\x7d' :: firstChars,
      String.utf8EncodeChar c = [c.val.toUInt8] ∧ c.val.toUInt8 ≠ 0 := by
    simp only [firstChars, List.forall_mem_cons, List.not_mem_nil, false_implies, implies_true, and_true]
    decide
  obtain ⟨c, cs, hcs, hc⟩ := hchars
  have hsource : (obj fields).text.toList = '\x7b' :: c :: cs := hcs
  have hutf8 : Text.Encoding.ofBytes (obj fields).text.toUTF8.toList = .utf8 := by
    obtain ⟨hbrace, hne⟩ := hbytes '\x7b' (by decide)
    obtain ⟨hsecond, hne'⟩ := hbytes c hc
    rw [toList_toUTF8, hsource, List.flatMap_cons, List.flatMap_cons, hbrace, hsecond]
    exact ofBytes_of_ne_zero hne hne' _
  rw [bodySigns?, hutf8, hsource, hcs]
  rfl

/-- An object is read back from its text as the body of a request if every character in it stands for itself. -/
theorem readBody_text {fields : List (String × Json)} (h : (obj fields).IsSimple deepestBody)
    (hm : ∀ c ∈ (obj fields).chars, c ≠ Text.mark) : readBody (obj fields).text = some (.ok (obj fields)) := by
  have hflat : ∀ {cs : List Char}, (∀ c ∈ cs, c ≠ Text.mark) →
      (cs.map Text.Sign.character).flatMap Text.Sign.characters = cs := by
    intro cs hcs
    induction cs with
    | nil => rfl
    | cons c cs ih =>
      obtain ⟨hc, hcs⟩ := List.forall_mem_cons.1 hcs
      rw [List.map_cons, List.flatMap_cons, ih hcs, Text.Sign.characters, if_neg hc]
      rfl
  rw [readBody, bodySigns?_obj, Option.map_some, hflat hm, readChars_chars h]

end Sources

end AccessPlan.Json
