import AccessPlan.Calendar.Timestamp
import AccessPlan.Text.Utf8

/-!
# Texts without halves, put together

A text is whole if no half of a surrogate pair stands in it. Joining two texts may join two of their
characters to one sign, but not at a place next to ASCII characters: those are neither the mark nor what may
follow it.

* `isWhole_between`: between ASCII texts a text is whole exactly when it is whole on its own.
* `isAscii_isoText`: the extended form of a timestamp is an ASCII text.
-/

namespace AccessPlan.Text

/-- The characters are ASCII characters. -/
def IsAscii (cs : List Char) : Prop := ∀ c ∈ cs, c.toNat < 128

instance (cs : List Char) : Decidable (IsAscii cs) := List.decidableBAll (fun c : Char => c.toNat < 128) cs

variable {c d : Char} {cs ds : List Char}

theorem IsAscii.append (hc : IsAscii cs) (hd : IsAscii ds) : IsAscii (cs ++ ds) := fun c h =>
  (List.mem_append.1 h).elim (hc c) (hd c)

theorem IsAscii.cons (hc : c.toNat < 128) (hd : IsAscii ds) : IsAscii (c :: ds) := List.forall_mem_cons.2 ⟨hc, hd⟩

theorem ne_mark_of_ascii (h : c.toNat < 128) : c ≠ mark := by
  rintro rfl
  exact absurd h (by decide)

theorem markedCode?_of_ascii (h : c.toNat < 128) : markedCode? c = none := if_neg (by omega)

/-- ASCII characters in front are signs of their own. -/
theorem signsOf_ascii_append : ∀ {cs : List Char}, IsAscii cs → signsOf (cs ++ ds) = cs.map .character ++ signsOf ds
  | [], _ => rfl
  | c :: cs, h => by
    obtain ⟨hc, hcs⟩ := List.forall_mem_cons.1 h
    rw [List.cons_append, signsOf_cons (ne_mark_of_ascii hc), signsOf_ascii_append hcs]
    rfl

/-- What stands in front of an ASCII text is read as if nothing followed. -/
theorem signsOf_append_ascii (hd : IsAscii ds) : ∀ cs : List Char, signsOf (cs ++ ds) = signsOf cs ++ signsOf ds := by
  intro cs
  fun_induction signsOf cs with
  | case1 => rfl
  | case2 c =>
    cases ds with
    | nil => rfl
    | cons d ds =>
      have hn : codeBehind? c d = none := by
        rw [codeBehind?, markedCode?_of_ascii (hd d List.mem_cons_self), ite_self]
      rw [List.singleton_append, signsOf, hn]
      rfl
  | case3 c d cs code h ih =>
    rw [List.cons_append, List.cons_append, signsOf, h]
    exact congrArg _ ih
  | case4 c d cs h ih =>
    rw [List.cons_append, List.cons_append, signsOf, h]
    exact congrArg _ ih

theorem any_isHalf_ascii (h : IsAscii cs) : (signsOf cs).any Sign.isHalf = false := by
  have hs : signsOf (cs ++ []) = _ := signsOf_ascii_append h
  rw [List.append_nil] at hs
  rw [hs, List.any_eq_false]
  intro x hx
  rw [signsOf, List.append_nil] at hx
  obtain ⟨c, -, rfl⟩ := List.mem_map.1 hx
  simp [Sign.isHalf]

/-- Between ASCII texts a text is whole exactly when it is whole on its own. -/
theorem isWhole_between {s t u : String} (hs : IsAscii s.toList) (hu : IsAscii u.toList) :
    isWhole (s ++ t ++ u) = isWhole t := by
  rw [isWhole, isWhole, signs, signs, String.toList_append, String.toList_append, signsOf_append_ascii hu,
    signsOf_ascii_append hs, List.any_append, List.any_append, any_isHalf_ascii hu, Bool.or_false]
  simp [Sign.isHalf]

/-! ## Timestamps -/

theorem isAscii_padded : ∀ width n : Nat, IsAscii (padded width n)
  | 0, _ => by simp [IsAscii, padded]
  | width + 1, n => by
    have hd : ∀ k < 10, (Nat.digitChar k).toNat < 128 := by decide
    refine (isAscii_padded width (n / 10)).append (IsAscii.cons ?_ (by simp [IsAscii]))
    exact hd _ (Nat.mod_lt n (by decide))

theorem isAscii_fractionText (micros : Nat) : IsAscii (Calendar.Timestamp.fractionText micros) := by
  unfold Calendar.Timestamp.fractionText
  split
  · simp [IsAscii]
  · exact .cons (by decide) (isAscii_padded 6 micros)

theorem isAscii_signedOffset (minutes : Int) : IsAscii (Calendar.Timestamp.signedOffset minutes) := by
  refine .cons ?_ ((isAscii_padded _ _).append (.cons (by decide) (isAscii_padded _ _)))
  split <;> decide

/-- The extended form of a timestamp is an ASCII text. -/
theorem isAscii_isoText (t : Calendar.Timestamp) : IsAscii t.isoText.toList := by
  rw [Calendar.Timestamp.isoText, String.toList_ofList]
  refine IsAscii.append ?_ ?_
  · unfold Calendar.Timestamp.clockText
    have hs := fun (c : Char) (h : c.toNat < 128) (n : Nat) => IsAscii.cons h (isAscii_padded 2 n)
    exact (((((isAscii_padded 4 _).append (hs '-' (by decide) _)).append (hs '-' (by decide) _)).append
      (hs 'T' (by decide) _)).append (hs ':' (by decide) _)).append (hs ':' (by decide) _) |>.append
      (isAscii_fractionText _)
  · cases t.offset with
    | none => simp [IsAscii]
    | some minutes => exact isAscii_signedOffset minutes

end AccessPlan.Text
