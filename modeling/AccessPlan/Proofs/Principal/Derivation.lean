import AccessPlan.Proofs.Principal.Instant
import AccessPlan.Proofs.Principal.RepeatedRotation
import AccessPlan.Proofs.Text.Join

/-!
# What the ids of credentials are derived from

The id of a credential is derived from the key of its application, a colon and the end date in its extended form. A
colon stands in the end date too and may stand in the key, and end dates are of four lengths, so neither the colon nor
a length tells where the key ends. But the last `T` of the text is the one between date and time, and the date in front
of it has a fixed length: the text tells the key and the end date, and how this one is written (`idSource_injective`).

So credentials of two applications or of two ends never have one text, and a rotation never keeps the text of what it
renews (`sources_differ`).
-/

namespace AccessPlan

open Calendar (Timestamp Amount dayLength offsetText timeText)

/-- A list before the last occurrence of a mark, and the rest, are determined by the whole. -/
theorem append_lastMark_inj {α : Type} {x : α} {as bs as' bs' : List α} (h : x ∉ bs) (h' : x ∉ bs')
    (he : as ++ x :: bs = as' ++ x :: bs') : as = as' ∧ bs = bs' := by
  have hreverse : bs.reverse ++ x :: as.reverse = bs'.reverse ++ x :: as'.reverse := by
    simpa using congrArg List.reverse he
  obtain ⟨hbs, has⟩ := (append_mark_inj (List.mem_reverse.not.2 h) (List.mem_reverse.not.2 h')).1 hreverse
  exact ⟨List.reverse_injective has, List.reverse_injective hbs⟩

/-! ## The mark between date and time -/

section Mark

theorem mark_notMem_padded (width n : Nat) : 'T' ∉ Text.padded width n := fun h =>
  absurd (Calendar.isDigit_padded width n 'T' h) (by decide)

theorem mark_notMem_timeText (micros : Nat) : 'T' ∉ timeText micros := by
  have hfraction : 'T' ∉ Timestamp.fractionText (micros % 1000000) := by
    unfold Timestamp.fractionText
    split
    · exact List.not_mem_nil
    · simp [mark_notMem_padded]
  simp [timeText, mark_notMem_padded, hfraction]

theorem mark_notMem_offsetText (offset : Option Int) : 'T' ∉ offsetText offset := by
  cases offset with
  | none => exact List.not_mem_nil
  | some m =>
    have hsign : 'T' ≠ if m < 0 then '-' else '+' := by split <;> decide
    simp [offsetText, Timestamp.signedOffset, mark_notMem_padded, hsign]

/-- What stands behind the mark of a timestamp: the time and the offset. -/
def Calendar.Timestamp.behindMark (t : Timestamp) : List Char := timeText (t.clock % dayLength) ++ offsetText t.offset

theorem mark_notMem_behindMark (t : Timestamp) : 'T' ∉ t.behindMark := fun h =>
  (List.mem_append.1 h).elim (mark_notMem_timeText _) (mark_notMem_offsetText _)

theorem toList_isoText (t : Timestamp) : t.isoText.toList = t.date.text ++ 'T' :: t.behindMark := by
  rw [Timestamp.isoText, String.toList_ofList, Timestamp.clockText_eq, List.append_assoc]
  rfl

end Mark

namespace Credential

/-- The id of a credential is derived from its end date as a timestamp writes it. -/
structure IsDerivedFrom (c : Credential) (e : Timestamp) : Prop where
  instant : e.instant = c.endDate.instant
  keyId : idOf c.applicationId e = .ok c.keyId

section Sources

variable {key key' : String} {e e' : Timestamp} {c c' : Credential}

/-- The text that an id is derived from, split at the mark of the end date. -/
theorem toList_idSource (key : String) (e : Timestamp) :
    (idSource key e).toList = (key.toList ++ ':' :: e.date.text) ++ 'T' :: e.behindMark := by
  simp [idSource, toList_isoText]

/-- The text that an id is derived from tells the application and the end date, and how the latter is written. -/
theorem idSource_injective (h : idSource key e = idSource key' e') : key = key' ∧ e = e' := by
  have hlists : (key.toList ++ ':' :: e.date.text) ++ 'T' :: e.behindMark =
      (key'.toList ++ ':' :: e'.date.text) ++ 'T' :: e'.behindMark := by
    rw [← toList_idSource, ← toList_idSource, h]
  obtain ⟨hfront, hbehind⟩ := append_lastMark_inj (mark_notMem_behindMark e) (mark_notMem_behindMark e') hlists
  -- what is in front of the mark ends in a colon and a date, which are eleven characters
  have hlength : (':' :: e.date.text).length = (':' :: e'.date.text).length := by
    rw [List.length_cons, List.length_cons, Calendar.length_dateText, Calendar.length_dateText]
  obtain ⟨hkey, hdate⟩ := List.append_inj' hfront hlength
  have hiso : e.isoText = e'.isoText := by
    rw [← String.toList_inj, toList_isoText, toList_isoText, hbehind, (List.cons.inj hdate).2]
  exact ⟨String.toList_inj.1 hkey, Timestamp.isoText_injective hiso⟩

/-- The id of a credential that is issued is derived from its end date. -/
theorem exists_isDerivedFrom_of_issue {name : String} {now : Timestamp} {days : Amount}
    (h : issue key name now days = .ok c) :
    ∃ e, endAfter now days = .ok e ∧ c.applicationId = key ∧ c.IsDerivedFrom e := by
  obtain ⟨e, keyId, he, hid, rfl⟩ := issue_eq_ok_iff.1 h
  exact ⟨e, he, rfl, ⟨rfl, hid⟩⟩

/-- Credentials of two applications or of two ends have two texts. -/
theorem IsDerivedFrom.idSource_ne (h : c.IsDerivedFrom e) (h' : c'.IsDerivedFrom e')
    (hne : c.applicationId ≠ c'.applicationId ∨ c.endDate.instant ≠ c'.endDate.instant) :
    idSource c.applicationId e ≠ idSource c'.applicationId e' := by
  intro hs
  obtain ⟨hkey, rfl⟩ := idSource_injective hs
  exact hne.elim (fun hn => hn hkey) fun hn => hn (h.instant.symm.trans h'.instant)

end Sources

end Credential

open Credential

/-- The id of a credential that is renewed is derived from its new end date, and that text is none of its old end. -/
theorem RotationCall.isDerivedFrom_of_run {call : RotationCall} {credentials : List Credential} {r : Rotation}
    {period window : Int} (hd : call.HasDays period window) (h : call.run credentials = .ok r) {i : Nat}
    {c d : Credential} (hc : credentials[i]? = some c) (hget : r.credentials[i]? = some d)
    (hdue : c.IsDue (call.limit window)) :
    d.IsDerivedFrom d.endDate ∧ ∀ e : Timestamp, e.instant = c.endDate.instant →
      idSource c.applicationId e ≠ idSource d.applicationId d.endDate := by
  obtain ⟨d', hd', hcd⟩ := exists_getElem?_of_forall₂ (isOf_of_run hd h).credentials hc
  obtain rfl := Option.some.inj (hget.symm.trans hd')
  refine ⟨⟨rfl, hcd.renewed hdue⟩, fun e he hs => ?_⟩
  obtain ⟨-, rfl⟩ := idSource_injective hs
  exact absurd he (Int.ne_of_gt (hcd.later_iff.2 hdue))

/-- The text that an id is derived from tells the application and the end date. So the ids of credentials whose
applications or ends differ are derived from texts that differ, whether they were issued or renewed, and a rotation
changes the text of every credential that it renews. -/
theorem Credential.sources_differ :
    (∀ key key' e e', idSource key e = idSource key' e' → key = key' ∧ e = e') ∧
    (∀ (c c' : Credential) (e e' : Timestamp), c.IsDerivedFrom e → c'.IsDerivedFrom e' →
      c.applicationId ≠ c'.applicationId ∨ c.endDate.instant ≠ c'.endDate.instant →
        idSource c.applicationId e ≠ idSource c'.applicationId e') ∧
    (∀ key name now days c, issue key name now days = .ok c →
      ∃ e, endAfter now days = .ok e ∧ c.applicationId = key ∧ c.IsDerivedFrom e) ∧
    ∀ (call : RotationCall) (period window : Int) (credentials : List Credential) (r : Rotation),
      call.HasDays period window → call.run credentials = .ok r → ∀ (i : Nat) (c d : Credential),
        credentials[i]? = some c → r.credentials[i]? = some d → c.IsDue (call.limit window) →
          d.IsDerivedFrom d.endDate ∧ ∀ e : Timestamp, e.instant = c.endDate.instant →
            idSource c.applicationId e ≠ idSource d.applicationId d.endDate := by
  refine ⟨fun _ _ _ _ => idSource_injective, fun _ _ _ _ h h' => h.idSource_ne h', ?_, ?_⟩
  · intro key name now days c h
    exact exists_isDerivedFrom_of_issue h
  · intro call period window credentials r hd h i c d hc hget hdue
    exact RotationCall.isDerivedFrom_of_run hd h hc hget hdue

/-- An application whose key continues that of another one by a date, and a rotation of a credential that is due. -/
theorem Credential.sources_differ_dated :
    (∃ c c' e e', issue "application-web" "web" .earliest (.whole 90) = .ok c ∧
      issue "application-web:0001-04-01T00" "web:0001-04-01T00" .earliest (.whole 90) = .ok c' ∧
      c.IsDerivedFrom e ∧ c'.IsDerivedFrom e' ∧ idSource c.applicationId e ≠ idSource c'.applicationId e') ∧
    idSource "application-web" unstated ≠ idSource "application-web:0001-01-01T00" unstated ∧
    ∃ r d, (RotationCall.earliestCall 30).run [credentialUntil "web" 10 (by decide)] = .ok r ∧
      r.credentials[0]? = some d ∧ d.IsDerivedFrom d.endDate ∧
        idSource "application-web" (credentialUntil "web" 10 (by decide)).endDate ≠
          idSource d.applicationId d.endDate := by
  obtain ⟨htells, hdiffer, hissued, hrenewed⟩ := sources_differ
  have hrotation : leastRotationDays ≤ 90 ∧ (90 : Int) ≤ greatestRotationDays := by decide
  have hissue : ∀ name, CanIssue .earliest 90 name →
      ∃ c, issue ("application-" ++ name) name .earliest (.whole 90) = .ok c := fun name =>
    (exists_issue_iff hrotation).2
  refine ⟨?_, fun h => absurd (htells _ _ _ _ h).1 (by decide), ?_⟩
  · obtain ⟨c, hc⟩ := hissue "web" (by decide +kernel)
    obtain ⟨c', hc'⟩ := hissue "web:0001-04-01T00" (by decide +kernel)
    obtain ⟨e, -, hkey, he⟩ := hissued _ _ _ _ _ hc
    obtain ⟨e', -, hkey', he'⟩ := hissued _ _ _ _ _ hc'
    refine ⟨c, c', e, e', hc, hc', he, he', hdiffer c c' e e' he he' (.inl ?_)⟩
    rw [hkey, hkey']
    decide
  · have hone : ((RotationCall.earliestCall 30).run [credentialUntil "web" 10 (by decide)]).toOption.map
        (·.credentials.length) = some 1 := by
      decide +kernel
    cases h : (RotationCall.earliestCall 30).run [credentialUntil "web" 10 (by decide)] with
    | error f =>
      rw [h] at hone
      cases hone
    | ok r =>
      rw [h] at hone
      obtain ⟨d, hd⟩ := List.length_eq_one_iff.1 (Option.some.inj hone)
      have hget : r.credentials[0]? = some d := by rw [hd, List.getElem?_cons_zero]
      obtain ⟨hderived, hchanged⟩ := hrenewed _ 90 30 _ r ⟨rfl, rfl⟩ h 0 _ d rfl hget (by decide)
      exact ⟨r, d, rfl, hget, hderived, hchanged _ rfl⟩

end AccessPlan
