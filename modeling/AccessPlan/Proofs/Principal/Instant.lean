import AccessPlan.Proofs.Calendar.RoundTrip
import AccessPlan.Proofs.Principal.Issuing

/-!
# Credentials of one instant

One instant is written in many ways, by clocks of different offsets. Validities that begin at one instant end at one
instant (`instant_endAfter`), but the id of a credential is derived from its end date as the clock shows it, and two
ways to write an instant never give the same text (`idSource_eq_iff`).

* `exists_reissued_iff`: whether a credential is issued depends on the clock only at the ends of the calendar.
* `isReissued_of_issue`: credentials that are issued at one instant agree in everything but their ids.
* `IsReissued.same_iff`: so they are the same exactly if their ids are.
-/

namespace AccessPlan

open Calendar (Timestamp Amount clockLimit)

/-- What a clock of an offset shows at the instant of a timestamp; it may be outside of the calendar. -/
def Calendar.Timestamp.clockAt (t : Timestamp) (offset : Option Int) : Int :=
  t.instant + offset.getD 0 * Calendar.minuteLength

namespace Credential

section EndDates

variable {now now' e e' : Timestamp} {days : Amount} {key : String}

/-- Validities of as many days that begin at one instant end at one instant. -/
theorem instant_endAfter (hnow : now.instant = now'.instant) (h : endAfter now days = .ok e)
    (h' : endAfter now' days = .ok e') : e.instant = e'.instant := by
  obtain ⟨span, hspan, hl⟩ := bind_eq_ok.1 h
  obtain ⟨span', hspan', hl'⟩ := bind_eq_ok.1 h'
  obtain rfl := Except.ok.inj (hspan.symm.trans hspan')
  rw [Timestamp.instant_later hl, Timestamp.instant_later hl', hnow]

theorem offset_endAfter (h : endAfter now days = .ok e) : e.offset = now.offset := by
  obtain ⟨span, -, hl⟩ := bind_eq_ok.1 h
  exact Timestamp.offset_later hl

/-- The texts that ids are derived from tell apart how an instant is written. -/
theorem idSource_eq_iff (hi : e.instant = e'.instant) : idSource key e = idSource key e' ↔ e.offset = e'.offset := by
  constructor
  · intro h
    rw [Timestamp.isoText_injective ((String.append_right_inj _).1 h)]
  · intro ho
    rw [Timestamp.eq_of_instant hi ho]

theorem idOf_congr {key' : String} (h : idSource key e = idSource key' e') : idOf key e = idOf key' e' := by
  unfold idOf
  rw [h]

end EndDates

/-- The end of a credential as a clock shows it, and the id that is derived from this. -/
structure EndsAt (c : Credential) (e : Timestamp) : Prop where
  endDate : c.endDate = e.asUtc
  keyId : idOf c.applicationId e = .ok c.keyId

/-- Two credentials that were issued at one instant, as clocks of two offsets show it. -/
structure IsReissued (offset offset' : Option Int) (c c' : Credential) : Prop where
  key : c'.key = c.key
  applicationId : c'.applicationId = c.applicationId
  endDate : c'.endDate.instant = c.endDate.instant
  secret : c'.secret = none ∧ c.secret = none
  sensitive : c'.sensitive = c.sensitive
  /-- The texts that their ids are derived from are equal only if the offsets are. -/
  ids : ∃ e e', c.EndsAt e ∧ c'.EndsAt e' ∧
    (idSource c.applicationId e = idSource c'.applicationId e' ↔ offset = offset')

section Reissued

variable {now now' : Timestamp} {days : Amount} {applicationKey name : String} {offset offset' : Option Int}
  {c c' : Credential}

/-- Credentials that are issued at one instant agree in everything but their ids. -/
theorem isReissued_of_issue (hnow : now.instant = now'.instant) (h : issue applicationKey name now days = .ok c)
    (h' : issue applicationKey name now' days = .ok c') : IsReissued now.offset now'.offset c c' := by
  obtain ⟨e, keyId, he, hid, rfl⟩ := issue_eq_ok_iff.1 h
  obtain ⟨e', keyId', he', hid', rfl⟩ := issue_eq_ok_iff.1 h'
  have hinstant := instant_endAfter hnow he he'
  exact {
    key := rfl
    applicationId := rfl
    endDate := hinstant.symm
    secret := ⟨rfl, rfl⟩
    sensitive := rfl
    ids := by
      refine ⟨e, e', ⟨rfl, hid⟩, ⟨rfl, hid'⟩, ?_⟩
      rw [idSource_eq_iff hinstant, offset_endAfter he, offset_endAfter he'] }

/-- If a credential is issued, one is issued at the same instant by another clock exactly if that clock can show the end
date. -/
theorem exists_reissued_iff (hnow : now.instant = now'.instant) (h : issue applicationKey name now days = .ok c) :
    (∃ c', issue applicationKey name now' days = .ok c') ↔
      0 ≤ c.endDate.clockAt now'.offset ∧ c.endDate.clockAt now'.offset < clockLimit := by
  obtain ⟨e, keyId, he, hid, rfl⟩ := issue_eq_ok_iff.1 h
  obtain ⟨span, hspan, hl⟩ := bind_eq_ok.1 he
  have hclock : e.asUtc.clockAt now'.offset = now'.clock + span := by
    have hinstant := Timestamp.instant_later hl
    rw [Timestamp.clockAt, Timestamp.instant_asUtc, hinstant, hnow, Timestamp.instant]
    omega
  have hend : endAfter now' days = now'.later span := by
    rw [endAfter, hspan]
    rfl
  have hwhole := exists_idOf_iff.1 ⟨keyId, hid⟩
  rw [hclock, ← Timestamp.exists_later_iff]
  simp only [issue_eq_ok_iff, hend]
  constructor
  · rintro ⟨_, e', _, hl', -⟩
    exact ⟨e', hl'⟩
  · rintro ⟨e', hl'⟩
    obtain ⟨keyId', hid'⟩ : ∃ keyId', idOf applicationKey e' = .ok keyId' := exists_idOf_iff.2 hwhole
    exact ⟨_, e', keyId', hl', hid', rfl⟩

/-- Two such credentials are the same exactly if their ids are. -/
theorem IsReissued.same_iff (h : IsReissued offset offset' c c') : c'.same c = true ↔ c'.keyId = c.keyId := by
  have hnone : ((none : Option Json) == none) = true := rfl
  simp [same, Timestamp.sameInstant, h.key, h.applicationId, h.endDate, h.secret, h.sensitive, hnone]

/-- Of one offset, their ids are the same. -/
theorem IsReissued.keyId_eq (h : IsReissued offset offset' c c') (ho : offset = offset') : c'.keyId = c.keyId := by
  obtain ⟨e, e', he, he', hsource⟩ := h.ids
  have hid := idOf_congr (hsource.2 ho)
  rw [he.keyId, he'.keyId] at hid
  exact (Except.ok.inj hid).symm

end Reissued

end Credential

/-! ## An offset that is not stated -/

/-- The first instant by a clock of unknown offset, which is read as Coordinated Universal Time. -/
def unstated : Timestamp := ⟨0, none, Timestamp.earliest.clock_lt, nofun⟩

theorem instant_unstated : unstated.instant = Timestamp.earliest.instant := by decide

theorem exists_not_same_unstated : ∃ old new,
    Credential.issue "application-deployer" "deployer" unstated (.whole 90) = .ok old ∧
    Credential.issue "application-deployer" "deployer" .earliest (.whole 90) = .ok new ∧ new.same old = false := by
  have hrotation : leastRotationDays ≤ 90 ∧ (90 : Int) ≤ greatestRotationDays := by decide
  have hissue : ∀ now, CanIssue now 90 "deployer" →
      ∃ cr, Credential.issue "application-deployer" "deployer" now (.whole 90) = .ok cr := fun now =>
    (exists_issue_iff hrotation).2
  obtain ⟨old, ho⟩ := hissue unstated (by decide +kernel)
  obtain ⟨new, hn⟩ := hissue .earliest (by decide +kernel)
  have hids : ((Credential.issue "application-deployer" "deployer" unstated (.whole 90)).map (·.keyId)).toOption ≠
      ((Credential.issue "application-deployer" "deployer" .earliest (.whole 90)).map (·.keyId)).toOption := by
    decide +kernel
  refine ⟨old, new, ho, hn, ?_⟩
  rw [← Bool.not_eq_true, (Credential.isReissued_of_issue instant_unstated ho hn).same_iff]
  intro hid
  apply hids
  rw [ho, hn]
  exact congrArg some hid.symm

end AccessPlan
