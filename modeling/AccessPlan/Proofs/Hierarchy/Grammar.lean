import AccessPlan.Proofs.Hierarchy.Keys
import AccessPlan.Proofs.Hierarchy.Values

/-!
# Which prefixes and names are accepted

A prefix has one to twenty letters, digits and hyphens (`IsPrefixWord`). A name begins with a lower-case letter or a
digit and goes on with these and hyphens (`IsNameWord`). The checks accept such words, and besides them only such words
with a line break at the very end (`IsLine`).

* `checkPrefix_eq_ok_iff_isLine`, `checkNames_eq_ok_iff_isLine`: what is accepted.
* `forall_mem_key_iff`: the keys of groups are of letters, digits and hyphens exactly if no text that stands in them
  ends in a line break.
* `accepted_iff_isLine`: the three together. `line_breaks_accepted`: a line break does get through.
-/

namespace AccessPlan

/-! ## Words -/

/-- A lower-case ASCII letter or a digit. -/
def IsNameStart (c : Char) : Prop := ('a' ≤ c ∧ c ≤ 'z') ∨ ('0' ≤ c ∧ c ≤ '9')

/-- An ASCII letter, a digit or a hyphen. -/
def IsKeyChar (c : Char) : Prop := IsNameStart c ∨ ('A' ≤ c ∧ c ≤ 'Z') ∨ c = '-'

/-- One to twenty letters, digits and hyphens. -/
structure IsPrefixWord (s : String) : Prop where
  length_pos : 0 < s.length
  length_le : s.length ≤ 20
  isKeyChar : ∀ c ∈ s.toList, IsKeyChar c

/-- A lower-case letter or a digit, followed by such characters and hyphens. -/
def IsNameWord (s : String) : Prop :=
  ∃ first rest, s.toList = first :: rest ∧ IsNameStart first ∧ ∀ c ∈ rest, IsNameStart c ∨ c = '-'

/-- The text is a word, or one with a line break at the very end. -/
def IsLine (IsWord : String → Prop) (s : String) : Prop := ∃ word, IsWord word ∧ (s = word ∨ s = word ++ "\n")

/-- The text does not end in a line break. -/
def IsUnbroken (s : String) : Prop := s.toList.getLast? ≠ some '\n'

section Characters

variable {c : Char}

theorem isLowerOrDigit_iff : isLowerOrDigit c = true ↔ IsNameStart c := by
  have hranges : isLowerOrDigit c =
      (decide ('a' ≤ c) && decide (c ≤ 'z') || decide ('0' ≤ c) && decide (c ≤ '9')) := rfl
  simp only [hranges, IsNameStart, Bool.or_eq_true, Bool.and_eq_true, decide_eq_true_eq]

theorem isNameChar_iff : isNameChar c = true ↔ IsNameStart c ∨ c = '-' := by
  rw [isNameChar, Bool.or_eq_true, isLowerOrDigit_iff, beq_iff_eq]

theorem isPrefixChar_iff : isPrefixChar c = true ↔ IsKeyChar c := by
  have hparts : isPrefixChar c =
      (decide ('A' ≤ c ∧ c ≤ 'Z') || c.isLower || c.isDigit || c == '-') := rfl
  rw [IsKeyChar, ← isLowerOrDigit_iff, isLowerOrDigit, hparts]
  simp only [Bool.or_eq_true, decide_eq_true_eq, beq_iff_eq]
  tauto

theorem IsKeyChar.ne_break (h : IsKeyChar c) : c ≠ '\n' := by
  rintro rfl
  exact absurd (isPrefixChar_iff.2 h) (by decide)

theorem IsKeyChar.of_isNameChar (h : isNameChar c = true) : IsKeyChar c :=
  (isNameChar_iff.1 h).imp_right Or.inr

end Characters

section Words

variable {s : String}

/-- The characters of a text are those of the word, and then a line break or nothing. -/
theorem line_iff {cs : List Char} :
    (s = String.ofList cs ∨ s = String.ofList cs ++ "\n") ↔ (s.toList = cs ∨ s.toList = cs ++ ['\n']) := by
  rw [← String.toList_inj, ← String.toList_inj, String.toList_append, String.toList_ofList]
  rfl

/-- A line that does not end in a line break is a word. -/
theorem IsLine.isWord {IsWord : String → Prop} (h : IsLine IsWord s) (hs : IsUnbroken s) : IsWord s := by
  obtain ⟨word, hw, rfl | rfl⟩ := h
  · exact hw
  · exact absurd (by simp) hs

theorem IsNameWord.isKeyChar (h : IsNameWord s) : ∀ c ∈ s.toList, IsKeyChar c := by
  obtain ⟨first, rest, hs, hfirst, hrest⟩ := h
  intro c hc
  rw [hs] at hc
  rcases List.mem_cons.1 hc with rfl | hc
  · exact Or.inl hfirst
  · exact (hrest c hc).imp_right Or.inr

/-- The characters of a line are those of its word, but for the line break. -/
theorem IsLine.isKeyChar_or {IsWord : String → Prop} (hword : ∀ w, IsWord w → ∀ c ∈ w.toList, IsKeyChar c)
    (h : IsLine IsWord s) : ∀ c ∈ s.toList, IsKeyChar c ∨ c = '\n' := by
  obtain ⟨word, hw, rfl | rfl⟩ := h
  · exact fun c hc => Or.inl (hword _ hw c hc)
  · intro c hc
    rw [String.toList_append, List.mem_append] at hc
    exact hc.imp (hword word hw c) List.mem_singleton.1

/-- If a text ends in a line break, this is one of its characters. -/
theorem isUnbroken_of_isKeyChar (h : ∀ c ∈ s.toList, IsKeyChar c) : IsUnbroken s :=
  fun hlast => (h _ (List.mem_of_getLast? hlast)).ne_break rfl

/-! ## What is accepted -/

theorem isPrefixText_iff : isPrefixText s = true ↔ IsLine IsPrefixWord s := by
  have hword : ∀ cs : List Char, IsPrefixWord (String.ofList cs) ↔
      (!cs.isEmpty && decide (cs.length ≤ longestPrefix) && cs.all isPrefixChar) = true := by
    intro cs
    simp only [Bool.and_eq_true, Bool.not_eq_true', List.isEmpty_eq_false_iff, decide_eq_true_eq, List.all_eq_true,
      isPrefixChar_iff, ← List.length_pos_iff]
    constructor
    · rintro ⟨hpos, hle, hall⟩
      rw [String.length_ofList] at hpos hle
      rw [String.toList_ofList] at hall
      exact ⟨⟨hpos, hle⟩, hall⟩
    · rintro ⟨⟨hpos, hle⟩, hall⟩
      exact ⟨by rwa [String.length_ofList], by rwa [String.length_ofList], by rwa [String.toList_ofList]⟩
  constructor
  · intro h
    exact ⟨String.ofList (withoutFinalBreak s.toList), (hword _).2 h, line_iff.2 (eq_withoutFinalBreak s.toList)⟩
  · rintro ⟨word, hw, hs⟩
    -- only the last line break is taken off, and the word has none
    have hcs : withoutFinalBreak s.toList = word.toList := by
      rcases hs with rfl | rfl
      · exact if_neg (isUnbroken_of_isKeyChar hw.isKeyChar)
      · rw [String.toList_append]
        exact withoutFinalBreak_append
    rw [isPrefixText, hcs]
    exact (hword _).1 (by rwa [String.ofList_toList])

theorem isName_iff : IsName s ↔ IsLine IsNameWord s := by
  constructor
  · rintro ⟨first, rest, hf, hr, hs⟩
    have hword : IsNameWord (String.ofList (first :: rest)) :=
      ⟨first, rest, String.toList_ofList, isLowerOrDigit_iff.1 hf, fun c hc => isNameChar_iff.1 (hr c hc)⟩
    exact ⟨_, hword, line_iff.2 hs⟩
  · rintro ⟨word, ⟨first, rest, hword, hf, hr⟩, hs⟩
    rw [← String.ofList_toList (s := word), hword] at hs
    exact ⟨first, rest, isLowerOrDigit_iff.2 hf, fun c hc => isNameChar_iff.2 (hr c hc), line_iff.1 hs⟩

theorem checkPrefix_eq_ok_iff_isLine {t : String} : checkPrefix (.str s) = .ok t ↔ t = s ∧ IsLine IsPrefixWord s := by
  rw [checkPrefix_str, isPrefixText_iff, and_comm]

theorem checkNames_eq_ok_iff_isLine {field : FieldName} {names sorted : List String} :
    checkNames field (names.map .str) = .ok sorted ↔
      (∀ n ∈ names, IsLine IsNameWord n) ∧ names.Nodup ∧ sorted.Perm names ∧ sorted.Pairwise (· ≤ ·) := by
  have hsorted : sorted = sortedBy id names ↔ sorted.Perm names ∧ sorted.Pairwise (· ≤ ·) := by
    constructor
    · rintro rfl
      exact ⟨sortedBy_perm id names, pairwise_sortedBy id names⟩
    · rintro ⟨hp, hle⟩
      rw [← sortedBy_eq_of_perm hp, sortedBy_id_of_pairwise hle]
  rw [checkNames_texts, hsorted]
  constructor
  · rintro ⟨⟨hname, hn⟩, hrest⟩
    exact ⟨fun n hn => isName_iff.1 (hname n hn), hn, hrest⟩
  · rintro ⟨hline, hn, hrest⟩
    exact ⟨⟨fun n hn => isName_iff.2 (hline n hn), hn⟩, hrest⟩

end Words

/-! ## The keys of groups -/

namespace Blueprint

variable {b : Blueprint} {g : Group}

section Lines

variable (ho : IsLine IsPrefixWord b.org) (hE : ∀ e ∈ b.environments, IsLine IsNameWord e)
  (hP : ∀ q ∈ b.projects, IsLine IsNameWord q)
include ho hE hP

/-- Besides letters, digits and hyphens there can only be line breaks in keys. -/
theorem Makes.isKeyChar_or (h : b.Makes g) : ∀ c ∈ g.key.toList, IsKeyChar c ∨ c = '\n' :=
  h.forall_mem_key (fun _ hc => Or.inl (.of_isNameChar hc)) (ho.isKeyChar_or fun _ hw => hw.isKeyChar)
    (fun e he => (hE e he).isKeyChar_or fun _ hw => hw.isKeyChar)
    fun _ q hq => (hP q hq).isKeyChar_or fun _ hw => hw.isKeyChar

/-- The line breaks in keys are those that the texts end in. -/
theorem forall_isKeyChar_iff (hne : b.environments ≠ []) : (∀ g, b.Makes g → ∀ c ∈ g.key.toList, IsKeyChar c) ↔
    IsUnbroken b.org ∧ (∀ e ∈ b.environments, IsUnbroken e) ∧
      (b.projectGroups = true → ∀ q ∈ b.projects, IsUnbroken q) := by
  constructor
  · intro h
    have hof : ∀ {s t : String}, (∀ c ∈ (groupKey [s, t]).toList, IsKeyChar c) →
        (∀ c ∈ s.toList, IsKeyChar c) ∧ ∀ c ∈ t.toList, IsKeyChar c := by
      intro s t hst
      rw [toList_groupKey] at hst
      exact ⟨fun c hc => hst c (List.mem_append_left _ hc),
        fun c hc => hst c (List.mem_append_right _ (List.mem_cons_of_mem _ hc))⟩
    -- every text stands in the key of some group: the prefix in the root's, a project in one below any environment
    refine ⟨isUnbroken_of_isKeyChar (hof (h _ .root)).1, fun e he => ?_, fun hon q hq => ?_⟩
    · exact isUnbroken_of_isKeyChar (hof (h _ (.environment he))).2
    · obtain ⟨e, he⟩ := List.exists_mem_of_ne_nil _ hne
      have hmade : b.Makes (b.projectGroup e .technical q) := .project he (mem_projectsOf.2 ⟨⟨hon, rfl⟩, hq⟩)
      exact isUnbroken_of_isKeyChar (hof (h _ hmade)).2
  · rintro ⟨hso, hsE, hsP⟩ g hg
    exact hg.forall_mem_key (fun _ => .of_isNameChar) (ho.isWord hso).isKeyChar
      (fun e he => ((hE e he).isWord (hsE e he)).isKeyChar)
      fun hon q hq => ((hP q hq).isWord (hsP hon q hq)).isKeyChar

end Lines

end Blueprint

/-- A hierarchy that is built is built from texts. Its keys are of letters, digits, hyphens and line breaks, and these
stand in them exactly if one of the texts that they are made of ends in one. -/
theorem forall_mem_key_iff {org environments projects owners : Json} {projectGroups : Bool} {h : Hierarchy}
    (hb : Hierarchy.build org environments projects projectGroups owners = .ok h) :
    ∃ (s : String) (es ps : List String), org = .str s ∧ environments.itemsOf = .ok (es.map .str) ∧
      projects.itemsOrNone = .ok (ps.map .str) ∧
      (∀ g ∈ h.groups, ∀ c ∈ g.key.toList, IsKeyChar c ∨ c = '\n') ∧
      ((∀ g ∈ h.groups, ∀ c ∈ g.key.toList, IsKeyChar c) ↔
        IsUnbroken s ∧ (∀ e ∈ es, IsUnbroken e) ∧ (projectGroups = true → ∀ q ∈ ps, IsUnbroken q)) := by
  obtain ⟨s, es, ps, os, ho, hes, hne, hps, -, hs, hE, hP, -, rfl⟩ := exists_texts_of_build hb
  have hs := isPrefixText_iff.1 hs
  have hE : ∀ e ∈ sortedBy id es, IsLine IsNameWord e := fun e he => isName_iff.1 (hE.isName e (mem_sortedBy.1 he))
  have hP : ∀ q ∈ sortedBy id ps, IsLine IsNameWord q := fun q hq => isName_iff.1 (hP.isName q (mem_sortedBy.1 hq))
  have hne : sortedBy id es ≠ [] := fun h => hne (List.perm_nil.1 (h ▸ (sortedBy_perm id es).symm))
  refine ⟨s, es, ps, ho, hes, hps, fun g hg => ?_, ?_⟩
  · exact (Blueprint.mem_groups_iff.1 hg).isKeyChar_or hs hE hP
  · have hiff := Blueprint.forall_isKeyChar_iff (b := .ofTexts s es ps projectGroups os) hs hE hP hne
    simp only [Blueprint.ofTexts, mem_sortedBy] at hiff
    rw [← hiff]
    exact forall_congr' fun g => imp_congr_left Blueprint.mem_groups_iff

/-! ## The grammar -/

/-- Prefixes and names are exactly the words of the grammar, but for a line break at the very end, and the accepted
names are put in order. So the keys of a hierarchy are of letters, digits and hyphens exactly if no text of it that
stands in them ends in a line break. -/
theorem accepted_iff_isLine (s t : String) (field : FieldName) (names sorted : List String) :
    (checkPrefix (.str s) = .ok t ↔ t = s ∧ IsLine IsPrefixWord s) ∧
      (checkNames field (names.map .str) = .ok sorted ↔
        (∀ n ∈ names, IsLine IsNameWord n) ∧ names.Nodup ∧ sorted.Perm names ∧ sorted.Pairwise (· ≤ ·)) ∧
      ∀ {org environments projects owners : Json} {projectGroups : Bool} {h : Hierarchy},
        Hierarchy.build org environments projects projectGroups owners = .ok h →
        ∃ (o : String) (es ps : List String), org = .str o ∧ environments.itemsOf = .ok (es.map .str) ∧
          projects.itemsOrNone = .ok (ps.map .str) ∧
          (∀ g ∈ h.groups, ∀ c ∈ g.key.toList, IsKeyChar c ∨ c = '\n') ∧
          ((∀ g ∈ h.groups, ∀ c ∈ g.key.toList, IsKeyChar c) ↔
            IsUnbroken o ∧ (∀ e ∈ es, IsUnbroken e) ∧ (projectGroups = true → ∀ q ∈ ps, IsUnbroken q)) :=
  ⟨checkPrefix_eq_ok_iff_isLine, checkNames_eq_ok_iff_isLine, forall_mem_key_iff⟩

theorem isKeyChar_web : ∃ h, Hierarchy.build (.str "Acme") (.ofTexts ["dev", "dev-2"]) (.ofTexts ["web\n"]) false
    (.ofTexts ["owner"]) = .ok h ∧ IsLine IsPrefixWord "Acme" ∧ IsLine IsNameWord "web\n" ∧
      ∀ g ∈ h.groups, ∀ c ∈ g.key.toList, IsKeyChar c := by
  have hkeys : ((Blueprint.ofTexts "Acme" ["dev", "dev-2"] ["web\n"] false ["owner"]).groups.map Group.key).Nodup := by
    rw [Blueprint.ofTexts_of_pairwise (by decide) (by decide)]
    decide +kernel
  have hb := build_texts_eq_ok_iff.2 ⟨by decide +kernel, by decide, ⟨by decide +kernel, by decide +kernel⟩,
    ⟨by decide +kernel, by decide +kernel⟩, hkeys, rfl⟩
  have hprefix : checkPrefix (.str "Acme") = .ok "Acme" := checkPrefix_str.2 ⟨by decide +kernel, rfl⟩
  have hnames : checkNames "projects" (["web\n"].map .str) = .ok ["web\n"] :=
    checkNames_texts.2 ⟨⟨by decide +kernel, by decide +kernel⟩, (sortedBy_of_pairwise (by decide)).symm⟩
  obtain ⟨hprefixes, hprojects, hkeysOf⟩ := accepted_iff_isLine "Acme" "Acme" "projects" ["web\n"] ["web\n"]
  obtain ⟨o, es, ps, ho, hes, -, -, hiff⟩ := hkeysOf hb
  obtain rfl := Json.str.inj ho
  have hes : ["dev", "dev-2"] = es := List.map_injective_iff.2 (fun _ _ => Json.str.inj) (Except.ok.inj hes)
  subst hes
  exact ⟨_, hb, (hprefixes.1 hprefix).2, (hprojects.1 hnames).1 _ List.mem_cons_self,
    hiff.2 ⟨by unfold IsUnbroken; decide, by unfold IsUnbroken; decide, nofun⟩⟩

/-- A line break at the very end of a prefix or a name is accepted, and gets into the keys. -/
theorem line_breaks_accepted :
    (checkPrefix (.str "acme\n") = .ok "acme\n" ∧ ¬ IsPrefixWord "acme\n") ∧
      (checkNames "environments" (["dev\n"].map .str) = .ok ["dev\n"] ∧ ¬ IsNameWord "dev\n") ∧
      ∃ h, Hierarchy.build (.str "acme") (.ofTexts ["dev\n"]) (.ofTexts []) false (.ofTexts []) = .ok h ∧
        ∃ g ∈ h.groups, ∃ c ∈ g.key.toList, ¬ IsKeyChar c := by
  have hbreak : ¬ IsKeyChar '\n' := fun hc => hc.ne_break rfl
  refine ⟨⟨checkPrefix_str.2 ⟨by decide +kernel, rfl⟩, fun h => hbreak (h.isKeyChar _ (by decide))⟩,
    ⟨?_, fun h => hbreak (h.isKeyChar _ (by decide))⟩, ?_⟩
  · exact checkNames_texts.2 ⟨⟨by decide +kernel, by decide +kernel⟩, (sortedBy_of_pairwise (by decide)).symm⟩
  · have hkeys : ((Blueprint.ofTexts "acme" ["dev\n"] [] false []).groups.map Group.key).Nodup := by
      rw [Blueprint.ofTexts_of_pairwise (by decide) (by decide)]
      decide +kernel
    have hb := build_texts_eq_ok_iff.2 ⟨by decide +kernel, by decide, ⟨by decide +kernel, by decide +kernel⟩,
      ⟨fun _ hm => absurd hm List.not_mem_nil, List.nodup_nil⟩, hkeys, rfl⟩
    have hm : (Blueprint.ofTexts "acme" ["dev\n"] [] false []).Makes
        ((Blueprint.ofTexts "acme" ["dev\n"] [] false []).environmentGroup "dev\n") :=
      .environment (mem_sortedBy.2 List.mem_cons_self)
    exact ⟨_, hb, _, Blueprint.mem_groups_iff.2 hm, '\n', by decide +kernel, hbreak⟩

end AccessPlan
