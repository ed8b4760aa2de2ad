import RuleRaven.Kube.Redaction

namespace RuleRaven.Kube

open Framework Regex

/-- The letters of a word, each of them in either case. -/
def Capitalizes (word text : String) : Prop :=
  List.Forall₂ (fun letter c => c = letter ∨ c = letter.toUpper) word.toList text.toList

instance (word text : String) : Decidable (Capitalizes word text) :=
  inferInstanceAs (Decidable (List.Forall₂ _ _ _))

/-- What stands between the name of a header and its value. -/
inductive HeaderSeparator where
  | space
  | assigned (sep : Separator)
  deriving DecidableEq

def HeaderSeparator.text : HeaderSeparator → String
  | space => " "
  | assigned sep => sep.text

/-- The header that a scheme and a credential make. -/
def header (name : String) (sep : HeaderSeparator) (scheme value : String) : String :=
  name ++ sep.text ++ scheme ++ " " ++ value

section Letters

theorem letter_spec {c : Char} (h : c.isAlpha = true) :
    isFieldChar c = true ∧ isValueChar c = true ∧ isWordChar c = true ∧
      isRegexSpace c = false ∧ (foldChar c).isLower = true ∧
      (c = foldChar c ∨ c = (foldChar c).toUpper) ∧
      (c == '=' || c == ':' || c == '"' || c == '\'') = false := by
  have hfield : isFieldChar c = true := by
    show (c.isAlpha || c.isDigit || c == '_' || c == '-' || c == '.') = true
    rw [h]
    rfl
  refine ascii_cases (P := fun c => c.isAlpha = true → isFieldChar c = true ∧
    isValueChar c = true ∧ isWordChar c = true ∧ isRegexSpace c = false ∧
      (foldChar c).isLower = true ∧ (c = foldChar c ∨ c = (foldChar c).toUpper) ∧
      (c == '=' || c == ':' || c == '"' || c == '\'') = false) ?_ (ascii_of_isFieldChar hfield) h
  decide +kernel

theorem space_spec {c : Char} (h : isRegexSpace c = true) :
    (foldChar c).isLower = false ∧ isKeyChar c = false ∧ isFieldChar c = false ∧
      (c == '=' || c == ':') = false := by
  simp only [isRegexSpace, Bool.or_eq_true, beq_iff_eq] at h
  rcases h with (((rfl | rfl) | rfl) | rfl) | rfl <;> decide +kernel

theorem isAlpha_of_isLower {c : Char} (h : c.isLower = true) : c.isAlpha = true := by
  show (c.isUpper || c.isLower) = true
  rw [h, Bool.or_true]

/-- Either case of a lower-case letter is a letter that folds like it. -/
theorem capital_spec {letter c : Char} (h : letter.isLower = true)
    (hc : c = letter ∨ c = letter.toUpper) : c.isAlpha = true ∧ foldEq letter c = true := by
  have hboth : (letter.isAlpha = true ∧ foldEq letter letter = true) ∧
      letter.toUpper.isAlpha = true ∧ foldEq letter letter.toUpper = true := by
    refine ascii_cases (P := fun letter => letter.isLower = true →
      (letter.isAlpha = true ∧ foldEq letter letter = true) ∧
        letter.toUpper.isAlpha = true ∧ foldEq letter letter.toUpper = true) ?_
      (ascii_of_isFieldChar (letter_spec (isAlpha_of_isLower h)).1) h
    decide +kernel
  rcases hc with rfl | rfl
  · exact hboth.1
  · exact hboth.2

variable {word text : String}

theorem Capitalizes.folds (hword : ∀ c ∈ word.toList, c.isLower = true)
    (h : Capitalizes word text) :
    (∀ c ∈ text.toList, c.isAlpha = true) ∧
      List.Forall₂ (fun x y => foldEq x y = true) word.toList text.toList := by
  unfold Capitalizes at h
  generalize word.toList = letters at h hword
  generalize text.toList = cs at h
  induction h with
  | nil => exact ⟨List.forall_mem_nil _, .nil⟩
  | cons hc _ ih =>
    obtain ⟨hletter, hletters⟩ := List.forall_mem_cons.mp hword
    obtain ⟨halpha, hfold⟩ := capital_spec hletter hc
    obtain ⟨halphas, hfolds⟩ := ih hletters
    exact ⟨List.forall_mem_cons.mpr ⟨halpha, halphas⟩, .cons hfold hfolds⟩

theorem Capitalizes.exists_cons (h : Capitalizes word text) (hword : word.toList ≠ []) :
    ∃ c more, text.toList = c :: more := by
  cases hlist : text.toList with
  | nil =>
    rw [Capitalizes, hlist, List.forall₂_nil_right_iff] at h
    exact absurd h hword
  | cons c more => exact ⟨c, more, rfl⟩

/-- Letters that fold like a lower-case word are that word in some case. -/
theorem capitalizes_of_folds (hword : ∀ c ∈ word.toList, foldChar c = c)
    (htext : ∀ c ∈ text.toList, c.isAlpha = true)
    (h : List.Forall₂ (fun x y => foldEq x y = true) word.toList text.toList) :
    Capitalizes word text := by
  unfold Capitalizes
  generalize word.toList = letters at h hword ⊢
  generalize text.toList = cs at h htext ⊢
  induction h with
  | nil => exact .nil
  | cons hfold _ ih =>
    obtain ⟨hletter, hletters⟩ := List.forall_mem_cons.mp hword
    obtain ⟨halpha, halphas⟩ := List.forall_mem_cons.mp htext
    have hc := (letter_spec halpha).2.2.2.2.2.1
    rw [← beq_iff_eq.mp hfold, hletter] at hc
    exact .cons hc (ih hletters halphas)

end Letters

section First

variable {before : Option Char} {key rest : List Char}

/-- A match of an assignment needs its mark behind the name, with only whitespace between. -/
theorem assignment_shape {c : Cursor} (h : sensitiveAssignment.ends c ≠ []) :
    ∃ name gap mark later, c.rest = name ++ (gap ++ mark :: later) ∧
      (∀ x ∈ name, isRegexSpace x = false) ∧ (∀ x ∈ gap, isRegexSpace x = true) ∧
      (mark == '=' || mark == ':') = true := by
  obtain ⟨m, hm⟩ := List.exists_mem_of_ne_nil _ h
  obtain ⟨first, hfirst, second, hsecond, -⟩ := mem_ends_seq.mp hm
  obtain ⟨-, rfl⟩ := mem_ends_boundary.mp hfirst
  obtain ⟨third, hthird, fourth, hfourth, -⟩ := mem_ends_seq.mp hsecond
  obtain ⟨marker, hmarker, rfl⟩ := List.mem_map.mp hthird
  obtain ⟨-, letters, hletters, used, hused, hfold⟩ := mem_ends_anyMarker.mp hmarker
  obtain ⟨fifth, hfifth, sixth, hsixth, -⟩ := mem_ends_seq.mp hfourth
  obtain ⟨keyMatch, hkeyMatch, rfl⟩ := List.mem_map.mp hfifth
  obtain ⟨more, hmore, hmoreChars⟩ := behind_of_mem_ends_many hkeyMatch
  obtain ⟨seventh, hseventh, eighth, heighth, -⟩ := mem_ends_seq.mp hsixth
  obtain ⟨gap, hgap, hgapChars⟩ := behind_of_mem_ends_many hseventh
  obtain ⟨ninth, hninth, -⟩ := mem_ends_seq.mp heighth
  obtain ⟨markMatch, hmarkMatch, rfl⟩ := List.mem_map.mp hninth
  obtain ⟨-, mark, hmark, hnext⟩ := mem_ends_char.mp hmarkMatch
  refine ⟨used ++ more, gap, mark, markMatch.2.rest, ?_, ?_, hgapChars, hmark⟩
  · rw [hused.rest, hmore.rest, hgap.rest, hnext.rest, List.append_assoc]
    rfl
  · intro x hx
    by_contra hspace
    obtain ⟨hlower, hkeyChar, -⟩ := space_spec (Bool.not_eq_false _ ▸ hspace)
    rcases List.mem_append.mp hx with hx | hx
    · rw [((marker_spec letters hletters).2 _ (hfold ▸ List.mem_map_of_mem hx)).2] at hlower
      cases hlower
    · rw [hmoreChars x hx] at hkeyChar
      cases hkeyChar

/-- No assignment is a name, one space and something that is neither a mark nor whitespace. -/
theorem assignment_blocked {c : Char} (hkey : ∀ x ∈ key, isFieldChar x = true)
    (hspace : isRegexSpace c = false) (hmark : (c == '=' || c == ':') = false) :
    sensitiveAssignment.ends ⟨before, key ++ ' ' :: c :: rest⟩ = [] := by
  have hvisible : ∀ x ∈ key, isRegexSpace x = false := fun x hx => (fieldChar_spec (hkey x hx)).2.1
  by_contra hmatch
  obtain ⟨name, gap, mark, later, htext, hname, hgap, hmarks⟩ := assignment_shape hmatch
  have htext : key ++ ' ' :: c :: rest = name ++ (gap ++ mark :: later) := htext
  have hbehind : ' ' :: c :: rest = gap ++ mark :: later := by
    rcases List.append_eq_append_iff.mp htext with ⟨beyond, rfl, hsplit⟩ | ⟨within, rfl, hsplit⟩
    · cases beyond with
      | nil => exact hsplit
      | cons x beyond =>
        obtain ⟨rfl, -⟩ := List.cons.inj hsplit
        exact absurd (hname ' ' (by simp)) (by decide)
    · cases within with
      | nil => exact hsplit.symm
      | cons x within =>
        cases gap with
        | nil =>
          cases hsplit
          have hfield := hkey mark (by simp)
          rcases Bool.or_eq_true_iff.mp hmarks with heq | heq <;>
            rw [beq_iff_eq.mp heq] at hfield <;> exact absurd hfield (by decide)
        | cons space gap =>
          obtain ⟨rfl, -⟩ := List.cons.inj hsplit
          exact absurd (hgap space List.mem_cons_self) (by simp [hvisible space (by simp)])
  cases gap with
  | nil =>
    cases hbehind
    exact absurd hmarks (by decide)
  | cons space gap =>
    cases gap with
    | nil =>
      cases hbehind
      rw [hmark] at hmarks
      cases hmarks
    | cons space' gap =>
      cases hbehind
      rw [hgap c (by simp)] at hspace
      cases hspace

/-- Letters and spaces contain no assignment. -/
theorem assignment_unmarked {text : List Char}
    (h : ∀ x ∈ text, (x == '=' || x == ':') = false) :
    sensitiveAssignment.replaceFrom assignmentText 0 before text = text := by
  have hpass : sensitiveAssignment.replaceFrom assignmentText 0 before (text ++ []) =
      text ++ sensitiveAssignment.replaceFrom assignmentText 0 (passed before text) [] := by
    refine replaceFrom_pass fun front c back hsplit => ?_
    by_contra hmatch
    obtain ⟨name, gap, mark, later, htext, -, -, hmark⟩ := assignment_shape hmatch
    have htext : c :: (back ++ []) = name ++ (gap ++ mark :: later) := htext
    rw [List.append_nil] at htext
    rw [h mark (by rw [hsplit, htext]; simp)] at hmark
    cases hmark
  simpa [replaceFrom] using hpass

/-- The value of an assignment in front of a space. -/
theorem prefers_scheme {scheme : List Char} (hne : scheme ≠ [])
    (hscheme : ∀ c ∈ scheme, c.isAlpha = true) :
    assignedValue.Prefers ⟨before, scheme ++ ' ' :: rest⟩
      ([], ⟨passed before scheme, ' ' :: rest⟩) := by
  obtain ⟨c, more, rfl⟩ := List.exists_cons_of_ne_nil hne
  obtain ⟨hc, hmore⟩ := List.forall_mem_cons.mp hscheme
  have hquotes := (letter_spec hc).2.2.2.2.2.2
  simp only [Bool.or_eq_false_iff, beq_eq_false_iff_ne] at hquotes
  have hbare : ∀ quote, c ≠ quote → (quoted quote).ends ⟨before, c :: (more ++ ' ' :: rest)⟩ = [] :=
    fun quote hne => quoted_ends_eq_nil fun others heq => absurd (List.cons.inj heq).1 hne
  have hall : (some1 isValueChar).Prefers ⟨before, c :: (more ++ ' ' :: rest)⟩
      ([], ⟨passed before (c :: more), ' ' :: rest⟩) :=
    prefers_some1 (letter_spec hc).2.1 (fun d hd => (letter_spec (hmore d hd)).2.1)
      (by simp; decide)
  exact .right (hbare _ hquotes.1.2) (.right (hbare _ hquotes.2) hall)

end First

section Second

variable {before : Option Char} {rest : List Char}

/-- What may stand between the whitespace of a header and its value. -/
def optionalBearer : Regex :=
  .alt (.seq (.word foldEq "bearer") (.some1 isRegexSpace)) .eps

theorem bearer_lower : ∀ c ∈ "bearer".toList, foldChar c = c ∧ c.isLower = true := by
  have hall : "bearer".toList.all (fun c => foldChar c == c && c.isLower) = true := by
    decide +kernel
  intro c hc
  have hboth := List.all_eq_true.mp hall c hc
  rwa [Bool.and_eq_true, beq_iff_eq] at hboth

theorem prefers_bearer {scheme : String} (hscheme : Capitalizes "bearer" scheme)
    (hrest : ∀ c ∈ rest.head?, isRegexSpace c = false) :
    optionalBearer.Prefers ⟨before, scheme.toList ++ ' ' :: rest⟩ ([], ⟨some ' ', rest⟩) := by
  obtain ⟨-, hfolds⟩ := hscheme.folds fun c hc => (bearer_lower c hc).2
  have hword : (word foldEq "bearer").Prefers ⟨before, scheme.toList ++ ' ' :: rest⟩
      ([], ⟨passed before scheme.toList, ' ' :: rest⟩) := prefers_word hfolds
  have hspace : (some1 isRegexSpace).Prefers ⟨passed before scheme.toList, ' ' :: ([] ++ rest)⟩
      ([], ⟨some ' ', rest⟩) := prefers_some1 (by decide) (List.forall_mem_nil _) hrest
  exact (hword.seq hspace).left

/-- Texts without whitespace in front of whitespace are told by what they are followed by. -/
theorem eq_of_append_space {name key later : List Char} {space : Char}
    (h : key ++ ' ' :: rest = name ++ space :: later)
    (hkey : ∀ x ∈ key, isRegexSpace x = false) (hname : ∀ x ∈ name, isRegexSpace x = false)
    (hspace : isRegexSpace space = true) : key = name := by
  rcases List.append_eq_append_iff.mp h with ⟨beyond, rfl, hsplit⟩ | ⟨within, rfl, hsplit⟩
  · cases beyond with
    | nil => rw [List.append_nil]
    | cons x beyond =>
      obtain ⟨rfl, -⟩ := List.cons.inj hsplit
      exact absurd (hname ' ' (by simp)) (by decide)
  · cases within with
    | nil => rw [List.append_nil]
    | cons x within =>
      obtain ⟨rfl, -⟩ := List.cons.inj hsplit
      rw [hkey space (by simp)] at hspace
      cases hspace

theorem prefers_no_bearer {scheme : String} (hletters : ∀ c ∈ scheme.toList, c.isAlpha = true)
    (hscheme : ¬Capitalizes "bearer" scheme) :
    optionalBearer.Prefers ⟨before, scheme.toList ++ ' ' :: rest⟩
      ([], ⟨before, scheme.toList ++ ' ' :: rest⟩) := by
  refine .right (List.eq_nil_iff_forall_not_mem.mpr fun m hm => hscheme ?_) prefers_eps
  obtain ⟨first, hfirst, second, hsecond, -⟩ := mem_ends_seq.mp hm
  obtain ⟨-, used, hused, hfolds⟩ := mem_ends_word.mp hfirst
  obtain ⟨third, hthird, -⟩ := mem_ends_seq.mp hsecond
  obtain ⟨-, space, hspace, hnext⟩ := mem_ends_char.mp hthird
  have hfold : used.map foldChar = "bearer".toList :=
    (forall₂_foldEq_iff fun c hc => (bearer_lower c hc).1).mp hfolds
  have hvisible : ∀ x ∈ used, isRegexSpace x = false := by
    intro x hx
    by_contra hblank
    have hlower := (bearer_lower _ (hfold ▸ List.mem_map_of_mem hx)).2
    rw [(space_spec (Bool.not_eq_false _ ▸ hblank)).1] at hlower
    cases hlower
  have htext : scheme.toList ++ ' ' :: rest = used ++ space :: third.2.rest := by
    have hbehind : scheme.toList ++ ' ' :: rest = used ++ first.2.rest := hused.rest
    rw [hbehind, hnext.rest]
    rfl
  have heq := eq_of_append_space htext (fun x hx => (letter_spec (hletters x hx)).2.2.2.1) hvisible
    hspace
  rw [← heq] at hfolds
  exact capitalizes_of_folds (fun c hc => (bearer_lower c hc).1) hletters hfolds

/-- The match of the second expression, told by what the optional part of it takes. -/
theorem prefers_authorization {name : String} (hname : Capitalizes "authorization" name)
    {text taken : List Char} {c : Char} (hvisible : ∀ x ∈ text.head?, isRegexSpace x = false)
    (hbearer : optionalBearer.Prefers ⟨some ' ', text⟩ ([], ⟨before, c :: (taken ++ rest)⟩))
    (hc : isValueChar c = true) (htaken : ∀ x ∈ taken, isValueChar x = true)
    (hrest : ∀ x ∈ rest.head?, isValueChar x = false) :
    authorizationValue.Prefers ⟨none, name.toList ++ ' ' :: text⟩
      ([], ⟨passed before (c :: taken), rest⟩) := by
  obtain ⟨hletters, hfolds⟩ :=
    hname.folds fun c hc => ((marker_spec "authorization" (by decide)).2 c hc).2
  have hboundary : boundary.Prefers ⟨none, name.toList ++ ' ' :: text⟩
      ([], ⟨none, name.toList ++ ' ' :: text⟩) := by
    obtain ⟨d, others, hcons⟩ := hname.exists_cons (by decide)
    have hword := (letter_spec (hletters d (hcons ▸ List.mem_cons_self))).2.2.1
    exact prefers_boundary (by simp [hcons, hword])
  have hword : (word foldEq "authorization").Prefers ⟨none, name.toList ++ ' ' :: text⟩
      ([], ⟨passed none name.toList, ' ' :: text⟩) := prefers_word hfolds
  have hspace : (some1 isRegexSpace).Prefers ⟨passed none name.toList, ' ' :: ([] ++ text)⟩
      ([], ⟨some ' ', text⟩) := prefers_some1 (by decide) (List.forall_mem_nil _) hvisible
  have hvalue : (some1 isValueChar).Prefers ⟨before, c :: (taken ++ rest)⟩
      ([], ⟨passed before (c :: taken), rest⟩) := prefers_some1 hc htaken hrest
  exact hboundary.seq (hword.seq (hspace.seq (hbearer.seq hvalue)))

end Second

section Text

variable {name scheme value : String}

theorem toList_header_space : (header name .space scheme value).toList =
    name.toList ++ ' ' :: (scheme.toList ++ ' ' :: value.toList) := by
  simp [header, HeaderSeparator.text]

theorem toList_header_assigned (sep : Separator) :
    (header name (.assigned sep) scheme value).toList =
      name.toList ++ sep.mark :: (sep.spaces ++ (scheme.toList ++ ' ' :: value.toList)) := by
  simp [header, HeaderSeparator.text, sep.toList_text]

/-- A name that capitalizes the word is made of letters, and is a marker. -/
theorem authorization_name (hname : Capitalizes "authorization" name) :
    (∀ c ∈ name.toList, isFieldChar c = true) ∧ Starts name.toList := by
  have hmarker := marker_spec "authorization" (by decide)
  obtain ⟨hletters, hfolds⟩ := hname.folds fun c hc => (hmarker.2 c hc).2
  have hfields : ∀ c ∈ name.toList, isFieldChar c = true :=
    fun c hc => (letter_spec (hletters c hc)).1
  have hfold : name.toList.map foldChar = "authorization".toList :=
    (forall₂_foldEq_iff fun c hc => (hmarker.2 c hc).1).mp hfolds
  refine ⟨hfields, "authorization", by decide, ?_⟩
  rw [← map_foldChar hfields, hfold]

section Leaks

variable (hname : Capitalizes "authorization" name) (hne : scheme ≠ "")
  (hscheme : ∀ c ∈ scheme.toList, c.isAlpha = true) (hshort : value.toList.length ≤ 3)

include hname hne hscheme hshort

/-- Behind a mark the first pass takes the scheme for the value, and leaves the credential. -/
theorem redactText_assigned (sep : Separator) :
    (redactText (header name (.assigned sep) scheme value)).toList =
      name.toList ++ sep.mark :: (redactedValue.toList ++ ' ' :: value.toList) := by
  obtain ⟨hfields, hstarts⟩ := authorization_name hname
  obtain ⟨hletter, -, hspace, -⟩ := mark_spec sep
  have hnil : scheme.toList ≠ [] := by simpa using hne
  have hvisible : ∀ c ∈ (scheme.toList ++ ' ' :: value.toList).head?, isRegexSpace c = false := by
    intro c hc
    rw [List.head?_append_of_ne_nil _ hnil] at hc
    exact (letter_spec (hscheme c (List.mem_of_mem_head? hc))).2.2.2.1
  have hstop : assignedValue.Prefers ⟨passed (some sep.mark) sep.spaces,
      scheme.toList ++ ' ' :: value.toList⟩
      ([], ⟨passed (passed (some sep.mark) sep.spaces) scheme.toList, ' ' :: value.toList⟩) :=
    prefers_scheme hnil hscheme
  have hnone : (none : Option Char).any isWordChar = false := rfl
  obtain ⟨captures, hprefers, htext⟩ := prefers_assignment hnone hfields hstarts hvisible hstop
  rw [toList_redactText, toList_header_assigned, replaceFrom_match hprefers (by simp; omega), htext,
    replaceFrom_short (fun _ => assignment_length) (by simp; omega), List.append_assoc,
    List.cons_append, authorization_pass (fun c hc => (fieldChar_spec (hfields c hc)).2.1) hletter
    hspace, authorization_redacted,
    replaceFrom_short (fun _ => authorization_length) (by simp; omega)]

/-- Behind a space the second pass takes any scheme but one for the value. -/
theorem redactText_other_scheme (hother : ¬Capitalizes "bearer" scheme)
    (hplain : ∀ c ∈ value.toList, (c == '=' || c == ':') = false) :
    (redactText (header name .space scheme value)).toList =
      ("authorization " ++ redactedValue).toList ++ ' ' :: value.toList := by
  have hletters := (hname.folds fun c hc =>
    ((marker_spec "authorization" (by decide)).2 c hc).2).1
  have hunmarked : ∀ c ∈ name.toList ++ ' ' :: (scheme.toList ++ ' ' :: value.toList),
      (c == '=' || c == ':') = false := by
    have hletter : ∀ c : Char, c.isAlpha = true → (c == '=' || c == ':') = false := by
      intro c hc
      have hmarks := (letter_spec hc).2.2.2.2.2.2
      simp only [Bool.or_eq_false_iff] at hmarks ⊢
      exact hmarks.1.1
    intro c hc
    simp only [List.mem_append, List.mem_cons] at hc
    rcases hc with hc | rfl | hc | rfl | hc
    · exact hletter c (hletters c hc)
    · decide
    · exact hletter c (hscheme c hc)
    · decide
    · exact hplain c hc
  obtain ⟨c, taken, hcons⟩ :=
    List.exists_cons_of_ne_nil (show scheme.toList ≠ [] by simpa using hne)
  have hletter : ∀ d ∈ c :: taken, d.isAlpha = true := hcons ▸ hscheme
  obtain ⟨hc, htaken⟩ := List.forall_mem_cons.mp hletter
  have hbearer : optionalBearer.Prefers ⟨some ' ', scheme.toList ++ ' ' :: value.toList⟩
      ([], ⟨some ' ', c :: (taken ++ ' ' :: value.toList)⟩) := by
    have htext : c :: (taken ++ ' ' :: value.toList) = scheme.toList ++ ' ' :: value.toList := by
      rw [hcons]
      rfl
    rw [htext]
    exact prefers_no_bearer hscheme hother
  have hprefers : authorizationValue.Prefers
      ⟨none, name.toList ++ ' ' :: (scheme.toList ++ ' ' :: value.toList)⟩
      ([], ⟨passed (some ' ') (c :: taken), ' ' :: value.toList⟩) := by
    refine prefers_authorization hname ?_ hbearer (letter_spec hc).2.1
      (fun d hd => (letter_spec (htaken d hd)).2.1) (by simp; decide)
    simpa [hcons] using (letter_spec hc).2.2.2.1
  rw [toList_redactText, toList_header_space, assignment_unmarked hunmarked,
    replaceFrom_match hprefers (by simp [hcons]; omega),
    replaceFrom_short (fun _ => authorization_length) (by simp; omega)]
  rfl

end Leaks

section Bearer

variable (hname : Capitalizes "authorization" name) (hscheme : Capitalizes "bearer" scheme)

/-- The scheme has no marker in it. -/
theorem bearer_unexposed (hscheme : Capitalizes "bearer" scheme) :
    ¬ExposedFrom (some ' ') scheme.toList := by
  obtain ⟨hletters, hfolds⟩ := hscheme.folds fun c hc => (bearer_lower c hc).2
  have hfields : ∀ c ∈ scheme.toList, isFieldChar c = true :=
    fun c hc => (letter_spec (hletters c hc)).1
  have hfold : scheme.toList.map lowerChar = "bearer".toList := by
    rw [← map_foldChar hfields]
    exact (forall₂_foldEq_iff fun c hc => (bearer_lower c hc).1).mp hfolds
  rintro ⟨front, back, hsplit, hbefore, hstarts⟩
  cases hlast : front.getLast? with
  | some c =>
    -- within the scheme no word starts
    have hword := (letter_spec (hletters c
      (hsplit ▸ List.mem_append_left _ (List.mem_of_mem_getLast? hlast)))).2.2.1
    rw [passed_eq, hlast] at hbefore
    simp [hword] at hbefore
  | none =>
    rw [List.getLast?_eq_none_iff.mp hlast, List.nil_append] at hsplit
    obtain ⟨marker, hmarker, hstart⟩ := hstarts
    rw [← hsplit, hfold] at hstart
    revert marker
    decide +kernel

/-- Replacing assignments in a value leaves a value. -/
theorem value_replaced (hvalue : IsValue value) (before : Option Char) :
    ∃ c taken, sensitiveAssignment.replaceFrom assignmentText 0 before value.toList = c :: taken ∧
      ∀ x ∈ c :: taken, isValueChar x = true := by
  have hredacted : redactedValue.toList.all isValueChar = true := by decide +kernel
  have hall : ∀ x ∈ sensitiveAssignment.replaceFrom assignmentText 0 before value.toList,
      isValueChar x = true := by
    refine replaceFrom_forall (fun captures hcaptures x hx => ?_) hvalue.2
    simp only [assignmentText, List.mem_append] at hx
    have hgroup : ∀ index, x ∈ captures.text index → isValueChar x = true := by
      intro index hmem
      obtain ⟨g, hg, hxg⟩ := Captures.mem_text hmem
      exact hcaptures g hg x hxg
    rcases hx with ((hx | hx) | hx) | hx
    · exact hgroup 1 hx
    · exact hgroup 2 hx
    · exact hgroup 3 hx
    · exact List.all_eq_true.mp hredacted x hx
  have hne : sensitiveAssignment.replaceFrom assignmentText 0 before value.toList ≠ [] :=
    fun hnil => hvalue.1 ((replaceFrom_eq_nil_iff assignmentText_ne_nil).mp hnil)
  obtain ⟨c, taken, hcons⟩ := List.exists_cons_of_ne_nil hne
  exact ⟨c, taken, hcons, hcons ▸ hall⟩

include hname hscheme

/-- The first pass leaves all but the value as it is. -/
theorem bearer_first : sensitiveAssignment.replaceFrom assignmentText 0 none
      (name.toList ++ ' ' :: (scheme.toList ++ ' ' :: value.toList)) =
    name.toList ++ ' ' :: (scheme.toList ++ ' ' ::
      sensitiveAssignment.replaceFrom assignmentText 0 (some ' ') value.toList) := by
  have hfields := (authorization_name hname).1
  have hletters := (hscheme.folds fun c hc => (bearer_lower c hc).2).1
  obtain ⟨c, more, hcons⟩ := hscheme.exists_cons (by decide)
  have hc := letter_spec (hletters c (hcons ▸ List.mem_cons_self))
  have hmark : (c == '=' || c == ':') = false := by
    have hmarks := hc.2.2.2.2.2.2
    simp only [Bool.or_eq_false_iff] at hmarks ⊢
    exact hmarks.1.1
  have hblocked : ∀ before key, (∀ x ∈ key, isFieldChar x = true) → sensitiveAssignment.ends
      ⟨before, key ++ ' ' :: (scheme.toList ++ ' ' :: value.toList)⟩ = [] := by
    intro before key hkey
    rw [hcons]
    exact assignment_blocked hkey hc.2.2.2.1 hmark
  have hspace : ∀ before, sensitiveAssignment.ends ⟨before, ' ' :: value.toList⟩ = [] := by
    intro before
    by_contra hmatch
    have hnone : ∀ x ∈ ([] : List Char), isFieldChar x = true := List.forall_mem_nil _
    obtain ⟨-, hstarts⟩ := starts_of_assignment hnone (by simp; decide) hmatch
    obtain ⟨_, _, hnil, -⟩ := hstarts.head hnone
    cases hnil
  have hkept : sensitiveAssignment.replaceFrom assignmentText 0 none
      (name.toList ++ ' ' :: (scheme.toList ++ ' ' :: value.toList)) =
      name.toList ++ sensitiveAssignment.replaceFrom assignmentText 0 (passed none name.toList)
        (' ' :: (scheme.toList ++ ' ' :: value.toList)) := by
    refine replaceFrom_pass fun front d back hsplit => ?_
    exact hblocked _ (d :: back) fun x hx => hfields x (hsplit ▸ List.mem_append_right _ hx)
  have hunexposed := replace_unexposed (fun x hx => (letter_spec (hletters x hx)).1)
    (show ∀ x ∈ (' ' :: value.toList).head?, (foldChar x).isLower = false by simp; decide)
    (bearer_unexposed hscheme)
  rw [hkept, replaceFrom_step (hblocked _ [] (List.forall_mem_nil _)), hunexposed,
    replaceFrom_step (hspace _)]

/-- Behind the one scheme that the second pass knows nothing of the credential is left. -/
theorem redactText_bearer (hvalue : IsValue value) :
    redactText (header name .space scheme value) = "authorization " ++ redactedValue := by
  obtain ⟨c, taken, hcons, hchars⟩ := value_replaced hvalue (some ' ')
  obtain ⟨hc, htaken⟩ := List.forall_mem_cons.mp hchars
  have hletters := (hscheme.folds fun c hc => (bearer_lower c hc).2).1
  have hspace : isRegexSpace c = false := by
    simp only [isValueChar, Bool.not_eq_true', Bool.or_eq_false_iff] at hc
    exact hc.1.1
  have hvisible : ∀ x ∈ (scheme.toList ++ ' ' :: c :: (taken ++ [])).head?,
      isRegexSpace x = false := by
    obtain ⟨d, more, hletter⟩ := hscheme.exists_cons (by decide)
    simpa [hletter] using (letter_spec (hletters d (hletter ▸ List.mem_cons_self))).2.2.2.1
  have hbearer : optionalBearer.Prefers
      ⟨some ' ', scheme.toList ++ ' ' :: c :: (taken ++ [])⟩ ([], ⟨some ' ', c :: (taken ++ [])⟩) :=
    prefers_bearer hscheme (by simpa using hspace)
  have hprefers : authorizationValue.Prefers
      ⟨none, name.toList ++ ' ' :: (scheme.toList ++ ' ' :: c :: (taken ++ []))⟩
      ([], ⟨passed (some ' ') (c :: taken), []⟩) :=
    prefers_authorization hname hvisible hbearer hc htaken (by simp)
  rw [List.append_nil] at hprefers
  have hshorter : ([] : List Char).length <
      (name.toList ++ ' ' :: (scheme.toList ++ ' ' :: c :: taken)).length := by
    rw [List.length_nil, List.length_append, List.length_cons]
    omega
  rw [← String.toList_inj, toList_redactText, toList_header_space,
    bearer_first hname hscheme, hcons, replaceFrom_match hprefers hshorter]
  exact List.append_nil _

end Bearer

end Text

/-- The redaction of an authorization header hides its credential exactly when the scheme is
`bearer`, in any case, and only a space stands in front of it. -/
theorem header_hides_iff (name scheme : String) (sep : HeaderSeparator)
    (hname : Capitalizes "authorization" name) (hne : scheme ≠ "")
    (hscheme : ∀ c ∈ scheme.toList, c.isAlpha = true) :
    (∀ v₁ v₂, IsValue v₁ → IsValue v₂ →
      redactText (header name sep scheme v₁) = redactText (header name sep scheme v₂)) ↔
      sep = .space ∧ Capitalizes "bearer" scheme := by
  constructor
  · intro hsame
    have hleak := congrArg String.toList (hsame "x" "y" (by decide +kernel) (by decide +kernel))
    have hshort : ∀ v ∈ ["x", "y"], v.toList.length ≤ 3 := by decide +kernel
    have hplain : ∀ v ∈ ["x", "y"], v.toList.all (fun c => !(c == '=' || c == ':')) = true := by
      decide +kernel
    cases sep with
    | assigned sep =>
      rw [redactText_assigned hname hne hscheme (hshort "x" (by simp)),
        redactText_assigned hname hne hscheme (hshort "y" (by simp))] at hleak
      exact absurd hleak (by simp)
    | space =>
      refine ⟨rfl, ?_⟩
      by_contra hother
      have hunmarked : ∀ v ∈ ["x", "y"], ∀ c ∈ v.toList, (c == '=' || c == ':') = false :=
        fun v hv c hc => by simpa using List.all_eq_true.mp (hplain v hv) c hc
      rw [redactText_other_scheme hname hne hscheme (hshort "x" (by simp)) hother
          (hunmarked "x" (by simp)),
        redactText_other_scheme hname hne hscheme (hshort "y" (by simp)) hother
          (hunmarked "y" (by simp))] at hleak
      exact absurd hleak (by simp)
  · rintro ⟨rfl, hbearer⟩ v₁ v₂ h₁ h₂
    rw [redactText_bearer hname hbearer h₁, redactText_bearer hname hbearer h₂]

theorem bearer_header_hidden :
    Capitalizes "authorization" "Authorization" ∧
      redactText (header "Authorization" .space "Bearer" "token=abc") =
        redactText (header "Authorization" .space "Bearer" "hunter2") :=
  ⟨by decide +kernel, (header_hides_iff "Authorization" "Bearer" .space (by decide +kernel)
    (by decide) (List.all_eq_true.mp (by decide +kernel))).mpr ⟨rfl, by decide +kernel⟩ _ _
    (by decide +kernel) (by decide +kernel)⟩

/-- With a colon the first pass hides the scheme and shows the credential, and the second pass no
longer finds a header. With a space it is so for every scheme but one. -/
theorem headers_leak :
    (IsValue "abc" ∧ IsValue "xyz" ∧
      redactText (header "Authorization" (.assigned .colonSpace) "Bearer" "abc") =
        "Authorization:[REDACTED] abc" ∧
      redactText (header "Authorization" (.assigned .colonSpace) "Bearer" "xyz") =
        "Authorization:[REDACTED] xyz") ∧
    redactText (header "Authorization" .space "Basic" "abc") = "authorization [REDACTED] abc" ∧
    redactText (header "Authorization" .space "Basic" "xyz") = "authorization [REDACTED] xyz" :=
  ⟨⟨by decide +kernel, by decide +kernel, by decide +kernel, by decide +kernel⟩,
    by decide +kernel, by decide +kernel⟩

end RuleRaven.Kube
