import RuleRaven.Kube.Redactor

namespace RuleRaven.Kube

open Framework Regex

/-- The characters of a field name. -/
def isFieldChar (c : Char) : Bool := c.isAlphanum || c == '_' || c == '-' || c == '.'

/-- What stands between a field name and its value. -/
inductive Separator where
  | equals
  | colon
  | colonSpace
  deriving DecidableEq

namespace Separator

def text : Separator → String
  | equals => "="
  | colon => ":"
  | colonSpace => ": "

def mark : Separator → Char
  | equals => '='
  | _ => ':'

def spaces : Separator → List Char
  | colonSpace => [' ']
  | _ => []

theorem toList_text (sep : Separator) : sep.text.toList = sep.mark :: sep.spaces := by
  cases sep <;> rfl

end Separator

/-- A value of an assignment: some text without whitespace, comma and semicolon. -/
def IsValue (value : String) : Prop := value.toList ≠ [] ∧ ∀ c ∈ value.toList, isValueChar c = true

instance (value : String) : Decidable (IsValue value) :=
  decidable_of_iff (value.toList ≠ [] ∧ value.toList.all isValueChar = true)
    (and_congr_right fun _ => List.all_eq_true)

/-- The quote that opens the value, if one does, is not closed before its end. -/
def Whole (value : String) : Prop :=
  ∀ quote rest, value.toList = quote :: rest → quote = '"' ∨ quote = '\'' → quote ∉ rest.dropLast

/-- The text starts with a marker. -/
def Starts (text : List Char) : Prop :=
  ∃ marker ∈ sensitiveMarkers, marker.toList <+: text.map lowerChar

/-- Some marker of the key starts where a word starts. -/
def Exposed (key : String) : Prop :=
  ∃ front back, key.toList = front ++ back ∧ (∀ c ∈ front.getLast?, isWordChar c = false) ∧
    Starts back

/-- A key that is exposed is also sensitive where it names a field. -/
theorem Exposed.isSensitiveKey {key : String} (h : Exposed key) : isSensitiveKey key = true := by
  obtain ⟨front, back, hkey, -, marker, hmarker, hstart⟩ := h
  refine List.any_eq_true.mpr ⟨marker, hmarker, decide_eq_true ?_⟩
  rw [chars_eq, chars_eq, hkey, List.map_append]
  exact hstart.isInfix.trans (List.suffix_append _ _).isInfix

section Characters

theorem ascii_cases {P : Char → Prop} (h : ∀ n : Fin 128, P (Char.ofNat n)) {c : Char}
    (hc : c.toNat < 128) : P c := by
  have hn := h ⟨c.toNat, hc⟩
  rwa [Char.ofNat_toNat] at hn

theorem ascii_of_isFieldChar {c : Char} (h : isFieldChar c = true) : c.toNat < 128 := by
  have hbelow : ∀ {last : Char}, last.toNat < 128 → c.val ≤ last.val → c.toNat < 128 :=
    fun hlast hle => Nat.lt_of_le_of_lt (UInt32.le_iff_toNat_le.mp hle) hlast
  simp only [isFieldChar, Bool.or_eq_true, beq_iff_eq] at h
  rcases h with ((halnum | rfl) | rfl) | rfl
  · rcases Bool.or_eq_true_iff.mp halnum with halpha | hdigit
    · rcases Bool.or_eq_true_iff.mp halpha with hupper | hlower
      · have hlast : c.val ≤ 'Z'.val := (of_decide_eq_true hupper).2
        exact hbelow (by decide) hlast
      · have hlast : c.val ≤ 'z'.val := of_decide_eq_true (Bool.and_eq_true_iff.mp hlower).2
        exact hbelow (by decide) hlast
    · have hlast : c.val ≤ '9'.val := of_decide_eq_true (Bool.and_eq_true_iff.mp hdigit).2
      exact hbelow (by decide) hlast
  all_goals decide

theorem fieldChar_spec {c : Char} (h : isFieldChar c = true) :
    isKeyChar c = true ∧ isRegexSpace c = false ∧ foldChar c = lowerChar c ∧
      ((lowerChar c).isLower = true → isWordChar c = true) := by
  refine ascii_cases (P := fun c => isFieldChar c = true → isKeyChar c = true ∧
    isRegexSpace c = false ∧ foldChar c = lowerChar c ∧
      ((lowerChar c).isLower = true → isWordChar c = true)) ?_ (ascii_of_isFieldChar h) h
  decide +kernel

theorem marker_spec : ∀ marker ∈ sensitiveMarkers, marker.toList ≠ [] ∧
    ∀ c ∈ marker.toList, foldChar c = c ∧ c.isLower = true := by
  have hletters : ∀ marker ∈ sensitiveMarkers, marker.toList ≠ [] ∧
      marker.toList.all (fun c => foldChar c == c && c.isLower) = true := by
    decide +kernel
  intro marker hmarker
  obtain ⟨hne, hall⟩ := hletters marker hmarker
  refine ⟨hne, fun c hc => ?_⟩
  have hboth := List.all_eq_true.mp hall c hc
  rw [Bool.and_eq_true, beq_iff_eq] at hboth
  exact hboth

end Characters

section Marker

theorem forall₂_foldEq_iff {letters used : List Char} (h : ∀ c ∈ letters, foldChar c = c) :
    List.Forall₂ (fun x y => foldEq x y = true) letters used ↔ used.map foldChar = letters := by
  have hletters : letters.map foldChar = letters := by
    rw [List.map_congr_left h, List.map_id']
  calc List.Forall₂ (fun x y => foldEq x y = true) letters used
      ↔ List.Forall₂ (fun x y => foldChar x = foldChar y) letters used := by
        simp only [foldEq, beq_iff_eq]
    _ ↔ letters.map foldChar = used.map foldChar := by
        rw [← List.forall₂_eq_eq_eq, List.forall₂_map_left_iff, List.forall₂_map_right_iff]
    _ ↔ used.map foldChar = letters := by rw [hletters, eq_comm]

theorem mem_ends_anyMarker {c : Cursor} {m : Captures × Cursor} :
    m ∈ anyMarker.ends c ↔ m.1 = [] ∧ ∃ marker ∈ sensitiveMarkers, ∃ used,
      c.Behind used m.2 ∧ used.map foldChar = marker.toList := by
  have hword : m ∈ anyMarker.ends c ↔
      ∃ marker ∈ sensitiveMarkers, m ∈ (word foldEq marker).ends c := by
    simp [anyMarker, ends_alt, sensitiveMarkers]
  have hfold : ∀ marker ∈ sensitiveMarkers, ∀ used,
      (List.Forall₂ (fun x y => foldEq x y = true) marker.toList used ↔
        used.map foldChar = marker.toList) :=
    fun marker hmarker used =>
      forall₂_foldEq_iff fun c hc => ((marker_spec marker hmarker).2 c hc).1
  rw [hword]
  constructor
  · rintro ⟨marker, hmarker, hm⟩
    obtain ⟨hnone, used, hbehind, hused⟩ := mem_ends_word.mp hm
    exact ⟨hnone, marker, hmarker, used, hbehind, (hfold marker hmarker used).mp hused⟩
  · rintro ⟨hnone, marker, hmarker, used, hbehind, hused⟩
    exact ⟨marker, hmarker,
      mem_ends_word.mpr ⟨hnone, used, hbehind, (hfold marker hmarker used).mpr hused⟩⟩

variable {before : Option Char} {key rest : List Char}

theorem map_foldChar (hkey : ∀ c ∈ key, isFieldChar c = true) :
    key.map foldChar = key.map lowerChar :=
  List.map_congr_left fun c hc => (fieldChar_spec (hkey c hc)).2.2.1

/-- A marker that matches in front of a text that no letter starts lies within the key. -/
theorem marker_within (hkey : ∀ c ∈ key, isFieldChar c = true)
    (hrest : ∀ c ∈ rest.head?, (foldChar c).isLower = false) {m : Captures × Cursor}
    (hm : m ∈ anyMarker.ends ⟨before, key ++ rest⟩) :
    ∃ used more, key = used ++ more ∧ m = ([], ⟨passed before used, more ++ rest⟩) ∧
      ∃ marker ∈ sensitiveMarkers, used.map lowerChar = marker.toList := by
  obtain ⟨hnone, marker, hmarker, used, ⟨htext, hbefore⟩, hused⟩ := mem_ends_anyMarker.mp hm
  have hkept : ∃ more, key = used ++ more ∧ m.2.rest = more ++ rest := by
    rcases List.append_eq_append_iff.mp htext with ⟨beyond, hbeyond, hsplit⟩ | hinside
    · cases beyond with
      | nil => exact ⟨[], by rw [hbeyond, List.append_nil, List.append_nil], hsplit.symm⟩
      | cons c beyond =>
        -- the first character behind the key would be a letter of the marker
        have hc : c ∈ used := by rw [hbeyond]; simp
        have hfold : foldChar c ∈ marker.toList := hused ▸ List.mem_map_of_mem hc
        have hlower := ((marker_spec marker hmarker).2 _ hfold).2
        rw [hrest c (by rw [hsplit]; rfl)] at hlower
        cases hlower
    · exact hinside
  obtain ⟨more, hmore, hstop⟩ := hkept
  have hfields : ∀ c ∈ used, isFieldChar c = true :=
    fun c hc => hkey c (hmore ▸ List.mem_append_left _ hc)
  refine ⟨used, more, hmore, ?_, marker, hmarker, (map_foldChar hfields).symm.trans hused⟩
  rw [← hstop, ← hbefore, ← hnone]

theorem starts_of_marker {used more : List Char} (h : ∃ marker ∈ sensitiveMarkers,
    used.map lowerChar = marker.toList) : Starts (used ++ more) := by
  obtain ⟨marker, hmarker, hused⟩ := h
  exact ⟨marker, hmarker, by rw [List.map_append, hused]; exact List.prefix_append _ _⟩

/-- A marker starts with a word character. -/
theorem Starts.head (hkey : ∀ c ∈ key, isFieldChar c = true) (h : Starts key) :
    ∃ c more, key = c :: more ∧ isWordChar c = true := by
  obtain ⟨marker, hmarker, tail, htail⟩ := h
  obtain ⟨hne, hletters⟩ := marker_spec marker hmarker
  obtain ⟨letter, letters, hcons⟩ := List.exists_cons_of_ne_nil hne
  rw [hcons, List.cons_append] at htail
  obtain ⟨c, more, hsplit, hc, -⟩ := List.map_eq_cons_iff.mp htail.symm
  refine ⟨c, more, hsplit, (fieldChar_spec (hkey c (hsplit ▸ List.mem_cons_self))).2.2.2 ?_⟩
  rw [hc]
  exact (hletters letter (hcons ▸ List.mem_cons_self)).2

theorem Starts.prefers (hkey : ∀ c ∈ key, isFieldChar c = true)
    (hrest : ∀ c ∈ rest.head?, (foldChar c).isLower = false) (h : Starts key) :
    ∃ used more, key = used ++ more ∧
      anyMarker.Prefers ⟨before, key ++ rest⟩ ([], ⟨passed before used, more ++ rest⟩) := by
  obtain ⟨marker, hmarker, tail, htail⟩ := h
  obtain ⟨front, back, hsplit, hfront, -⟩ := List.map_eq_append_iff.mp htail.symm
  have hfields : ∀ c ∈ front, isFieldChar c = true :=
    fun c hc => hkey c (hsplit ▸ List.mem_append_left _ hc)
  have hmem : ([], ⟨passed before front, back ++ rest⟩) ∈
      anyMarker.ends ⟨before, key ++ rest⟩ := by
    refine mem_ends_anyMarker.mpr ⟨rfl, marker, hmarker, front, ⟨?_, rfl⟩, ?_⟩
    · rw [hsplit, List.append_assoc]
    · rw [map_foldChar hfields, hfront]
  obtain ⟨m, hm, hprefers⟩ := prefers_of_ne_nil (List.ne_nil_of_mem hmem)
  obtain ⟨used, more, hkeep, rfl, -⟩ := marker_within hkey hrest hm
  exact ⟨used, more, hkeep, hprefers⟩

end Marker

section Value

/-- The alternatives for the value of an assignment. -/
def assignedValue : Regex := .alt (quoted '"') (.alt (quoted '\'') (.some1 isValueChar))

variable {before : Option Char} {quote : Char} {text : List Char}

theorem prefers_quoted {inner tail : List Char} (h : quote ∉ inner) :
    (quoted quote).Prefers ⟨before, quote :: (inner ++ quote :: tail)⟩
      ([], ⟨some quote, tail⟩) := by
  have hinner : ∀ c ∈ inner, (c != quote) = true :=
    fun c hc => bne_iff_ne.mpr fun heq => h (heq ▸ hc)
  have hopen : (Regex.char (· == quote)).Prefers ⟨before, quote :: (inner ++ quote :: tail)⟩
      ([], ⟨some quote, inner ++ quote :: tail⟩) := prefers_char (beq_self_eq_true quote)
  have hmany : (many (· != quote)).Prefers ⟨some quote, inner ++ quote :: tail⟩
      ([], ⟨passed (some quote) inner, quote :: tail⟩) := prefers_many hinner (by simp)
  have hclose : (Regex.char (· == quote)).Prefers ⟨passed (some quote) inner, quote :: tail⟩
      ([], ⟨some quote, tail⟩) := prefers_char (beq_self_eq_true quote)
  exact hopen.seq (hmany.seq hclose)

/-- Without the quote at the start and another one behind it there is no quoted text. -/
theorem quoted_ends_eq_nil (h : ∀ rest, text = quote :: rest → quote ∉ rest) :
    (quoted quote).ends ⟨before, text⟩ = [] := by
  refine List.eq_nil_iff_forall_not_mem.mpr fun m hm => ?_
  obtain ⟨first, hfirst, second, hsecond, -⟩ := mem_ends_seq.mp hm
  obtain ⟨-, c, hc, hopen⟩ := mem_ends_char.mp hfirst
  obtain ⟨third, hthird, fourth, hfourth, -⟩ := mem_ends_seq.mp hsecond
  obtain ⟨inner, hinner⟩ := behind_of_mem_ends hthird
  obtain ⟨-, d, hd, hclose⟩ := mem_ends_char.mp hfourth
  have htext : text = quote :: first.2.rest := beq_iff_eq.mp hc ▸ hopen.rest
  refine h _ htext ?_
  rw [hinner.rest, hclose.rest, beq_iff_eq.mp hd]
  simp

theorem whole_iff {value : String} {rest : List Char} (h : value.toList = quote :: rest) :
    Whole value ↔ (quote = '"' ∨ quote = '\'' → quote ∉ rest.dropLast) := by
  constructor
  · exact fun hwhole => hwhole quote rest h
  · intro hclosed other others heq
    rw [h, List.cons.injEq] at heq
    obtain ⟨rfl, rfl⟩ := heq
    exact hclosed

theorem notMem_dropLast_iff {inner tail : List Char} (h : quote ∉ inner) :
    quote ∉ (inner ++ quote :: tail).dropLast ↔ tail = [] := by
  cases tail with
  | nil => simp [h]
  | cons c tail => simp [List.dropLast_append_of_ne_nil]

/-- The match for a value ends with the value, or where its quote is closed. -/
theorem prefers_assignedValue {value : String} (h : IsValue value) :
    ∃ stop, assignedValue.Prefers ⟨before, value.toList⟩ ([], stop) ∧
      (stop.rest = [] ↔ Whole value) := by
  obtain ⟨hne, hchars⟩ := h
  obtain ⟨c, rest, hvalue⟩ := List.exists_cons_of_ne_nil hne
  rw [hvalue] at hchars
  rw [hvalue, whole_iff hvalue]
  by_cases hclosed : (c = '"' ∨ c = '\'') ∧ c ∈ rest
  · obtain ⟨hquote, hmem⟩ := hclosed
    obtain ⟨inner, tail, rfl, hinner⟩ := List.eq_append_cons_of_mem hmem
    have hquoted : (quoted c).Prefers ⟨before, c :: (inner ++ c :: tail)⟩ ([], ⟨some c, tail⟩) :=
      prefers_quoted hinner
    refine ⟨⟨some c, tail⟩, ?_, ?_⟩
    · rcases hquote with rfl | rfl
      · exact hquoted.left
      · have hdouble : (quoted '"').ends ⟨before, '\'' :: (inner ++ '\'' :: tail)⟩ = [] :=
          quoted_ends_eq_nil fun rest heq => absurd (List.cons.inj heq).1 (by decide)
        exact .right hdouble hquoted.left
    · rw [notMem_dropLast_iff hinner]
      exact ⟨fun htail _ => htail, fun htail => htail hquote⟩
  · have hbare : ∀ quote, quote = '"' ∨ quote = '\'' →
        (quoted quote).ends ⟨before, c :: rest⟩ = [] := by
      intro quote hquote
      refine quoted_ends_eq_nil fun others heq hmem => hclosed ?_
      rw [List.cons.injEq] at heq
      obtain ⟨rfl, rfl⟩ := heq
      exact ⟨hquote, hmem⟩
    have hall : (some1 isValueChar).Prefers ⟨before, c :: (rest ++ [])⟩
        ([], ⟨passed before (c :: rest), []⟩) :=
      prefers_some1 (hchars c List.mem_cons_self)
        (fun d hd => hchars d (List.mem_cons_of_mem _ hd)) (by simp)
    rw [List.append_nil] at hall
    refine ⟨_, .right (hbare _ (Or.inl rfl)) (.right (hbare _ (Or.inr rfl)) hall), ?_⟩
    exact ⟨fun _ hquote hmem => hclosed ⟨hquote, List.mem_of_mem_dropLast hmem⟩, fun _ => rfl⟩

end Value

section Assignment

variable {before : Option Char} {key rest : List Char}

/-- What takes the place of an assignment. -/
def assignmentText (captures : Captures) : List Char :=
  captures.text 1 ++ captures.text 2 ++ captures.text 3 ++ redactedValue.toList

theorem assignmentText_ne_nil (captures : Captures) : assignmentText captures ≠ [] := by
  have hvalue : redactedValue.toList ≠ [] := by decide +kernel
  simp [assignmentText, hvalue]

/-- A match starts at a marker that starts a word. -/
theorem starts_of_assignment (hkey : ∀ c ∈ key, isFieldChar c = true)
    (hrest : ∀ c ∈ rest.head?, (foldChar c).isLower = false)
    (h : sensitiveAssignment.ends ⟨before, key ++ rest⟩ ≠ []) :
    before.any isWordChar = false ∧ Starts key := by
  obtain ⟨m, hm⟩ := List.exists_mem_of_ne_nil _ h
  obtain ⟨first, hfirst, second, hsecond, -⟩ := mem_ends_seq.mp hm
  obtain ⟨hboundary, rfl⟩ := mem_ends_boundary.mp hfirst
  obtain ⟨third, hthird, -⟩ := mem_ends_seq.mp hsecond
  obtain ⟨marker, hmarker, -⟩ := List.mem_map.mp hthird
  obtain ⟨used, more, hsplit, -, hused⟩ := marker_within hkey hrest hmarker
  have hstarts : Starts key := hsplit ▸ starts_of_marker hused
  obtain ⟨c, others, hcons, hword⟩ := hstarts.head hkey
  refine ⟨?_, hstarts⟩
  simpa [hcons, hword] using hboundary

variable {value : String} {sep : Separator}

theorem mark_spec (sep : Separator) : (foldChar sep.mark).isLower = false ∧
    isKeyChar sep.mark = false ∧ isRegexSpace sep.mark = false ∧
    (sep.mark == '=' || sep.mark == ':') = true ∧ ∀ c ∈ sep.spaces, isRegexSpace c = true := by
  have hspaces : sep.spaces.all isRegexSpace = true := by cases sep <;> decide +kernel
  refine ⟨?_, ?_, ?_, ?_, List.all_eq_true.mp hspaces⟩ <;> cases sep <;> decide +kernel

/-- What follows the marker in an assignment. -/
def assignmentTail : Regex :=
  .seq (.group 2 (.many isKeyChar)) <| .seq (.many isRegexSpace) <|
    .seq (.group 3 (.char fun c => c == '=' || c == ':')) <| .seq (.many isRegexSpace) assignedValue

theorem prefers_assignmentTail {more text : List Char} {stop : Cursor}
    (hmore : ∀ c ∈ more, isKeyChar c = true)
    (hvisible : ∀ c ∈ text.head?, isRegexSpace c = false)
    (hstop : assignedValue.Prefers ⟨passed (some sep.mark) sep.spaces, text⟩ ([], stop)) :
    assignmentTail.Prefers ⟨before, more ++ sep.mark :: (sep.spaces ++ text)⟩
      ([(2, more), (3, [sep.mark])], stop) := by
  obtain ⟨-, hkeyChar, hspace, hmark, hspaces⟩ := mark_spec sep
  have hname : (many isKeyChar).Prefers ⟨before, more ++ sep.mark :: (sep.spaces ++ text)⟩
      ([], ⟨passed before more, sep.mark :: (sep.spaces ++ text)⟩) :=
    prefers_many hmore (by simpa using hkeyChar)
  have hgap : (many isRegexSpace).Prefers
      ⟨passed before more, [] ++ sep.mark :: (sep.spaces ++ text)⟩
      ([], ⟨passed before more, sep.mark :: (sep.spaces ++ text)⟩) :=
    prefers_many (List.forall_mem_nil _) (by simpa using hspace)
  have hsep : (Regex.char fun c => c == '=' || c == ':').Prefers
      ⟨passed before more, sep.mark :: (sep.spaces ++ text)⟩
      ([], ⟨some sep.mark, sep.spaces ++ text⟩) := prefers_char hmark
  have hblank : (many isRegexSpace).Prefers ⟨some sep.mark, sep.spaces ++ text⟩
      ([], ⟨passed (some sep.mark) sep.spaces, text⟩) := prefers_many hspaces hvisible
  exact (hname.group 2 more ⟨rfl, rfl⟩).seq (hgap.seq
    ((hsep.group 3 [sep.mark] ⟨rfl, rfl⟩).seq (hblank.seq hstop)))

/-- Where a marker starts a word, the match takes the rest of the key, the separator and the
value, and keeps the key and the mark. -/
theorem prefers_assignment {text : List Char} {stop : Cursor}
    (hbefore : before.any isWordChar = false) (hkey : ∀ c ∈ key, isFieldChar c = true)
    (hstarts : Starts key) (hvisible : ∀ c ∈ text.head?, isRegexSpace c = false)
    (hstop : assignedValue.Prefers ⟨passed (some sep.mark) sep.spaces, text⟩ ([], stop)) :
    ∃ captures, sensitiveAssignment.Prefers
        ⟨before, key ++ sep.mark :: (sep.spaces ++ text)⟩ (captures, stop) ∧
      assignmentText captures = key ++ sep.mark :: redactedValue.toList := by
  obtain ⟨c, others, hcons, hword⟩ := hstarts.head hkey
  have hboundary : boundary.Prefers ⟨before, key ++ sep.mark :: (sep.spaces ++ text)⟩
      ([], ⟨before, key ++ sep.mark :: (sep.spaces ++ text)⟩) :=
    prefers_boundary (by simp [hcons, hword, hbefore])
  obtain ⟨used, more, hsplit, hmarker⟩ : ∃ used more, key = used ++ more ∧ anyMarker.Prefers
      ⟨before, key ++ sep.mark :: (sep.spaces ++ text)⟩
      ([], ⟨passed before used, more ++ sep.mark :: (sep.spaces ++ text)⟩) :=
    hstarts.prefers hkey (by simpa using (mark_spec sep).1)
  have hmore : ∀ c ∈ more, isKeyChar c = true :=
    fun c hc => (fieldChar_spec (hkey c (hsplit ▸ List.mem_append_right _ hc))).1
  have htail : assignmentTail.Prefers
      ⟨passed before used, more ++ sep.mark :: (sep.spaces ++ text)⟩
      ([(2, more), (3, [sep.mark])], stop) := prefers_assignmentTail hmore hvisible hstop
  have hused := hmarker.group 1 used ⟨by rw [hsplit, List.append_assoc], rfl⟩
  refine ⟨_, hboundary.seq (hused.seq htail), ?_⟩
  show used ++ more ++ [sep.mark] ++ redactedValue.toList = _
  rw [hsplit, List.append_assoc, List.singleton_append]

/-- The first character of a value is visible. -/
theorem IsValue.visible (hvalue : IsValue value) :
    ∀ c ∈ value.toList.head?, isRegexSpace c = false := by
  intro c hc
  have hchar := hvalue.2 c (List.mem_of_mem_head? hc)
  simp only [isValueChar, Bool.not_eq_true', Bool.or_eq_false_iff] at hchar
  exact hchar.1.1

/-- Some marker of the rest of a key starts where a word starts. -/
def ExposedFrom (before : Option Char) (key : List Char) : Prop :=
  ∃ front back, key = front ++ back ∧ (passed before front).any isWordChar = false ∧ Starts back

theorem exposed_iff (key : String) : Exposed key ↔ ExposedFrom none key.toList := by
  have hlast : ∀ front : List Char, (∀ c ∈ front.getLast?, isWordChar c = false) ↔
      (passed none front).any isWordChar = false := by
    intro front
    rw [passed_eq, Option.or_none]
    cases front.getLast? <;> simp
  simp only [Exposed, ExposedFrom, hlast]

theorem exposedFrom_cons {c : Char} : ExposedFrom before (c :: key) ↔
    (before.any isWordChar = false ∧ Starts (c :: key)) ∨ ExposedFrom (some c) key := by
  constructor
  · rintro ⟨front, back, hsplit, hbefore, hstarts⟩
    cases front with
    | nil =>
      cases hsplit
      exact Or.inl ⟨hbefore, hstarts⟩
    | cons d front =>
      cases hsplit
      exact Or.inr ⟨front, back, rfl, hbefore, hstarts⟩
  · rintro (⟨hbefore, hstarts⟩ | ⟨front, back, rfl, hbefore, hstarts⟩)
    · exact ⟨[], c :: key, rfl, hbefore, hstarts⟩
    · exact ⟨c :: front, back, rfl, hbefore, hstarts⟩

theorem not_exposedFrom_nil : ¬ ExposedFrom before [] := by
  rintro ⟨front, back, hsplit, -, hstarts⟩
  obtain ⟨-, rfl⟩ := List.append_eq_nil_iff.mp hsplit.symm
  obtain ⟨c, more, hcons, -⟩ := hstarts.head (List.forall_mem_nil _)
  cases hcons

/-- The scan keeps an exposed key and its mark, and replaces the value as far as it is matched. -/
theorem replace_exposed (hkey : ∀ c ∈ key, isFieldChar c = true)
    (hexposed : ExposedFrom before key) (hvalue : IsValue value) :
    ∃ stop : Cursor, (stop.rest = [] ↔ Whole value) ∧
      sensitiveAssignment.replaceFrom assignmentText 0 before
          (key ++ sep.mark :: (sep.spaces ++ value.toList)) =
        key ++ sep.mark :: (redactedValue.toList ++
          sensitiveAssignment.replaceFrom assignmentText 0 stop.before stop.rest) := by
  induction key generalizing before with
  | nil => exact absurd hexposed not_exposedFrom_nil
  | cons c key ih =>
    by_cases hhere : before.any isWordChar = false ∧ Starts (c :: key)
    · obtain ⟨stop, hstop, hwhole⟩ :
          ∃ stop, assignedValue.Prefers ⟨passed (some sep.mark) sep.spaces, value.toList⟩
              ([], stop) ∧ (stop.rest = [] ↔ Whole value) := prefers_assignedValue hvalue
      obtain ⟨captures, hprefers, htext⟩ :=
        prefers_assignment hhere.1 hkey hhere.2 hvalue.visible hstop
      obtain ⟨taken, htaken⟩ := hstop.behind
      have hlength : value.toList = taken ++ stop.rest := htaken.rest
      have htaken : stop.rest.length <
          (c :: key ++ sep.mark :: (sep.spaces ++ value.toList)).length := by
        simp only [hlength, List.length_append, List.length_cons]
        omega
      refine ⟨stop, hwhole, ?_⟩
      rw [replaceFrom_match hprefers htaken, htext, List.append_assoc]
      rfl
    · have hlater := (exposedFrom_cons.mp hexposed).resolve_left hhere
      have hnone : sensitiveAssignment.ends
          ⟨before, c :: (key ++ sep.mark :: (sep.spaces ++ value.toList))⟩ = [] := by
        by_contra hmatch
        exact hhere (starts_of_assignment hkey (by simpa using (mark_spec sep).1) hmatch)
      obtain ⟨stop, hwhole, hscan⟩ := ih (fun d hd => hkey d (List.mem_cons_of_mem _ hd)) hlater
      refine ⟨stop, hwhole, ?_⟩
      rw [List.cons_append, replaceFrom_step hnone, hscan, List.cons_append]

/-- The scan finds nothing in a key that is not exposed. -/
theorem replace_unexposed (hkey : ∀ c ∈ key, isFieldChar c = true)
    (hrest : ∀ c ∈ rest.head?, (foldChar c).isLower = false)
    (hexposed : ¬ ExposedFrom before key) :
    sensitiveAssignment.replaceFrom assignmentText 0 before (key ++ rest) =
      key ++ sensitiveAssignment.replaceFrom assignmentText 0 (passed before key) rest := by
  refine replaceFrom_pass fun front c back hsplit => ?_
  by_contra hmatch
  have hfields : ∀ d ∈ c :: back, isFieldChar d = true :=
    fun d hd => hkey d (hsplit ▸ List.mem_append_right _ hd)
  obtain ⟨hbefore, hstarts⟩ := starts_of_assignment hfields hrest hmatch
  exact hexposed ⟨front, c :: back, hsplit, hbefore, hstarts⟩

theorem assignment_length {c : Cursor} (h : sensitiveAssignment.ends c ≠ []) :
    5 ≤ c.rest.length := by
  have hlength : ∀ marker ∈ sensitiveMarkers, 5 ≤ marker.toList.length := by decide +kernel
  obtain ⟨m, hm⟩ := List.exists_mem_of_ne_nil _ h
  obtain ⟨first, hfirst, second, hsecond, -⟩ := mem_ends_seq.mp hm
  obtain ⟨-, rfl⟩ := mem_ends_boundary.mp hfirst
  obtain ⟨third, hthird, -⟩ := mem_ends_seq.mp hsecond
  obtain ⟨inner, hinner, -⟩ := List.mem_map.mp hthird
  obtain ⟨-, marker, hmarker, used, hbehind, hused⟩ := mem_ends_anyMarker.mp hinner
  calc 5 ≤ marker.toList.length := hlength marker hmarker
    _ = used.length := by rw [← hused, List.length_map]
    _ ≤ c.rest.length := by rw [hbehind.rest, List.length_append]; exact Nat.le_add_right _ _

end Assignment

section Authorization

variable {before : Option Char} {f : Captures → List Char}

/-- A match needs the word and whitespace behind it. -/
theorem authorization_text {c : Cursor} (h : authorizationValue.ends c ≠ []) :
    ∃ used space rest, c.rest = used ++ space :: rest ∧
      used.map foldChar = "authorization".toList ∧ isRegexSpace space = true := by
  obtain ⟨m, hm⟩ := List.exists_mem_of_ne_nil _ h
  obtain ⟨first, hfirst, second, hsecond, -⟩ := mem_ends_seq.mp hm
  obtain ⟨-, rfl⟩ := mem_ends_boundary.mp hfirst
  obtain ⟨third, hthird, fourth, hfourth, -⟩ := mem_ends_seq.mp hsecond
  obtain ⟨-, used, hbehind, hused⟩ := mem_ends_word.mp hthird
  obtain ⟨fifth, hfifth, -⟩ := mem_ends_seq.mp hfourth
  obtain ⟨sixth, hsixth, -⟩ := mem_ends_seq.mp hfifth
  obtain ⟨-, space, hspace, hnext⟩ := mem_ends_char.mp hsixth
  have hletters := (marker_spec "authorization" (by decide)).2
  refine ⟨used, space, sixth.2.rest, ?_,
    (forall₂_foldEq_iff fun c hc => (hletters c hc).1).mp hused, hspace⟩
  rw [hbehind.rest, hnext.rest]
  rfl

theorem authorization_length {c : Cursor} (h : authorizationValue.ends c ≠ []) :
    13 ≤ c.rest.length := by
  obtain ⟨used, space, rest, htext, hused, -⟩ := authorization_text h
  have hlength : used.length = 13 := by
    rw [← List.length_map foldChar, hused]
    decide +kernel
  rw [htext, List.length_append, hlength]
  exact Nat.le_add_right _ _

/-- No match starts in front of a character that is neither a letter nor whitespace, unless
whitespace comes before it. -/
theorem authorization_none {kept rest : List Char} {c : Char}
    (hkept : ∀ d ∈ kept, isRegexSpace d = false) (hletter : (foldChar c).isLower = false)
    (hspace : isRegexSpace c = false) :
    authorizationValue.ends ⟨before, kept ++ c :: rest⟩ = [] := by
  by_contra hmatch
  obtain ⟨used, space, later, htext, hused, hblank⟩ := authorization_text hmatch
  have hlower : ∀ d ∈ used, (foldChar d).isLower = true := by
    intro d hd
    have hmem : foldChar d ∈ "authorization".toList := hused ▸ List.mem_map_of_mem hd
    exact ((marker_spec "authorization" (by decide)).2 _ hmem).2
  rcases List.append_eq_append_iff.mp htext with ⟨beyond, rfl, hsplit⟩ | ⟨inside, rfl, hsplit⟩
  · cases beyond with
    | nil =>
      cases hsplit
      rw [hspace] at hblank
      cases hblank
    | cons d beyond =>
      cases hsplit
      have hc := hlower c (by simp)
      rw [hletter] at hc
      cases hc
  · cases inside with
    | nil =>
      cases hsplit
      rw [hspace] at hblank
      cases hblank
    | cons d inside =>
      cases hsplit
      rw [hkept space (by simp)] at hblank
      cases hblank

theorem authorization_pass {kept rest : List Char} {c : Char}
    (hkept : ∀ d ∈ kept, isRegexSpace d = false) (hletter : (foldChar c).isLower = false)
    (hspace : isRegexSpace c = false) :
    authorizationValue.replaceFrom f 0 before (kept ++ c :: rest) =
      kept ++ c :: authorizationValue.replaceFrom f 0 (some c) rest := by
  induction kept generalizing before with
  | nil => exact replaceFrom_step (authorization_none hkept hletter hspace)
  | cons d kept ih =>
    have hnone : authorizationValue.ends ⟨before, d :: (kept ++ c :: rest)⟩ = [] :=
      authorization_none hkept hletter hspace
    rw [List.cons_append, replaceFrom_step hnone,
      ih fun e he => hkept e (List.mem_cons_of_mem _ he), List.cons_append]

theorem authorization_redacted (rest : List Char) :
    authorizationValue.replaceFrom f 0 before (redactedValue.toList ++ rest) =
      redactedValue.toList ++ authorizationValue.replaceFrom f 0 (some ']') rest := by
  have hsplit : ∀ text, redactedValue.toList ++ text = "[REDACTED".toList ++ ']' :: text :=
    fun _ => rfl
  have hvisible : "[REDACTED".toList.all (fun c => !isRegexSpace c) = true := by decide +kernel
  have hkept : ∀ c ∈ "[REDACTED".toList, isRegexSpace c = false := by
    intro c hc
    simpa using List.all_eq_true.mp hvisible c hc
  rw [hsplit, hsplit]
  exact authorization_pass hkept (by decide +kernel) (by decide +kernel)

end Authorization

section Text

variable {key value : String} {sep : Separator}

/-- What takes the place of an authorization value. -/
def authorizationText (_ : Captures) : List Char := ("authorization " ++ redactedValue).toList

theorem toList_redactText (text : String) : (redactText text).toList =
    authorizationValue.replaceFrom authorizationText 0 none
      (sensitiveAssignment.replaceFrom assignmentText 0 none text.toList) := by
  have hassigned : (fun captures : Captures => captures.text 1 ++ captures.text 2 ++
    captures.text 3 ++ redactedValue.toList) = assignmentText := rfl
  simp only [redactText, replaceAll, chars_eq, ofChars_eq, String.toList_ofList, hassigned]
  rfl

theorem toList_assignment : (key ++ sep.text ++ value).toList =
    key.toList ++ sep.mark :: (sep.spaces ++ value.toList) := by
  rw [String.toList_append, String.toList_append, sep.toList_text, List.append_assoc,
    List.cons_append]

theorem fields_visible (hkey : ∀ c ∈ key.toList, isFieldChar c = true) :
    ∀ c ∈ key.toList, isRegexSpace c = false :=
  fun c hc => (fieldChar_spec (hkey c hc)).2.1

theorem redactText_exposed (hkey : ∀ c ∈ key.toList, isFieldChar c = true)
    (hexposed : Exposed key) (hvalue : IsValue value) :
    redactText (key ++ sep.text ++ value) = key ++ String.singleton sep.mark ++ redactedValue ↔
      Whole value := by
  obtain ⟨hletter, -, hspace, -⟩ := mark_spec sep
  obtain ⟨stop, hwhole, hscan⟩ :
      ∃ stop : Cursor, (stop.rest = [] ↔ Whole value) ∧
        sensitiveAssignment.replaceFrom assignmentText 0 none
            (key.toList ++ sep.mark :: (sep.spaces ++ value.toList)) =
          key.toList ++ sep.mark :: (redactedValue.toList ++
            sensitiveAssignment.replaceFrom assignmentText 0 stop.before stop.rest) :=
    replace_exposed hkey ((exposed_iff key).mp hexposed) hvalue
  have hauthorization : ∀ captures, authorizationText captures ≠ [] := by
    intro captures
    unfold authorizationText
    decide +kernel
  have hredacted : (key ++ String.singleton sep.mark ++ redactedValue).toList =
      key.toList ++ sep.mark :: redactedValue.toList := by
    simp
  rw [← String.toList_inj, toList_redactText, toList_assignment, hscan,
    authorization_pass (fields_visible hkey) hletter hspace, authorization_redacted, hredacted,
    ← hwhole]
  simp [replaceFrom_eq_nil_iff hauthorization, replaceFrom_eq_nil_iff assignmentText_ne_nil]

/-- Behind a key that is not exposed a short value is left as it is. -/
theorem redactText_unexposed (hkey : ∀ c ∈ key.toList, isFieldChar c = true)
    (hexposed : ¬ Exposed key) (hshort : value.toList.length ≤ 2) :
    redactText (key ++ sep.text ++ value) = key ++ sep.text ++ value := by
  obtain ⟨hletter, -, hspace, -⟩ := mark_spec sep
  have hlength : sep.spaces.length ≤ 1 := by cases sep <;> decide
  have hfirst : ∀ before, sensitiveAssignment.replaceFrom assignmentText 0 before
      (sep.mark :: (sep.spaces ++ value.toList)) = sep.mark :: (sep.spaces ++ value.toList) := by
    intro before
    refine replaceFrom_short (fun _ => assignment_length) ?_
    rw [List.length_cons, List.length_append]
    omega
  have hsecond : ∀ before, authorizationValue.replaceFrom authorizationText 0 before
      (sep.spaces ++ value.toList) = sep.spaces ++ value.toList := by
    intro before
    refine replaceFrom_short (fun _ => authorization_length) ?_
    rw [List.length_append]
    omega
  rw [← String.toList_inj, toList_redactText, toList_assignment,
    replace_unexposed hkey (by simpa using hletter) (mt (exposed_iff key).mpr hexposed), hfirst,
    authorization_pass (fields_visible hkey) hletter hspace, hsecond]

theorem isValue_singleton {c : Char} (h : isValueChar c = true) :
    IsValue (String.singleton c) ∧ Whole (String.singleton c) := by
  have hlist : (String.singleton c).toList = [c] := String.toList_singleton c
  refine ⟨⟨?_, ?_⟩, (whole_iff hlist).mpr fun _ => List.not_mem_nil⟩
  · rw [hlist]
    exact List.cons_ne_nil _ _
  · intro d hd
    rw [hlist, List.mem_singleton] at hd
    rw [hd, h]

end Text

/-- The redaction of an assignment hides the value exactly for an exposed key: then, and only then,
no two values that are whole can be told apart. For such a key a value leaves a trace exactly when
it is not whole. -/
theorem redaction_hides_iff (key : String) (sep : Separator)
    (hkey : ∀ c ∈ key.toList, isFieldChar c = true) :
    (Exposed key ↔ ∀ v₁ v₂, IsValue v₁ → IsValue v₂ → Whole v₁ → Whole v₂ →
      redactText (key ++ sep.text ++ v₁) = redactText (key ++ sep.text ++ v₂)) ∧
    (Exposed key → ∀ v, IsValue v →
      (redactText (key ++ sep.text ++ v) = key ++ String.singleton sep.mark ++ redactedValue ↔
        Whole v)) := by
  refine ⟨⟨fun hexposed v₁ v₂ h₁ h₂ hwhole₁ hwhole₂ => ?_, fun hsame => ?_⟩,
    fun hexposed v hv => redactText_exposed hkey hexposed hv⟩
  · rw [(redactText_exposed hkey hexposed h₁).mpr hwhole₁,
      (redactText_exposed hkey hexposed h₂).mpr hwhole₂]
  · by_contra hexposed
    obtain ⟨hx, hxwhole⟩ := isValue_singleton (show isValueChar 'x' = true by decide)
    obtain ⟨hy, hywhole⟩ := isValue_singleton (show isValueChar 'y' = true by decide)
    have hleak := hsame _ _ hx hy hxwhole hywhole
    rw [redactText_unexposed hkey hexposed (by simp), redactText_unexposed hkey hexposed (by simp)]
      at hleak
    have hchars := congrArg String.toList hleak
    simp at hchars

/-- The marker of `api-token` starts a word, so neither a bare nor a quoted value shows. -/
theorem apiToken_hidden :
    redactText ("api-token" ++ ": " ++ "hunter2") =
      redactText ("api-token" ++ ": " ++ "\"letmein\"") := by
  have hdash : ∀ c ∈ "api-".toList.getLast?, isWordChar c = false := by
    intro c hc
    have hlast : "api-".toList.getLast? = some '-' := by decide +kernel
    rw [hlast] at hc
    cases hc
    decide
  have hexposed : Exposed "api-token" :=
    ⟨"api-".toList, "token".toList, by decide +kernel, hdash, "token", by decide +kernel,
      by decide +kernel⟩
  have hbare : Whole "hunter2" :=
    (whole_iff (show _ = 'h' :: "unter2".toList by decide +kernel)).mpr (by decide +kernel)
  have hquoted : Whole "\"letmein\"" :=
    (whole_iff (show _ = '"' :: "letmein\"".toList by decide +kernel)).mpr (by decide +kernel)
  exact (redaction_hides_iff "api-token" .colonSpace
    (List.all_eq_true.mp (by decide +kernel))).1.mp hexposed
    "hunter2" "\"letmein\"" (by decide +kernel) (by decide +kernel) hbare hquoted

/-- An underscore hides the marker of `DB_PASSWORD` from the expression, and what follows a closing
quote is kept. -/
theorem assignments_leak :
    (isSensitiveKey "DB_PASSWORD" = true ∧ (∀ c ∈ "DB_PASSWORD".toList, isFieldChar c = true) ∧
      IsValue "hunter2" ∧ IsValue "letmein" ∧
      redactText ("DB_PASSWORD" ++ "=" ++ "hunter2") ≠
        redactText ("DB_PASSWORD" ++ "=" ++ "letmein")) ∧
    (isSensitiveKey "password" = true ∧ (∀ c ∈ "password".toList, isFieldChar c = true) ∧
      IsValue "\"a\"b" ∧ IsValue "\"a\"c" ∧
      redactText ("password" ++ "=" ++ "\"a\"b") ≠
        redactText ("password" ++ "=" ++ "\"a\"c")) := by
  have hfields : ∀ key ∈ ["DB_PASSWORD", "password"], key.toList.all isFieldChar = true := by
    decide +kernel
  refine ⟨⟨by decide +kernel, List.all_eq_true.mp (hfields _ (by decide)), by decide +kernel,
    by decide +kernel, by decide +kernel⟩, by decide +kernel,
    List.all_eq_true.mp (hfields _ (by decide)), by decide +kernel, by decide +kernel,
    by decide +kernel⟩

end RuleRaven.Kube
