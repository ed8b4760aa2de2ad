import RuleRaven.Framework.Text
import Mathlib.Data.List.Forall2

namespace RuleRaven.Framework

/-- Regular expressions whose repetitions are over single characters. -/
inductive Regex where
  | eps
  | char (p : Char → Bool)
  | many (p : Char → Bool)
  | seq (a b : Regex)
  | alt (a b : Regex)
  | boundary
  | group (index : Nat) (r : Regex)

/-- A position in the text: the character before it and the text after it. -/
structure Cursor where
  before : Option Char
  rest : List Char

/-- The texts of the numbered groups. -/
abbrev Captures := List (Nat × List Char)

/-- ASCII word characters, those of `\b` and `\w`. -/
def isWordChar (c : Char) : Bool := c.isAlphanum || c == '_'

/-- The ends of a greedy repetition, the longest one first. -/
def manyFrom (p : Char → Bool) : Option Char → List Char → List Cursor
  | before, [] => [⟨before, []⟩]
  | before, c :: cs =>
    if p c then manyFrom p (some c) cs ++ [⟨before, c :: cs⟩] else [⟨before, c :: cs⟩]

namespace Regex

/-- All matches at a position, those that leftmost-first matching prefers first. -/
def ends : Regex → Cursor → List (Captures × Cursor)
  | eps, c => [([], c)]
  | char p, c =>
    match c.rest with
    | [] => []
    | x :: xs => if p x then [([], ⟨some x, xs⟩)] else []
  | many p, c => (manyFrom p c.before c.rest).map ([], ·)
  | seq a b, c => (a.ends c).flatMap fun m => (b.ends m.2).map fun n => (m.1 ++ n.1, n.2)
  | alt a b, c => a.ends c ++ b.ends c
  | boundary, c => if c.before.any isWordChar == c.rest.head?.any isWordChar then [] else [([], c)]
  | group index r, c => (r.ends c).map fun m =>
      ((index, c.rest.take (c.rest.length - m.2.rest.length)) :: m.1, m.2)

section Equations

variable (p : Char → Bool) (a b r : Regex) (index : Nat) (c : Cursor)

theorem ends_eps : eps.ends c = [([], c)] := rfl

theorem ends_char_cons (before : Option Char) (x : Char) (xs : List Char) :
    (char p).ends ⟨before, x :: xs⟩ = if p x then [([], ⟨some x, xs⟩)] else [] := rfl

theorem ends_many : (many p).ends c = (manyFrom p c.before c.rest).map ([], ·) := rfl

theorem ends_seq : (seq a b).ends c =
    (a.ends c).flatMap fun m => (b.ends m.2).map fun n => (m.1 ++ n.1, n.2) := rfl

theorem ends_alt : (alt a b).ends c = a.ends c ++ b.ends c := rfl

theorem ends_boundary : boundary.ends c =
    if c.before.any isWordChar == c.rest.head?.any isWordChar then [] else [([], c)] := rfl

theorem ends_group : (group index r).ends c = (r.ends c).map fun m =>
    ((index, c.rest.take (c.rest.length - m.2.rest.length)) :: m.1, m.2) := rfl

end Equations

/-- One or more characters, as many as possible. -/
def some1 (p : Char → Bool) : Regex := seq (char p) (many p)

/-- The given characters, each compared by `eq`. -/
def word (eq : Char → Char → Bool) (s : String) : Regex :=
  s.toList.foldr (fun c r => seq (char (eq c)) r) eps

/-- Scanning for matches that do not overlap. `skip` counts the characters that are left of
the last match. The expression is one that matches no empty text. -/
def replaceFrom (r : Regex) (replacement : Captures → List Char) :
    (skip : Nat) → Option Char → List Char → List Char
  | _, _, [] => []
  | skip + 1, _, c :: cs => replaceFrom r replacement skip (some c) cs
  | 0, before, c :: cs =>
    match r.ends ⟨before, c :: cs⟩ with
    | [] => c :: replaceFrom r replacement 0 (some c) cs
    | (captures, stop) :: _ =>
      replacement captures ++
        replaceFrom r replacement (cs.length - stop.rest.length) (some c) cs

/-- `Regexp.ReplaceAllString`, the template given as a function of the groups. -/
def replaceAll (r : Regex) (replacement : Captures → List Char) (s : String) : String :=
  ofChars (r.replaceFrom replacement 0 none (chars s))

end Regex

/-- The text of a group, empty when it took no part in the match. -/
def Captures.text (captures : Captures) (index : Nat) : List Char :=
  (captures.lookup index).getD []

theorem Captures.mem_text {captures : Captures} {index : Nat} {x : Char}
    (h : x ∈ captures.text index) : ∃ g ∈ captures, x ∈ g.2 := by
  unfold Captures.text at h
  induction captures with
  | nil => cases h
  | cons g captures ih =>
    rw [List.lookup_cons] at h
    cases hindex : index == g.1 with
    | true =>
      rw [hindex] at h
      exact ⟨g, List.mem_cons_self, h⟩
    | false =>
      rw [hindex] at h
      obtain ⟨g', hg', hx⟩ := ih h
      exact ⟨g', List.mem_cons_of_mem _ hg', hx⟩

/-- The character before the position behind `text`. -/
def passed (before : Option Char) (text : List Char) : Option Char :=
  text.foldl (fun _ c => some c) before

@[simp] theorem passed_nil (before : Option Char) : passed before [] = before := rfl

@[simp] theorem passed_cons (before : Option Char) (c : Char) (text : List Char) :
    passed before (c :: text) = passed (some c) text := rfl

theorem passed_append (before : Option Char) (s t : List Char) :
    passed before (s ++ t) = passed (passed before s) t := List.foldl_append

theorem passed_eq (before : Option Char) (text : List Char) :
    passed before text = text.getLast?.or before := by
  induction text generalizing before with
  | nil => rfl
  | cons c text ih =>
    rw [passed_cons, ih, List.getLast?_cons]
    cases text.getLast? <;> rfl

/-- The cursor `d` stands behind `used`, counted from the cursor `c`. -/
structure Cursor.Behind (c : Cursor) (used : List Char) (d : Cursor) : Prop where
  rest : c.rest = used ++ d.rest
  before : d.before = passed c.before used

theorem Cursor.Behind.trans {c d e : Cursor} {s t : List Char} (h : c.Behind s d)
    (h' : d.Behind t e) : c.Behind (s ++ t) e := by
  refine ⟨?_, ?_⟩
  · rw [h.rest, h'.rest, List.append_assoc]
  · rw [h'.before, h.before, passed_append]

theorem Cursor.behind_refl (c : Cursor) : c.Behind [] c := ⟨rfl, rfl⟩

theorem behind_of_mem_manyFrom {p : Char → Bool} {before : Option Char} {text : List Char}
    {d : Cursor} (h : d ∈ manyFrom p before text) :
    ∃ used, Cursor.Behind ⟨before, text⟩ used d ∧ ∀ c ∈ used, p c = true := by
  have hnone : ∀ c ∈ ([] : List Char), p c = true := List.forall_mem_nil _
  induction text generalizing before with
  | nil =>
    rw [manyFrom, List.mem_singleton] at h
    exact ⟨[], h ▸ Cursor.behind_refl _, hnone⟩
  | cons c text ih =>
    rw [manyFrom] at h
    split_ifs at h with hc
    · rcases List.mem_append.mp h with hlong | hhere
      · obtain ⟨used, hused, hall⟩ := ih hlong
        exact ⟨c :: used, ⟨congrArg (c :: ·) hused.rest, hused.before⟩,
          List.forall_mem_cons.mpr ⟨hc, hall⟩⟩
      · exact ⟨[], List.mem_singleton.mp hhere ▸ Cursor.behind_refl _, hnone⟩
    · exact ⟨[], List.mem_singleton.mp h ▸ Cursor.behind_refl _, hnone⟩

/-- A greedy repetition takes all that it can. -/
theorem head?_manyFrom {p : Char → Bool} {before : Option Char} {taken rest : List Char}
    (htaken : ∀ c ∈ taken, p c = true) (hrest : ∀ c ∈ rest.head?, p c = false) :
    (manyFrom p before (taken ++ rest)).head? = some ⟨passed before taken, rest⟩ := by
  induction taken generalizing before with
  | nil =>
    cases rest with
    | nil => rfl
    | cons c rest =>
      have hc := hrest c rfl
      simp [manyFrom, hc]
  | cons c taken ih =>
    have hc := htaken c List.mem_cons_self
    have hmore : ∀ c ∈ taken, p c = true := fun c hmem => htaken c (List.mem_cons_of_mem _ hmem)
    rw [List.cons_append, manyFrom, if_pos hc, List.head?_append, ih hmore]
    rfl

namespace Regex

theorem mem_ends_char {p : Char → Bool} {c : Cursor} {m : Captures × Cursor} :
    m ∈ (char p).ends c ↔ m.1 = [] ∧ ∃ x, p x = true ∧ c.Behind [x] m.2 := by
  obtain ⟨captures, before', rest'⟩ := m
  obtain ⟨before, rest⟩ := c
  constructor
  · intro h
    cases rest with
    | nil => cases h
    | cons x xs =>
      rw [ends_char_cons] at h
      split_ifs at h with hx
      · cases List.mem_singleton.mp h
        exact ⟨rfl, x, hx, rfl, rfl⟩
      · cases h
  · rintro ⟨hcaptures, x, hx, hrest, hbefore⟩
    cases hcaptures
    cases hrest
    cases hbefore
    rw [ends_char_cons, if_pos hx]
    exact List.mem_singleton_self _

theorem behind_of_mem_ends_many {p : Char → Bool} {c : Cursor} {m : Captures × Cursor}
    (h : m ∈ (many p).ends c) : ∃ used, c.Behind used m.2 ∧ ∀ x ∈ used, p x = true := by
  obtain ⟨d, hd, rfl⟩ := List.mem_map.mp h
  exact behind_of_mem_manyFrom hd

theorem mem_ends_seq {a b : Regex} {c : Cursor} {m : Captures × Cursor} :
    m ∈ (seq a b).ends c ↔
      ∃ first ∈ a.ends c, ∃ second ∈ b.ends first.2, (first.1 ++ second.1, second.2) = m := by
  simp only [ends_seq, List.mem_flatMap, List.mem_map]

theorem mem_ends_boundary {c : Cursor} {m : Captures × Cursor} :
    m ∈ boundary.ends c ↔
      c.before.any isWordChar ≠ c.rest.head?.any isWordChar ∧ m = ([], c) := by
  rw [ends_boundary]
  split_ifs with h
  · simp [beq_iff_eq.mp h]
  · simp [mt beq_iff_eq.mpr h]

/-- A match takes a part of the text. -/
theorem behind_of_mem_ends {r : Regex} {c : Cursor} {m : Captures × Cursor} (h : m ∈ r.ends c) :
    ∃ used, c.Behind used m.2 := by
  induction r generalizing c m with
  | eps =>
    rw [ends_eps, List.mem_singleton] at h
    exact ⟨[], h ▸ c.behind_refl⟩
  | char p =>
    obtain ⟨-, x, -, hx⟩ := mem_ends_char.mp h
    exact ⟨[x], hx⟩
  | many p =>
    obtain ⟨used, hused, -⟩ := behind_of_mem_ends_many h
    exact ⟨used, hused⟩
  | seq a b iha ihb =>
    obtain ⟨first, hfirst, second, hsecond, rfl⟩ := mem_ends_seq.mp h
    obtain ⟨s, hs⟩ := iha hfirst
    obtain ⟨t, ht⟩ := ihb hsecond
    exact ⟨s ++ t, hs.trans ht⟩
  | alt a b iha ihb => exact (List.mem_append.mp h).elim iha ihb
  | boundary =>
    obtain ⟨-, rfl⟩ := mem_ends_boundary.mp h
    exact ⟨[], c.behind_refl⟩
  | group index r ih =>
    obtain ⟨inner, hinner, rfl⟩ := List.mem_map.mp h
    obtain ⟨used, hused⟩ := ih hinner
    exact ⟨used, hused⟩

/-- Groups are parts of the text. -/
theorem mem_rest_of_mem_captures {r : Regex} {c : Cursor} {m : Captures × Cursor}
    (h : m ∈ r.ends c) : ∀ g ∈ m.1, ∀ x ∈ g.2, x ∈ c.rest := by
  induction r generalizing c m with
  | eps =>
    rw [ends_eps, List.mem_singleton] at h
    simp [h]
  | char p => simp [(mem_ends_char.mp h).1]
  | many p =>
    obtain ⟨d, -, rfl⟩ := List.mem_map.mp h
    simp
  | seq a b iha ihb =>
    obtain ⟨first, hfirst, second, hsecond, rfl⟩ := mem_ends_seq.mp h
    obtain ⟨used, hused⟩ := behind_of_mem_ends hfirst
    intro g hg x hx
    rcases List.mem_append.mp hg with hg | hg
    · exact iha hfirst g hg x hx
    · rw [hused.rest]
      exact List.mem_append_right _ (ihb hsecond g hg x hx)
  | alt a b iha ihb => exact (List.mem_append.mp h).elim iha ihb
  | boundary => simp [(mem_ends_boundary.mp h).2]
  | group index r ih =>
    obtain ⟨inner, hinner, rfl⟩ := List.mem_map.mp h
    intro g hg x hx
    rcases List.mem_cons.mp hg with rfl | hg
    · exact List.mem_of_mem_take hx
    · exact ih hinner g hg x hx

/-- The match that leftmost-first matching takes. -/
def Prefers (r : Regex) (c : Cursor) (m : Captures × Cursor) : Prop := (r.ends c).head? = some m

section Rules

variable {r a b : Regex} {c : Cursor} {m n : Captures × Cursor} {p : Char → Bool}
  {before : Option Char}

theorem Prefers.behind (h : r.Prefers c m) : ∃ used, c.Behind used m.2 :=
  behind_of_mem_ends (List.mem_of_mem_head? h)

theorem prefers_of_ne_nil (h : r.ends c ≠ []) : ∃ m ∈ r.ends c, r.Prefers c m :=
  ⟨(r.ends c).head h, List.head_mem h, List.head?_eq_some_head h⟩

theorem prefers_char {x : Char} {xs : List Char} (h : p x = true) :
    (char p).Prefers ⟨before, x :: xs⟩ ([], ⟨some x, xs⟩) := by
  rw [Prefers, ends_char_cons, if_pos h]
  rfl

theorem prefers_many {taken rest : List Char} (htaken : ∀ c ∈ taken, p c = true)
    (hrest : ∀ c ∈ rest.head?, p c = false) :
    (many p).Prefers ⟨before, taken ++ rest⟩ ([], ⟨passed before taken, rest⟩) := by
  rw [Prefers, ends_many, List.head?_map, head?_manyFrom htaken hrest]
  rfl

theorem prefers_boundary (h : c.before.any isWordChar ≠ c.rest.head?.any isWordChar) :
    boundary.Prefers c ([], c) := by
  simp [Prefers, ends_boundary, h]

theorem Prefers.seq (ha : a.Prefers c m) (hb : b.Prefers m.2 n) :
    (seq a b).Prefers c (m.1 ++ n.1, n.2) := by
  obtain ⟨later, hlater⟩ := List.head?_eq_some_iff.mp ha
  obtain ⟨further, hfurther⟩ := List.head?_eq_some_iff.mp hb
  simp [Prefers, ends_seq, hlater, hfurther]

theorem Prefers.left (ha : a.Prefers c m) : (alt a b).Prefers c m := by
  rw [Prefers, ends_alt, List.head?_append, ha]
  rfl

theorem Prefers.right (ha : a.ends c = []) (hb : b.Prefers c m) : (alt a b).Prefers c m := by
  rw [Prefers, ends_alt, ha, List.nil_append]
  exact hb

theorem Prefers.group (index : Nat) (used : List Char) (h : r.Prefers c m)
    (hused : c.Behind used m.2) : (group index r).Prefers c ((index, used) :: m.1, m.2) := by
  rw [Prefers, ends_group, List.head?_map, h, hused.rest]
  simp

theorem prefers_eps : eps.Prefers c ([], c) := rfl

theorem prefers_word {eq : Char → Char → Bool} {s : String} {used rest : List Char}
    (h : List.Forall₂ (fun x y => eq x y = true) s.toList used) :
    (word eq s).Prefers ⟨before, used ++ rest⟩ ([], ⟨passed before used, rest⟩) := by
  rw [word]
  generalize s.toList = letters at h
  induction h generalizing before with
  | nil => exact prefers_eps
  | cons hxy _ ih => exact (prefers_char hxy).seq ih

theorem prefers_some1 {x : Char} {taken rest : List Char} (hx : p x = true)
    (htaken : ∀ c ∈ taken, p c = true) (hrest : ∀ c ∈ rest.head?, p c = false) :
    (some1 p).Prefers ⟨before, x :: (taken ++ rest)⟩ ([], ⟨passed before (x :: taken), rest⟩) :=
  (prefers_char hx).seq (prefers_many htaken hrest)

/-- A word matches the texts that have its letters. -/
theorem mem_ends_word {eq : Char → Char → Bool} {s : String} :
    m ∈ (word eq s).ends c ↔ m.1 = [] ∧
      ∃ used, c.Behind used m.2 ∧ List.Forall₂ (fun x y => eq x y = true) s.toList used := by
  rw [word]
  induction s.toList generalizing c m with
  | nil =>
    simp only [List.foldr_nil, ends_eps, List.mem_singleton, List.forall₂_nil_left_iff]
    constructor
    · rintro rfl
      exact ⟨rfl, [], c.behind_refl, rfl⟩
    · rintro ⟨hcaptures, _, hbehind, rfl⟩
      have hrest : c.rest = m.2.rest := hbehind.rest
      have hbefore : m.2.before = c.before := hbehind.before
      obtain ⟨captures, before, rest⟩ := m
      obtain ⟨before', rest'⟩ := c
      simp_all
  | cons x xs ih =>
    simp only [List.foldr_cons, mem_ends_seq, mem_ends_char]
    constructor
    · rintro ⟨first, ⟨hnone, y, hy, hfirst⟩, second, hsecond, rfl⟩
      obtain ⟨hcaptures, used, hbehind, hused⟩ := ih.mp hsecond
      refine ⟨?_, y :: used, hfirst.trans hbehind, .cons hy hused⟩
      rw [hnone, hcaptures]
      rfl
    · rintro ⟨hcaptures, used, hbehind, hused⟩
      cases hused with
      | @cons _ y _ ys hy hys =>
        refine ⟨([], ⟨some y, ys ++ m.2.rest⟩), ⟨rfl, y, hy, hbehind.rest, rfl⟩, m, ?_, rfl⟩
        exact ih.mpr ⟨hcaptures, ys, ⟨rfl, hbehind.before⟩, hys⟩

end Rules

section Scan

variable {r : Regex} {f : Captures → List Char} {before : Option Char}

theorem replaceFrom_skip (used rest : List Char) :
    r.replaceFrom f used.length before (used ++ rest) =
      r.replaceFrom f 0 (passed before used) rest := by
  induction used generalizing before with
  | nil => rfl
  | cons c used ih =>
    rw [List.length_cons, List.cons_append, replaceFrom, ih]
    rfl

/-- A match that takes something is replaced, and the scan goes on behind it. -/
theorem replaceFrom_match {text : List Char} {captures : Captures} {stop : Cursor}
    (h : r.Prefers ⟨before, text⟩ (captures, stop)) (htaken : stop.rest.length < text.length) :
    r.replaceFrom f 0 before text =
      f captures ++ r.replaceFrom f 0 stop.before stop.rest := by
  obtain ⟨used, hbehind⟩ := h.behind
  have htext : text = used ++ stop.rest := hbehind.rest
  obtain ⟨later, hlater⟩ := List.head?_eq_some_iff.mp h
  cases used with
  | nil => simp [htext] at htaken
  | cons c used =>
    subst htext
    have hskip : (used ++ stop.rest).length - stop.rest.length = used.length := by simp
    have hbefore : stop.before = passed (some c) used := hbehind.before
    rw [List.cons_append] at hlater ⊢
    rw [replaceFrom, hlater]
    dsimp only
    rw [hskip, replaceFrom_skip, hbefore]

theorem replaceFrom_step {c : Char} {text : List Char} (h : r.ends ⟨before, c :: text⟩ = []) :
    r.replaceFrom f 0 before (c :: text) = c :: r.replaceFrom f 0 (some c) text := by
  rw [replaceFrom, h]

/-- What has no match in it is kept. -/
theorem replaceFrom_pass {kept rest : List Char}
    (h : ∀ front c back, kept = front ++ c :: back →
      r.ends ⟨passed before front, c :: (back ++ rest)⟩ = []) :
    r.replaceFrom f 0 before (kept ++ rest) =
      kept ++ r.replaceFrom f 0 (passed before kept) rest := by
  induction kept generalizing before with
  | nil => rfl
  | cons c kept ih =>
    have hhere : r.ends ⟨before, c :: (kept ++ rest)⟩ = [] := h [] c kept rfl
    have hlater := ih fun front d back hkept => h (c :: front) d back (by rw [hkept]; rfl)
    rw [List.cons_append, replaceFrom_step hhere, hlater]
    rfl

/-- A text that is too short for a match is kept. -/
theorem replaceFrom_short {n : Nat} (hr : ∀ c, r.ends c ≠ [] → n ≤ c.rest.length)
    {text : List Char} (h : text.length < n) : r.replaceFrom f 0 before text = text := by
  induction text generalizing before with
  | nil => rfl
  | cons c text ih =>
    have hnone : r.ends ⟨before, c :: text⟩ = [] := by
      by_contra hmatch
      exact absurd (hr _ hmatch) (Nat.not_le.mpr h)
    rw [replaceFrom_step hnone, ih (Nat.lt_of_succ_lt h)]

theorem replaceFrom_eq_nil_iff (hf : ∀ captures, f captures ≠ []) {text : List Char} :
    r.replaceFrom f 0 before text = [] ↔ text = [] := by
  cases text with
  | nil => exact Iff.rfl
  | cons c text =>
    rw [replaceFrom]
    split
    · simp
    · simp [hf]

/-- What is true of every character of a text, and of what takes the place of its matches, is true
of every character that the scan leaves. -/
theorem replaceFrom_forall {P : Char → Prop}
    (hf : ∀ captures : Captures, (∀ g ∈ captures, ∀ x ∈ g.2, P x) → ∀ x ∈ f captures, P x)
    {skip : Nat} {text : List Char} (h : ∀ x ∈ text, P x) :
    ∀ x ∈ r.replaceFrom f skip before text, P x := by
  induction text generalizing skip before with
  | nil => simp [replaceFrom]
  | cons c text ih =>
    have hrest : ∀ x ∈ text, P x := fun x hx => h x (List.mem_cons_of_mem _ hx)
    cases skip with
    | succ skip => exact ih hrest
    | zero =>
      rw [replaceFrom]
      split
      · intro x hx
        rcases List.mem_cons.mp hx with rfl | hx
        · exact h x List.mem_cons_self
        · exact ih hrest x hx
      · rename_i captures stop later hmatch
        have hmem : (captures, stop) ∈ r.ends ⟨before, c :: text⟩ :=
          hmatch ▸ List.mem_cons_self
        intro x hx
        rcases List.mem_append.mp hx with hx | hx
        · exact hf captures (fun g hg y hy => h y (mem_rest_of_mem_captures hmem g hg y hy)) x hx
        · exact ih hrest x hx

end Scan

end Regex

end RuleRaven.Framework
