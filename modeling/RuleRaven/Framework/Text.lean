import Mathlib.Data.List.Basic
import Mathlib.Data.List.TakeWhile

namespace RuleRaven.Framework

/-- `unicode.IsSpace`: the code points of property White_Space. -/
def isSpace (c : Char) : Bool :=
  let n := c.toNat
  (9 ≤ n && n ≤ 13) || n == 0x20 || n == 0x85 || n == 0xA0 || n == 0x1680 ||
    (0x2000 ≤ n && n ≤ 0x200A) || n == 0x2028 || n == 0x2029 || n == 0x202F ||
    n == 0x205F || n == 0x3000

def utf8Bytes (s : String) : List UInt8 := s.toByteArray.data.toList

theorem utf8Bytes_inj {s t : String} : utf8Bytes s = utf8Bytes t ↔ s = t := by
  rw [← String.toByteArray_inj, ByteArray.ext_iff, ← Array.toList_inj]
  rfl

/-- The characters of a string. An ASCII string is read through its bytes, which the kernel
evaluates in linear time. -/
def chars (s : String) : List Char :=
  let bytes := utf8Bytes s
  if bytes.all (· < 128) then bytes.map (fun b => Char.ofNat b.toNat) else s.toList

theorem utf8EncodeChar_ascii (c : Char) (h : ∀ b ∈ String.utf8EncodeChar c, b < 128) :
    (String.utf8EncodeChar c).map (fun b => Char.ofNat b.toNat) = [c] := by
  by_cases hc : c.toNat ≤ 127
  · have hlt : c.toNat < 2 ^ 8 := by omega
    have hbyte : String.utf8EncodeChar c = [UInt8.ofNat c.toNat] := if_pos hc
    rw [hbyte, List.map_singleton, UInt8.toNat_ofNat', Nat.mod_eq_of_lt hlt, Char.ofNat_toNat]
  · -- every byte of a longer encoding has its top bit set
    exfalso
    replace hc : ¬c.val.toNat ≤ 127 := hc
    simp only [String.utf8EncodeChar, hc, if_false] at h
    split_ifs at h <;> simp [UInt8.lt_iff_toNat_lt] at h <;> omega

@[simp] theorem chars_eq (s : String) : chars s = s.toList := by
  have hbytes : utf8Bytes s = s.toList.flatMap String.utf8EncodeChar := by
    conv_lhs => rw [utf8Bytes, ← String.ofList_toList (s := s), String.toByteArray_ofList]
    simp [List.utf8Encode]
  simp only [chars, hbytes]
  split_ifs with h
  · rw [List.map_flatMap]
    simp only [List.all_flatMap, List.all_eq_true, decide_eq_true_eq] at h
    calc s.toList.flatMap (fun c => (String.utf8EncodeChar c).map fun b => Char.ofNat b.toNat)
        = s.toList.flatMap fun c => [c] :=
          List.flatMap_congr fun c hc => utf8EncodeChar_ascii c (h c hc)
      _ = s.toList := List.flatMap_singleton' _
  · rfl

theorem utf8Encode_eq (cs : List Char) :
    (⟨⟨cs.flatMap String.utf8EncodeChar⟩⟩ : ByteArray) = cs.utf8Encode := by
  have h : cs.utf8Encode.data.toList = cs.flatMap String.utf8EncodeChar := by
    simp [List.utf8Encode]
  rw [← h]

/-- The string of these characters, its bytes laid down at once. -/
def ofChars (cs : List Char) : String :=
  ⟨⟨⟨cs.flatMap String.utf8EncodeChar⟩⟩, ⟨cs, utf8Encode_eq cs⟩⟩

@[simp] theorem ofChars_eq (cs : List Char) : ofChars cs = String.ofList cs := by
  unfold ofChars
  rw [← String.toByteArray_inj, String.toByteArray_ofList]
  exact utf8Encode_eq cs

/-- `strings.TrimSpace(s) == ""`. -/
def isBlank (s : String) : Bool := (chars s).all isSpace

def trimSpace (s : String) : String :=
  ofChars (((chars s).dropWhile isSpace).reverse.dropWhile isSpace).reverse

/-- No space stands at either end. -/
def unspaced (s : String) : Bool :=
  (chars s).head?.all (fun c => !isSpace c) && (chars s).getLast?.all (fun c => !isSpace c)

theorem dropWhile_eq_self {p : Char → Bool} {cs : List Char}
    (h : cs.head?.all (fun c => !p c) = true) : cs.dropWhile p = cs := by
  cases cs with
  | nil => rfl
  | cons c cs =>
    apply List.dropWhile_cons_of_neg
    simpa using h

theorem trimSpace_of_unspaced {s : String} (h : unspaced s = true) : trimSpace s = s := by
  rw [unspaced, Bool.and_eq_true] at h
  have hlast : (chars s).reverse.head?.all (fun c => !isSpace c) = true := by
    rw [List.head?_reverse]
    exact h.2
  rw [trimSpace, dropWhile_eq_self h.1, dropWhile_eq_self hlast, List.reverse_reverse, ofChars_eq,
    chars_eq, String.ofList_toList]

theorem trimSpace_eq_empty {s : String} : trimSpace s = "" ↔ isBlank s = true := by
  have hempty : ∀ cs : List Char, ofChars cs = "" ↔ cs = [] := by
    intro cs
    rw [ofChars_eq, ← String.toList_inj, String.toList_ofList]
    rfl
  rw [trimSpace, hempty, List.reverse_eq_nil_iff, List.dropWhile_eq_nil_iff, isBlank,
    List.all_eq_true]
  simp only [List.mem_reverse]
  constructor
  · intro h c hc
    rw [← List.takeWhile_append_dropWhile (p := isSpace) (l := chars s), List.mem_append] at hc
    exact hc.elim List.mem_takeWhile_imp (h c)
  · intro h c hc
    exact h c ((List.dropWhile_suffix _).subset hc)

/-- A hexadecimal digit in lower case. -/
def isHexDigit (c : Char) : Bool := c.isDigit || decide ('a' ≤ c ∧ c ≤ 'f')

theorem isHexDigit_bounds {c : Char} (h : isHexDigit c = true) :
    48 ≤ c.toNat ∧ c.toNat ≤ 102 := by
  simp only [isHexDigit, Char.isDigit, Bool.or_eq_true, Bool.and_eq_true, decide_eq_true_eq] at h
  rcases h with ⟨hlo, hhi⟩ | ⟨hlo, hhi⟩
  · have hlo : 48 ≤ c.toNat := hlo
    have hhi : c.toNat ≤ 57 := hhi
    omega
  · have hlo : 97 ≤ c.toNat := hlo
    have hhi : c.toNat ≤ 102 := hhi
    omega

theorem isSpace_of_isHexDigit {c : Char} (h : isHexDigit c = true) : isSpace c = false := by
  have hbounds := isHexDigit_bounds h
  simp only [isSpace, Bool.or_eq_false_iff, Bool.and_eq_false_iff, decide_eq_false_iff_not,
    beq_eq_false_iff_ne]
  omega

/-- Lower case, as far as it can produce an ASCII letter: besides the capital letters, the Kelvin
sign and the dotted I are lowered to one. -/
def lowerChar (c : Char) : Char :=
  if c = '\u212a' then 'k' else if c = '\u0130' then 'i' else c.toLower

/-- `strings.ToLower`, as far as it can produce an ASCII letter. -/
def toLower (s : String) : String := ofChars ((chars s).map lowerChar)

/-- Simple case folding onto ASCII: besides the letters themselves, the long s and the
Kelvin sign fold to a letter. -/
def foldChar (c : Char) : Char :=
  if c = '\u017f' then 's' else if c = '\u212a' then 'k' else c.toLower

/-- `strings.EqualFold` where one side is ASCII. -/
def equalFold (s t : String) : Bool := (chars s).map foldChar == (chars t).map foldChar

/-- `strings.Cut(s, sep)` for a one-character separator. -/
def cut (s : String) (sep : Char) : String × String × Bool :=
  let front := (chars s).takeWhile (· ≠ sep)
  match (chars s).dropWhile (· ≠ sep) with
  | [] => (s, "", false)
  | _ :: rest => (ofChars front, ofChars rest, true)

theorem isBlank_append (s t : String) : isBlank (s ++ t) = (isBlank s && isBlank t) := by
  simp [isBlank]

/-- What stands before a separator that it does not contain can be read back. -/
theorem separated_cancel {α : Type} {sep : α} {a b x y : List α} (ha : sep ∉ a) (hb : sep ∉ b)
    (h : a ++ sep :: x = b ++ sep :: y) : a = b ∧ x = y := by
  induction a generalizing b with
  | nil =>
    cases b with
    | nil => exact ⟨rfl, (List.cons.inj h).2⟩
    | cons d ds => exact absurd (List.mem_cons.mpr (Or.inl (List.cons.inj h).1)) hb
  | cons c cs ih =>
    cases b with
    | nil => exact absurd (List.mem_cons.mpr (Or.inl (List.cons.inj h).1.symm)) ha
    | cons d ds =>
      obtain ⟨hcd, htail⟩ := List.cons.inj h
      obtain ⟨hcs, hxy⟩ := ih (fun hm => ha (List.mem_cons_of_mem _ hm))
        (fun hm => hb (List.mem_cons_of_mem _ hm)) htail
      exact ⟨by rw [hcd, hcs], hxy⟩

/-- A character that does not separate is in one of the parts. -/
theorem mem_splitOn {sep c : Char} {cs : List Char} (hc : c ≠ sep) (h : c ∈ cs) :
    ∃ part ∈ cs.splitOn sep, c ∈ part := by
  rw [List.splitOn_eq_splitOnP]
  induction cs with
  | nil => cases h
  | cons d cs ih =>
    rw [List.splitOnP_cons_eq_if_modifyHead]
    by_cases hd : d = sep
    · have hrest : c ∈ cs := (List.mem_cons.mp h).resolve_left fun heq => hc (heq.trans hd)
      obtain ⟨part, hpart, hmem⟩ := ih hrest
      simp only [hd, beq_self_eq_true, if_true]
      exact ⟨part, List.mem_cons_of_mem _ hpart, hmem⟩
    · rw [if_neg (by simpa using hd)]
      obtain ⟨first, parts, hparts⟩ := List.exists_cons_of_ne_nil
        (List.splitOnP_ne_nil (p := fun x => x == sep) cs)
      rw [hparts] at ih ⊢
      rw [List.modifyHead_cons]
      rcases List.mem_cons.mp h with rfl | hrest
      · exact ⟨_, List.mem_cons_self, List.mem_cons_self⟩
      · obtain ⟨part, hpart, hmem⟩ := ih hrest
        rcases List.mem_cons.mp hpart with rfl | hpart
        · exact ⟨_, List.mem_cons_self, List.mem_cons_of_mem _ hmem⟩
        · exact ⟨part, List.mem_cons_of_mem _ hpart, hmem⟩

/-- The two halves of a cut, where there is something to cut at. -/
theorem cut_eq {s key value : String} {sep : Char} {found : Bool}
    (h : cut s sep = (key, value, found)) :
    sep ∉ key.toList ∧ s = if found then key ++ String.ofList [sep] ++ value else key := by
  have hfront : sep ∉ (s.toList).takeWhile (· ≠ sep) := by
    intro hmem
    have hne := List.all_eq_true.mp List.all_takeWhile sep hmem
    simp at hne
  have hsplit := List.takeWhile_append_dropWhile (p := (· ≠ sep)) (l := s.toList)
  simp only [cut, chars_eq, ofChars_eq] at h
  split at h
  · rename_i hdrop
    cases h
    rw [hdrop, List.append_nil] at hsplit
    rw [hsplit] at hfront
    exact ⟨hfront, rfl⟩
  · rename_i c rest hdrop
    cases h
    have hc : c = sep := by
      have hne : (s.toList).dropWhile (· ≠ sep) ≠ [] := by
        rw [hdrop]
        exact List.cons_ne_nil c rest
      have hhead := List.head_dropWhile_not (· ≠ sep) hne
      simp only [hdrop, List.head_cons] at hhead
      simpa using hhead
    refine ⟨by rwa [String.toList_ofList], ?_⟩
    rw [hdrop, hc] at hsplit
    rw [if_pos rfl, ← String.toList_inj]
    simp only [String.toList_append, String.toList_ofList, List.append_assoc, List.singleton_append]
    exact hsplit.symm

example : cut "app=web=1" '=' = ("app", "web=1", true) := by decide

end RuleRaven.Framework
