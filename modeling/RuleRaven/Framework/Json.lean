import RuleRaven.Framework.Text
import Mathlib.Algebra.GroupWithZero.Nat

namespace RuleRaven.Framework

/-- JSON documents with integer numbers. Fields are kept in the order written. -/
inductive Json where
  | null
  | bool (b : Bool)
  | num (n : Int)
  | str (s : String)
  | arr (items : List Json)
  | obj (fields : List (String × Json))

def hexDigit (n : Nat) : Char :=
  if n < 10 then Char.ofNat (48 + n) else Char.ofNat (87 + n)

def hexValue (c : Char) : Nat :=
  if c.toNat < 58 then c.toNat - 48 else c.toNat - 87

/-- Four lowercase hexadecimal digits. -/
def hex4 (n : Nat) : List Char :=
  [hexDigit (n / 4096 % 16), hexDigit (n / 256 % 16), hexDigit (n / 16 % 16), hexDigit (n % 16)]

/-- The escapes of `encoding/json` with HTML escaping on, as `json.Marshal` has it. -/
def escapeChar (c : Char) : List Char :=
  if c = '"' then ['\\', '"']
  else if c = '\\' then ['\\', '\\']
  else if c = '\x08' then ['\\', 'b']
  else if c = '\x0c' then ['\\', 'f']
  else if c = '\n' then ['\\', 'n']
  else if c = '\r' then ['\\', 'r']
  else if c = '\t' then ['\\', 't']
  else if c.toNat < 32 ∨ c = '<' ∨ c = '>' ∨ c = '&' ∨ c.toNat = 0x2028 ∨ c.toNat = 0x2029 then
    '\\' :: 'u' :: hex4 c.toNat
  else [c]

def encodeString (s : String) : List Char := '"' :: (chars s).flatMap escapeChar ++ ['"']

def encodeInt (n : Int) : List Char :=
  if n < 0 then '-' :: Nat.toDigits 10 n.natAbs else Nat.toDigits 10 n.natAbs

mutual

/-- Compact encoding, without insignificant white space. -/
def Json.encode : Json → List Char
  | .null => ['n', 'u', 'l', 'l']
  | .bool true => ['t', 'r', 'u', 'e']
  | .bool false => ['f', 'a', 'l', 's', 'e']
  | .num n => encodeInt n
  | .str s => encodeString s
  | .arr [] => ['[', ']']
  | .arr (x :: xs) => '[' :: (x.encode ++ encodeItems xs)
  | .obj [] => ['\x7b', '\x7d']
  | .obj ((k, v) :: fs) => '\x7b' :: (encodeString k ++ ':' :: (v.encode ++ encodeFields fs))

def encodeItems : List Json → List Char
  | [] => [']']
  | x :: xs => ',' :: (x.encode ++ encodeItems xs)

def encodeFields : List (String × Json) → List Char
  | [] => ['\x7d']
  | (k, v) :: fs => ',' :: (encodeString k ++ ':' :: (v.encode ++ encodeFields fs))

end

def Json.marshal (j : Json) : String := ofChars j.encode

/-- The length of the encoding in bytes. -/
def Json.size (j : Json) : Nat := j.encode.foldl (fun n c => n + c.utf8Size) 0

example : (Json.obj [("a", .num 1), ("b", .arr [.str "x<", .null])]).marshal =
    "\x7b\"a\":1,\"b\":[\"x\\u003c\",null]\x7d" := by decide

/-- The text of a JSON document, valid by construction. -/
def RawMessage : Type := { text : String // ∃ j : Json, text = j.marshal }

instance : DecidableEq RawMessage := inferInstanceAs (DecidableEq (Subtype _))

def Json.raw (j : Json) : RawMessage := ⟨j.marshal, j, rfl⟩

/-- A field that is left out when it has no value, as `omitempty` does. -/
def optField (name : String) (value : Option Json) : List (String × Json) :=
  value.toList.map (name, ·)

/-- A string field under `omitempty`. -/
def strField (name value : String) : List (String × Json) :=
  optField name (if value = "" then none else some (.str value))

theorem lookup_optField (name key : String) (value : Option Json) :
    (optField name value).lookup key = if key = name then value else none := by
  cases value with
  | none => simp [optField]
  | some v =>
    by_cases h : key = name
    · simp [optField, h]
    · have hb : (key == name) = false := by simpa using h
      simp [optField, List.lookup_cons, hb, h]

theorem lookup_strField (name key value : String) :
    (strField name value).lookup key =
      if key = name then (if value = "" then none else some (.str value)) else none :=
  lookup_optField name key _

/-- The value of a field, from the object it was written to. -/
def fieldOf (j : Json) (key : String) : Option Json :=
  match j with
  | .obj fields => fields.lookup key
  | _ => none

@[simp] theorem optStr_inj (s t : String) :
    ((if s = "" then none else some (Json.str s)) =
      if t = "" then none else some (Json.str t)) ↔ s = t := by
  split_ifs with hs ht ht <;> simp_all [eq_comm]

/-- The one character that an escape sequence stands for. -/
def readChar : List Char → Option (Char × List Char)
  | '\\' :: 'u' :: a :: b :: c :: d :: r =>
      some (Char.ofNat (hexValue a * 4096 + hexValue b * 256 + hexValue c * 16 + hexValue d), r)
  | '\\' :: 'b' :: r => some ('\x08', r)
  | '\\' :: 'f' :: r => some ('\x0c', r)
  | '\\' :: 'n' :: r => some ('\n', r)
  | '\\' :: 'r' :: r => some ('\r', r)
  | '\\' :: 't' :: r => some ('\t', r)
  | '\\' :: c :: r => some (c, r)
  | c :: r => some (c, r)
  | [] => none

theorem hexValue_hexDigit : ∀ n < 16, hexValue (hexDigit n) = n := by decide

theorem readChar_escapeChar (c : Char) (r : List Char) :
    readChar (escapeChar c ++ r) = some (c, r) := by
  unfold escapeChar
  split_ifs with h1 h2 h3 h4 h5 h6 h7 h8
  · subst h1; rfl
  · subst h2; rfl
  · subst h3; rfl
  · subst h4; rfl
  · subst h5; rfl
  · subst h6; rfl
  · subst h7; rfl
  · have hsmall : c.toNat < 65536 := by
      rcases h8 with h | rfl | rfl | rfl | h | h
      · omega
      · decide
      · decide
      · decide
      · omega
      · omega
    have hsum : c.toNat / 4096 % 16 * 4096 + c.toNat / 256 % 16 * 256 + c.toNat / 16 % 16 * 16 +
        c.toNat % 16 = c.toNat := by omega
    have hmod (n : Nat) : n % 16 < 16 := Nat.mod_lt n (by decide)
    simp only [hex4, List.cons_append, List.nil_append, readChar,
      hexValue_hexDigit _ (hmod _), hsum, Char.ofNat_toNat]
  · have hback : c ≠ '\\' := h2
    simp only [List.cons_append, List.nil_append]
    rw [readChar.eq_8]
    all_goals simp [hback]

theorem escapeChar_append_inj (c d : Char) (r r' : List Char)
    (h : escapeChar c ++ r = escapeChar d ++ r') : c = d ∧ r = r' := by
  have hread := congrArg readChar h
  rw [readChar_escapeChar, readChar_escapeChar] at hread
  simpa using hread

/-- An escaped character never looks like the closing quote. -/
theorem escapeChar_head (c : Char) : ∃ a as, escapeChar c = a :: as ∧ a ≠ '"' := by
  unfold escapeChar
  split_ifs with h1
  all_goals first
    | exact ⟨_, _, rfl, by decide⟩
    | exact ⟨_, _, rfl, h1⟩

theorem escaped_append_inj (cs ds : List Char) (r r' : List Char)
    (h : cs.flatMap escapeChar ++ '"' :: r = ds.flatMap escapeChar ++ '"' :: r') :
    cs = ds ∧ r = r' := by
  induction cs generalizing ds with
  | nil =>
    cases ds with
    | nil => simpa using h
    | cons d ds =>
      obtain ⟨a, as, he, hne⟩ := escapeChar_head d
      simp only [List.flatMap_nil, List.flatMap_cons, he, List.nil_append, List.cons_append,
        List.cons.injEq] at h
      exact absurd h.1.symm hne
  | cons c cs ih =>
    cases ds with
    | nil =>
      obtain ⟨a, as, he, hne⟩ := escapeChar_head c
      simp only [List.flatMap_nil, List.flatMap_cons, he, List.nil_append, List.cons_append,
        List.cons.injEq] at h
      exact absurd h.1 hne
    | cons d ds =>
      simp only [List.flatMap_cons, List.append_assoc] at h
      obtain ⟨hcd, htail⟩ := escapeChar_append_inj c d _ _ h
      obtain ⟨hcs, hr⟩ := ih ds htail
      exact ⟨by rw [hcd, hcs], hr⟩

theorem encodeString_append_inj (s t : String) (r r' : List Char)
    (h : encodeString s ++ r = encodeString t ++ r') : s = t ∧ r = r' := by
  simp only [encodeString, chars_eq, List.cons_append, List.append_assoc, List.nil_append,
    List.cons.injEq, true_and] at h
  obtain ⟨hst, hr⟩ := escaped_append_inj _ _ _ _ h
  exact ⟨String.toList_inj.mp hst, hr⟩

/-- What may follow a value: nothing, or something that is no digit. -/
def Stop : List Char → Prop
  | [] => True
  | c :: _ => c.isDigit = false

theorem digits_append_inj (ds es : List Char) (r r' : List Char)
    (hd : ∀ c ∈ ds, c.isDigit = true) (he : ∀ c ∈ es, c.isDigit = true)
    (hr : Stop r) (hr' : Stop r') (h : ds ++ r = es ++ r') : ds = es ∧ r = r' := by
  induction ds generalizing es with
  | nil =>
    cases es with
    | nil => exact ⟨rfl, h⟩
    | cons e es =>
      simp only [List.nil_append, List.cons_append] at h
      rw [h] at hr
      exact absurd (he e (by simp)) (by simp [show e.isDigit = false from hr])
  | cons d ds ih =>
    cases es with
    | nil =>
      simp only [List.nil_append, List.cons_append] at h
      rw [← h] at hr'
      exact absurd (hd d (by simp)) (by simp [show d.isDigit = false from hr'])
    | cons e es =>
      simp only [List.cons_append, List.cons.injEq] at h
      obtain ⟨htail, hrr⟩ := ih es (fun c hc => hd c (by simp [hc]))
        (fun c hc => he c (by simp [hc])) h.2
      exact ⟨by rw [h.1, htail], hrr⟩

theorem toDigits_isDigit (n : Nat) : ∀ c ∈ Nat.toDigits 10 n, c.isDigit = true :=
  fun _ hc => Nat.isDigit_of_mem_toDigits (by decide) (by decide) hc

theorem toDigits_append_inj (m n : Nat) (r r' : List Char) (hr : Stop r) (hr' : Stop r')
    (h : Nat.toDigits 10 m ++ r = Nat.toDigits 10 n ++ r') : m = n ∧ r = r' := by
  obtain ⟨hd, hrr⟩ := digits_append_inj _ _ r r' (toDigits_isDigit m) (toDigits_isDigit n) hr hr' h
  refine ⟨?_, hrr⟩
  have hm := Nat.ofDigitChars_ten_toDigits (n := m)
  rw [hd, Nat.ofDigitChars_ten_toDigits] at hm
  exact hm.symm

/-- The first character of a number is a digit or the minus sign. -/
theorem toDigits_head (n : Nat) : ∃ c cs, Nat.toDigits 10 n = c :: cs ∧ c.isDigit = true := by
  cases h : Nat.toDigits 10 n with
  | nil => exact absurd h Nat.toDigits_ne_nil
  | cons c cs => exact ⟨c, cs, rfl, toDigits_isDigit n c (by simp [h])⟩

theorem encodeInt_append_inj (m n : Int) (r r' : List Char) (hr : Stop r) (hr' : Stop r')
    (h : encodeInt m ++ r = encodeInt n ++ r') : m = n ∧ r = r' := by
  obtain ⟨c, cs, hc, hcd⟩ := toDigits_head m.natAbs
  obtain ⟨d, ds, hd, hdd⟩ := toDigits_head n.natAbs
  unfold encodeInt at h
  split_ifs at h with hm hn hn
  · simp only [List.cons_append, List.cons.injEq, true_and] at h
    obtain ⟨habs, hrr⟩ := toDigits_append_inj _ _ r r' hr hr' h
    exact ⟨by omega, hrr⟩
  · rw [hd] at h
    simp only [List.cons_append, List.cons.injEq] at h
    rw [← h.1] at hdd
    exact absurd hdd (by decide)
  · rw [hc] at h
    simp only [List.cons_append, List.cons.injEq] at h
    rw [h.1] at hcd
    exact absurd hcd (by decide)
  · obtain ⟨habs, hrr⟩ := toDigits_append_inj _ _ r r' hr hr' h
    exact ⟨by omega, hrr⟩

/-- The kind of value a first character announces; every kind has its own. -/
def leadKind (c : Char) : Nat :=
  if c = 'n' then 0
  else if c = 't' ∨ c = 'f' then 1
  else if c = '"' then 2
  else if c = '[' then 3
  else if c = '\x7b' then 4
  else if c = '-' ∨ c.isDigit = true then 5
  else 6

def Json.kind : Json → Nat
  | .null => 0
  | .bool _ => 1
  | .str _ => 2
  | .arr _ => 3
  | .obj _ => 4
  | .num _ => 5

theorem leadKind_digit (c : Char) (h : c.isDigit = true) : leadKind c = 5 := by
  have hne (d : Char) (hd : d.isDigit = false) : c ≠ d := by
    rintro rfl
    exact absurd h (by simp [hd])
  simp [leadKind, hne 'n' (by decide), hne 't' (by decide), hne 'f' (by decide),
    hne '"' (by decide), hne '[' (by decide), hne '\x7b' (by decide), h]

theorem Json.encode_head (v : Json) : ∃ c cs, v.encode = c :: cs ∧ leadKind c = v.kind := by
  cases v with
  | null => exact ⟨_, _, rfl, rfl⟩
  | bool b => cases b <;> exact ⟨_, _, rfl, rfl⟩
  | str s => exact ⟨_, _, rfl, rfl⟩
  | arr xs => cases xs <;> exact ⟨_, _, rfl, rfl⟩
  | obj fs => cases fs <;> exact ⟨_, _, rfl, rfl⟩
  | num n =>
    obtain ⟨c, cs, hc, hd⟩ := toDigits_head n.natAbs
    by_cases hn : n < 0
    · exact ⟨'-', c :: cs, by simp [encode, encodeInt, hn, hc], rfl⟩
    · exact ⟨c, cs, by simp [encode, encodeInt, hn, hc], leadKind_digit c hd⟩

theorem Json.kind_eq_of_encode (v w : Json) (r r' : List Char)
    (h : v.encode ++ r = w.encode ++ r') : v.kind = w.kind := by
  obtain ⟨c, cs, hv, hc⟩ := v.encode_head
  obtain ⟨d, ds, hw, hd⟩ := w.encode_head
  rw [hv, hw, List.cons_append, List.cons_append, List.cons.injEq] at h
  rw [← hc, ← hd, h.1]

/-- No value begins with the bracket that closes an array. -/
theorem Json.encode_ne_close (v : Json) (r r' : List Char) : v.encode ++ r ≠ ']' :: r' := by
  intro h
  obtain ⟨c, cs, hv, hc⟩ := v.encode_head
  rw [hv, List.cons_append, List.cons.injEq] at h
  have hclose : leadKind c = 6 := by rw [h.1]; decide
  cases v <;> simp [hclose, Json.kind] at hc

theorem stop_encodeItems (xs : List Json) (r : List Char) : Stop (encodeItems xs ++ r) := by
  cases xs <;> rfl

theorem stop_encodeFields (fs : List (String × Json)) (r : List Char) :
    Stop (encodeFields fs ++ r) := by
  cases fs with
  | nil => rfl
  | cons f fs => cases f; rfl

mutual

/-- A value is recovered from the front of a text, and so is the text that follows it. -/
theorem Json.encode_append_inj : ∀ (v w : Json) (r r' : List Char), Stop r → Stop r' →
    v.encode ++ r = w.encode ++ r' → v = w ∧ r = r'
  | .null, w, r, r', _, _, h => by
    have hk := Json.kind_eq_of_encode _ _ _ _ h
    cases w <;> simp [Json.kind] at hk
    simpa [Json.encode] using h
  | .bool b, w, r, r', _, _, h => by
    have hk := Json.kind_eq_of_encode _ _ _ _ h
    cases w <;> simp [Json.kind] at hk
    rename_i b'
    cases b <;> cases b' <;> simp_all [Json.encode]
  | .num n, w, r, r', hr, hr', h => by
    have hk := Json.kind_eq_of_encode _ _ _ _ h
    cases w <;> simp [Json.kind] at hk
    obtain ⟨hn, hrr⟩ := encodeInt_append_inj _ _ r r' hr hr' (by simpa [Json.encode] using h)
    exact ⟨by rw [hn], hrr⟩
  | .str s, w, r, r', _, _, h => by
    have hk := Json.kind_eq_of_encode _ _ _ _ h
    cases w <;> simp [Json.kind] at hk
    obtain ⟨hs, hrr⟩ := encodeString_append_inj _ _ r r' (by simpa [Json.encode] using h)
    exact ⟨by rw [hs], hrr⟩
  | .arr [], w, r, r', _, _, h => by
    have hk := Json.kind_eq_of_encode _ _ _ _ h
    cases w <;> simp [Json.kind] at hk
    rename_i ys
    cases ys with
    | nil => exact ⟨rfl, by simpa [Json.encode] using h⟩
    | cons y ys =>
      simp only [Json.encode, List.cons_append, List.nil_append, List.append_assoc,
        List.cons.injEq, true_and] at h
      exact absurd h.symm (Json.encode_ne_close y _ _)
  | .arr (x :: xs), w, r, r', _, _, h => by
    have hk := Json.kind_eq_of_encode _ _ _ _ h
    cases w <;> simp [Json.kind] at hk
    rename_i ys
    cases ys with
    | nil =>
      simp only [Json.encode, List.cons_append, List.nil_append, List.append_assoc,
        List.cons.injEq, true_and] at h
      exact absurd h (Json.encode_ne_close x _ _)
    | cons y ys =>
      simp only [Json.encode, List.cons_append, List.append_assoc, List.cons.injEq,
        true_and] at h
      obtain ⟨hxy, htail⟩ := Json.encode_append_inj x y _ _ (stop_encodeItems xs r)
        (stop_encodeItems ys r') h
      obtain ⟨hxs, hrr⟩ := encodeItems_append_inj xs ys r r' htail
      exact ⟨by rw [hxy, hxs], hrr⟩
  | .obj [], w, r, r', _, _, h => by
    have hk := Json.kind_eq_of_encode _ _ _ _ h
    cases w <;> simp [Json.kind] at hk
    rename_i gs
    cases gs with
    | nil => exact ⟨rfl, by simpa [Json.encode] using h⟩
    | cons g gs => cases g; simp [Json.encode, encodeString] at h
  | .obj ((k, v) :: fs), w, r, r', _, _, h => by
    have hk := Json.kind_eq_of_encode _ _ _ _ h
    cases w <;> simp [Json.kind] at hk
    rename_i gs
    cases gs with
    | nil => simp [Json.encode, encodeString] at h
    | cons g gs =>
      obtain ⟨l, w⟩ := g
      simp only [Json.encode, List.cons_append, List.append_assoc, List.cons.injEq,
        true_and] at h
      obtain ⟨hkl, hrest⟩ := encodeString_append_inj k l _ _ h
      simp only [List.cons.injEq, true_and] at hrest
      obtain ⟨hvw, htail⟩ := Json.encode_append_inj v w _ _ (stop_encodeFields fs r)
        (stop_encodeFields gs r') hrest
      obtain ⟨hfs, hrr⟩ := encodeFields_append_inj fs gs r r' htail
      exact ⟨by rw [hkl, hvw, hfs], hrr⟩

theorem encodeItems_append_inj : ∀ (xs ys : List Json) (r r' : List Char),
    encodeItems xs ++ r = encodeItems ys ++ r' → xs = ys ∧ r = r'
  | [], [], r, r', h => ⟨rfl, by simpa [encodeItems] using h⟩
  | [], y :: ys, r, r', h => by simp [encodeItems] at h
  | x :: xs, [], r, r', h => by simp [encodeItems] at h
  | x :: xs, y :: ys, r, r', h => by
    simp only [encodeItems, List.cons_append, List.append_assoc, List.cons.injEq, true_and] at h
    obtain ⟨hxy, htail⟩ := Json.encode_append_inj x y _ _ (stop_encodeItems xs r)
      (stop_encodeItems ys r') h
    obtain ⟨hxs, hrr⟩ := encodeItems_append_inj xs ys r r' htail
    exact ⟨by rw [hxy, hxs], hrr⟩

theorem encodeFields_append_inj : ∀ (fs gs : List (String × Json)) (r r' : List Char),
    encodeFields fs ++ r = encodeFields gs ++ r' → fs = gs ∧ r = r'
  | [], [], r, r', h => ⟨rfl, by simpa [encodeFields] using h⟩
  | [], (l, w) :: gs, r, r', h => by simp [encodeFields] at h
  | (k, v) :: fs, [], r, r', h => by simp [encodeFields] at h
  | (k, v) :: fs, (l, w) :: gs, r, r', h => by
    simp only [encodeFields, List.cons_append, List.append_assoc, List.cons.injEq, true_and] at h
    obtain ⟨hkl, hrest⟩ := encodeString_append_inj k l _ _ h
    simp only [List.cons.injEq, true_and] at hrest
    obtain ⟨hvw, htail⟩ := Json.encode_append_inj v w _ _ (stop_encodeFields fs r)
      (stop_encodeFields gs r') hrest
    obtain ⟨hfs, hrr⟩ := encodeFields_append_inj fs gs r r' htail
    exact ⟨by rw [hkl, hvw, hfs], hrr⟩

end

/-- `json.Marshal` is injective on documents. -/
theorem Json.marshal_injective : Function.Injective Json.marshal := by
  intro v w h
  simp only [Json.marshal, ofChars_eq] at h
  have henc : v.encode ++ [] = w.encode ++ [] := by
    rw [List.append_nil, List.append_nil]
    exact String.ofList_injective h
  exact (Json.encode_append_inj v w [] [] trivial trivial henc).1

section Size

theorem foldl_utf8Size (text : List Char) (start : Nat) :
    text.foldl (fun n c => n + c.utf8Size) start = start + (text.map Char.utf8Size).sum := by
  induction text generalizing start with
  | nil => rfl
  | cons c text ih => rw [List.foldl_cons, ih, List.map_cons, List.sum_cons, Nat.add_assoc]

theorem Json.size_eq (j : Json) : j.size = (j.encode.map Char.utf8Size).sum := by
  rw [Json.size, foldl_utf8Size, Nat.zero_add]

/-- What a field adds to an object: its name, its value, a colon and a comma or a brace. -/
def fieldSize (field : String × Json) : Nat := (Json.str field.1).size + field.2.size + 2

theorem encodeFields_size (fields : List (String × Json)) :
    ((encodeFields fields).map Char.utf8Size).sum = (fields.map fieldSize).sum + 1 := by
  induction fields with
  | nil => rfl
  | cons field fields ih =>
    obtain ⟨name, value⟩ := field
    have hcomma : Char.utf8Size ',' = 1 := rfl
    have hcolon : Char.utf8Size ':' = 1 := rfl
    simp only [encodeFields, List.map_cons, List.map_append, List.sum_cons, List.sum_append, ih,
      fieldSize, Json.size_eq, Json.encode, hcomma, hcolon]
    omega

/-- The size of an object that is not empty, field by field. -/
theorem Json.size_obj {fields : List (String × Json)} (h : fields ≠ []) :
    (Json.obj fields).size = (fields.map fieldSize).sum + 1 := by
  cases fields with
  | nil => exact absurd rfl h
  | cons field fields =>
    obtain ⟨name, value⟩ := field
    have hbrace : Char.utf8Size '\x7b' = 1 := rfl
    have hcolon : Char.utf8Size ':' = 1 := rfl
    simp only [Json.size_eq, Json.encode, List.map_cons, List.map_append, List.sum_cons,
      List.sum_append, encodeFields_size, fieldSize, hbrace, hcolon]
    omega

end Size

end RuleRaven.Framework
