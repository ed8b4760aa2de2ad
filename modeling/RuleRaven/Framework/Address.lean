import RuleRaven.Framework.Hex
import Mathlib.Algebra.Order.Ring.Nat
import Mathlib.Data.List.TakeWhile

namespace RuleRaven.Framework

section Join

variable {α β : Type}

theorem mem_intercalate {s c : α} {ls : List (List α)} (h : c ∈ [s].intercalate ls) :
    c = s ∨ ∃ l ∈ ls, c ∈ l := by
  induction ls with
  | nil => cases h
  | cons l ls ih =>
    cases ls with
    | nil => exact .inr ⟨l, by simp, by simpa using h⟩
    | cons l' ls =>
      rw [List.intercalate_cons_cons, List.append_assoc, List.mem_append, List.mem_append,
        List.mem_singleton] at h
      rcases h with h | h | h
      · exact .inr ⟨l, by simp, h⟩
      · exact .inl h
      · refine (ih h).imp_right ?_
        rintro ⟨m, hm, hc⟩
        exact ⟨m, List.mem_cons_of_mem _ hm, hc⟩

theorem mapM_map_some {f : α → β} {p : β → Option α} {items : List α}
    (h : ∀ a ∈ items, p (f a) = some a) : (items.map f).mapM p = some items := by
  induction items with
  | nil => rfl
  | cons a items ih =>
    rw [List.map_cons, List.mapM_cons, h a (by simp), ih fun b hb => h b (by simp [hb])]
    rfl

end Join

section Dotted

def octetText (b : UInt8) : List Char := Nat.toDigits 10 b.toNat

/-- A decimal octet, without leading zeros. -/
def parseOctet (field : List Char) : Option UInt8 :=
  if field = [] ∨ !field.all Char.isDigit ∨ (1 < field.length ∧ field.head? = some '0') ∨
      255 < Nat.ofDigitChars 10 field 0 then none
  else some (UInt8.ofNat (Nat.ofDigitChars 10 field 0))

theorem parseOctet_toDigits : ∀ n < 256, parseOctet (Nat.toDigits 10 n) = some (UInt8.ofNat n) := by
  decide +kernel

theorem parseOctet_octetText (b : UInt8) : parseOctet (octetText b) = some b := by
  rw [octetText, parseOctet_toDigits _ b.toNat_lt, UInt8.ofNat_toNat]

def dotted (b : Bytes) : List Char := ['.'].intercalate (b.map octetText)

def parseIPv4 (cs : List Char) : Option Bytes :=
  if (cs.splitOn '.').length = 4 then (cs.splitOn '.').mapM parseOctet else none

theorem octetText_isDigit {b : UInt8} : ∀ c ∈ octetText b, c.isDigit = true :=
  toDigits_isDigit _

/-- The text of an IPv4 address has decimal digits and dots only. -/
theorem mem_dotted {b : Bytes} {c : Char} (h : c ∈ dotted b) : c = '.' ∨ c.isDigit = true := by
  refine (mem_intercalate h).imp_right ?_
  rintro ⟨field, hfield, hc⟩
  obtain ⟨octet, -, rfl⟩ := List.mem_map.mp hfield
  exact octetText_isDigit c hc

theorem parseIPv4_dotted {b : Bytes} (h : b.length = 4) : parseIPv4 (dotted b) = some b := by
  have hfields : (dotted b).splitOn '.' = b.map octetText := by
    apply List.splitOn_intercalate
    · intro field hfield hdot
      obtain ⟨octet, -, rfl⟩ := List.mem_map.mp hfield
      exact absurd (octetText_isDigit _ hdot) (by decide)
    · intro hnil
      rw [List.map_eq_nil_iff.mp hnil] at h
      cases h
  unfold parseIPv4
  rw [hfields, List.length_map, if_pos h]
  exact mapM_map_some fun octet _ => parseOctet_octetText octet

end Dotted

section Colons

/-- The hexadecimal digits of 16 bits, without leading zeros. -/
def groupText (n : Nat) : List Char :=
  (if 0x1000 ≤ n then [hexDigit (n / 4096)] else []) ++
    (if 0x100 ≤ n then [hexDigit (n / 256 % 16)] else []) ++
    (if 0x10 ≤ n then [hexDigit (n / 16 % 16)] else []) ++ [hexDigit (n % 16)]

def nibble (c : Char) : Option Nat :=
  if c.isDigit then some (c.toNat - 48)
  else if 'a' ≤ c ∧ c ≤ 'f' then some (c.toNat - 87)
  else if 'A' ≤ c ∧ c ≤ 'F' then some (c.toNat - 55)
  else none

/-- One to four hexadecimal digits. -/
def parseGroup (field : List Char) : Option Nat :=
  if field = [] ∨ 4 < field.length then none
  else (field.mapM nibble).map fun digits => digits.foldl (fun acc d => acc * 16 + d) 0

theorem nibble_hexDigit : ∀ n < 16, nibble (hexDigit n) = some n := by decide

/-- The digits of a number, and how they are read back. -/
structure Written (n : Nat) (digits : List Nat) : Prop where
  nonempty : digits ≠ []
  short : digits.length ≤ 4
  hex : ∀ d ∈ digits, d < 16
  value : digits.foldl (fun acc d => acc * 16 + d) 0 = n

theorem groupText_written {n : Nat} (h : n < 65536) :
    ∃ digits, groupText n = digits.map hexDigit ∧ Written n digits := by
  unfold groupText
  by_cases hthree : 0x1000 ≤ n
  · refine ⟨[n / 4096, n / 256 % 16, n / 16 % 16, n % 16], ?_, by simp, by simp, ?_, ?_⟩
    · rw [if_pos hthree, if_pos (by omega), if_pos (by omega)]
      rfl
    · simp only [List.forall_mem_cons, List.not_mem_nil, false_imp_iff, implies_true, and_true]
      omega
    · simp only [List.foldl_cons, List.foldl_nil]
      omega
  rw [if_neg hthree]
  by_cases htwo : 0x100 ≤ n
  · refine ⟨[n / 256 % 16, n / 16 % 16, n % 16], ?_, by simp, by simp, ?_, ?_⟩
    · rw [if_pos htwo, if_pos (by omega)]
      rfl
    · simp only [List.forall_mem_cons, List.not_mem_nil, false_imp_iff, implies_true, and_true]
      omega
    · simp only [List.foldl_cons, List.foldl_nil]
      omega
  rw [if_neg htwo]
  by_cases hone : 0x10 ≤ n
  · refine ⟨[n / 16 % 16, n % 16], ?_, by simp, by simp, ?_, ?_⟩
    · rw [if_pos hone]
      rfl
    · simp only [List.forall_mem_cons, List.not_mem_nil, false_imp_iff, implies_true, and_true]
      omega
    · simp only [List.foldl_cons, List.foldl_nil]
      omega
  · refine ⟨[n % 16], ?_, by simp, by simp, ?_, ?_⟩
    · rw [if_neg hone]
      rfl
    · simp only [List.forall_mem_cons, List.not_mem_nil, false_imp_iff, implies_true, and_true]
      omega
    · simp only [List.foldl_cons, List.foldl_nil]
      omega

theorem parseGroup_groupText {n : Nat} (h : n < 65536) : parseGroup (groupText n) = some n := by
  obtain ⟨digits, htext, hwritten⟩ := groupText_written h
  have hread : (digits.map hexDigit).mapM nibble = some digits :=
    mapM_map_some fun d hd => nibble_hexDigit d (hwritten.hex d hd)
  unfold parseGroup
  rw [htext, if_neg, hread, Option.map_some, hwritten.value]
  rw [not_or, List.length_map, Nat.not_lt]
  exact ⟨by simpa using hwritten.nonempty, hwritten.short⟩

/-- The 16-bit groups of bytes, with the high byte first. -/
def toGroups : Bytes → List Nat
  | high :: low :: rest => (high.toNat * 256 + low.toNat) :: toGroups rest
  | [_] => []
  | [] => []

def ofGroups (groups : List Nat) : Bytes :=
  groups.flatMap fun n => [UInt8.ofNat (n / 256), UInt8.ofNat (n % 256)]

theorem toGroups_lt (b : Bytes) : ∀ n ∈ toGroups b, n < 65536 := by
  fun_induction toGroups b with
  | case1 high low rest ih =>
    intro n hn
    rcases List.mem_cons.mp hn with rfl | hn
    · have := high.toNat_lt
      have := low.toNat_lt
      omega
    · exact ih n hn
  | case2 => simp
  | case3 => simp

theorem toGroups_length (b : Bytes) : (toGroups b).length = b.length / 2 := by
  fun_induction toGroups b with
  | case1 high low rest ih =>
    rw [List.length_cons, List.length_cons, List.length_cons, ih]
    omega
  | case2 => simp
  | case3 => rfl

theorem ofGroups_toGroups {b : Bytes} (h : b.length % 2 = 0) : ofGroups (toGroups b) = b := by
  fun_induction toGroups b with
  | case1 high low rest ih =>
    have hlow := low.toNat_lt
    have hrest : rest.length % 2 = 0 := by
      rw [List.length_cons, List.length_cons] at h
      omega
    have hhigh : (high.toNat * 256 + low.toNat) / 256 = high.toNat := by omega
    have hmod : (high.toNat * 256 + low.toNat) % 256 = low.toNat := by omega
    rw [ofGroups, List.flatMap_cons, hhigh, hmod, UInt8.ofNat_toNat, UInt8.ofNat_toNat]
    exact congrArg (fun tail => high :: low :: tail) (ih hrest)
  | case2 => cases h
  | case3 => rfl

/-- How many groups are zero from an index on. -/
def zerosAt (groups : List Nat) (i : Nat) : Nat := ((groups.drop i).takeWhile (· == 0)).length

def widerZeros (groups : List Nat) (best : Nat × Nat) (i : Nat) : Nat × Nat :=
  if 2 ≤ zerosAt groups i ∧ best.2 < zerosAt groups i then (i, zerosAt groups i) else best

/-- Start and length of the first longest run of zeros, of length 0 if none has two groups. -/
def longestZeros (groups : List Nat) : Nat × Nat := (List.range 8).foldl (widerZeros groups) (0, 0)

/-- The text of an IPv6 address. A double colon stands for the longest run of zeros. -/
def colonText (groups : List Nat) : List Char :=
  if (longestZeros groups).2 = 0 then [':'].intercalate (groups.map groupText)
  else
    [':'].intercalate ((groups.take (longestZeros groups).1).map groupText) ++ ':' :: ':' ::
      [':'].intercalate
        ((groups.drop ((longestZeros groups).1 + (longestZeros groups).2)).map groupText)

theorem longestZeros_le (groups : List Nat) :
    (longestZeros groups).2 ≤ zerosAt groups (longestZeros groups).1 := by
  have hstep (best : Nat × Nat) (i : Nat) (h : best.2 ≤ zerosAt groups best.1) :
      (widerZeros groups best i).2 ≤ zerosAt groups (widerZeros groups best i).1 := by
    unfold widerZeros
    split_ifs
    · exact le_refl _
    · exact h
  unfold longestZeros
  generalize List.range 8 = indices
  have hstart : (0, 0).2 ≤ zerosAt groups (0, 0).1 := Nat.zero_le _
  generalize (0, 0) = best at hstart ⊢
  induction indices generalizing best with
  | nil => exact hstart
  | cons i indices ih => exact ih _ (hstep best i hstart)

/-- The groups fall into those before the run, the zeros and those after it. -/
theorem groups_eq (groups : List Nat) {start count : Nat} (h : count ≤ zerosAt groups start) :
    groups = groups.take start ++ List.replicate count 0 ++ groups.drop (start + count) := by
  have hzeros : (groups.drop start).take count = List.replicate count 0 := by
    have hrun : (groups.drop start).take count =
        ((groups.drop start).takeWhile (· == 0)).take count := by
      nth_rewrite 1 [← List.takeWhile_append_dropWhile (p := (· == 0)) (l := groups.drop start)]
      exact List.take_append_of_le_length h
    rw [hrun, List.eq_replicate_iff, List.length_take]
    refine ⟨min_eq_left h, fun n hn => ?_⟩
    have hzero := List.mem_takeWhile_imp (List.mem_of_mem_take hn)
    exact beq_iff_eq.mp hzero
  rw [← hzeros, List.append_assoc, ← List.drop_drop, List.take_append_drop,
    List.take_append_drop]

/-- The text before the first double colon, and the text after it. -/
def breakEllipsis : List Char → Option (List Char × List Char)
  | [] => none
  | c :: rest =>
    if c = ':' ∧ rest.head? = some ':' then some ([], rest.tail)
    else (breakEllipsis rest).map fun halves => (c :: halves.1, halves.2)

/-- The last group may be written as two octets each, with dots. -/
def parseTail : List (List Char) → Option (List Nat)
  | [] => some []
  | [last] =>
    if last.contains '.' then (parseIPv4 last).map toGroups
    else (parseGroup last).map fun n => [n]
  | field :: rest =>
    match parseGroup field, parseTail rest with
    | some n, some groups => some (n :: groups)
    | _, _ => none

/-- One side of a double colon. -/
def parseSide (parse : List (List Char) → Option (List Nat)) (cs : List Char) :
    Option (List Nat) :=
  if cs = [] then some [] else parse (cs.splitOn ':')

def parseIPv6 (cs : List Char) : Option Bytes :=
  match breakEllipsis cs with
  | none =>
    match parseTail (cs.splitOn ':') with
    | none => none
    | some groups => if groups.length = 8 then some (ofGroups groups) else none
  | some (front, back) =>
    match parseSide (·.mapM parseGroup) front, parseSide parseTail back with
    | some left, some right =>
      if left.length + right.length < 8 then
        some (ofGroups (left ++ List.replicate (8 - (left.length + right.length)) 0 ++ right))
      else none
    | _, _ => none

example : parseIPv6 "2001:db8::1".toList =
    some ([0x20, 0x01, 0x0d, 0xb8] ++ List.replicate 11 0 ++ [1]) := by
  decide +kernel

example : parseIPv6 "64:ff9b::192.0.2.33".toList =
    some ([0, 0x64, 0xff, 0x9b] ++ List.replicate 8 0 ++ [192, 0, 2, 33]) := by
  decide +kernel

section Texts

/-- Part of a text between colons. -/
def Word (w : List Char) : Prop := w ≠ [] ∧ ':' ∉ w

theorem groupText_hex {n : Nat} (h : n < 65536) : ∀ c ∈ groupText n, ∃ k < 16, c = hexDigit k := by
  intro c hc
  obtain ⟨digits, htext, hwritten⟩ := groupText_written h
  rw [htext] at hc
  obtain ⟨k, hk, rfl⟩ := List.mem_map.mp hc
  exact ⟨k, hwritten.hex k hk, rfl⟩

theorem hexDigit_plain : ∀ k < 16, hexDigit k ≠ ':' ∧ hexDigit k ≠ '.' ∧ hexDigit k ≠ '%' ∧
    hexDigit k ≠ '[' ∧ hexDigit k ≠ ']' := by
  decide

theorem groupText_word {n : Nat} (h : n < 65536) : Word (groupText n) := by
  constructor
  · simp [groupText]
  · intro hcolon
    obtain ⟨k, hk, hdigit⟩ := groupText_hex h _ hcolon
    exact (hexDigit_plain k hk).1 hdigit.symm

theorem breakEllipsis_word {w : List Char} (hw : ':' ∉ w) (rest : List Char) :
    breakEllipsis (w ++ rest) =
      (breakEllipsis rest).map fun halves => (w ++ halves.1, halves.2) := by
  induction w with
  | nil => simp
  | cons c w ih =>
    have hc : c ≠ ':' := fun h => hw (by simp [h])
    rw [List.cons_append, breakEllipsis, if_neg fun h => hc h.1,
      ih fun h => hw (List.mem_cons_of_mem _ h), Option.map_map]
    rfl

theorem intercalate_head {w : List Char} (hw : w ≠ []) (ws : List (List Char)) :
    ∃ c cs, c ∈ w ∧ [':'].intercalate (w :: ws) = c :: cs := by
  obtain ⟨c, w, rfl⟩ := List.exists_cons_of_ne_nil hw
  cases ws with
  | nil => exact ⟨c, w, by simp, by simp [List.intercalate]⟩
  | cons w' ws =>
    refine ⟨c, w ++ ([':'] ++ [':'].intercalate (w' :: ws)), by simp, ?_⟩
    rw [List.intercalate_cons_cons, List.append_assoc, List.cons_append]

/-- Words that are joined by single colons have no double colon, nor do they end in a colon. -/
theorem breakEllipsis_intercalate {ws : List (List Char)} (hws : ∀ w ∈ ws, Word w)
    (rest : List Char) :
    breakEllipsis ([':'].intercalate ws ++ rest) = (breakEllipsis rest).map fun halves =>
      ([':'].intercalate ws ++ halves.1, halves.2) := by
  induction ws with
  | nil => simp [List.intercalate]
  | cons w ws ih =>
    have hw := hws w (by simp)
    cases ws with
    | nil =>
      rw [show [':'].intercalate [w] = w by simp [List.intercalate]]
      exact breakEllipsis_word hw.2 rest
    | cons w' ws =>
      have hw' := hws w' (by simp)
      have hrest := ih fun v hv => hws v (List.mem_cons_of_mem _ hv)
      have hhead : ¬([':'].intercalate (w' :: ws) ++ rest).head? = some ':' := by
        obtain ⟨c, cs, hc, hcons⟩ := intercalate_head hw'.1 ws
        rw [hcons, List.cons_append, List.head?_cons, Option.some.injEq]
        rintro rfl
        exact hw'.2 hc
      rw [List.intercalate_cons_cons, List.append_assoc, List.append_assoc,
        breakEllipsis_word hw.2, List.singleton_append, breakEllipsis,
        if_neg fun h => hhead h.2, hrest, Option.map_map, Option.map_map]
      simp [Function.comp_def]

variable {groups : List Nat} (hgroups : ∀ n ∈ groups, n < 65536)

include hgroups

theorem groupTexts_word : ∀ w ∈ groups.map groupText, Word w := by
  intro w hw
  obtain ⟨n, hn, rfl⟩ := List.mem_map.mp hw
  exact groupText_word (hgroups n hn)

theorem parseTail_groupTexts : parseTail (groups.map groupText) = some groups := by
  induction groups with
  | nil => rfl
  | cons n groups ih =>
    have hn := hgroups n (by simp)
    cases groups with
    | nil =>
      have hdot : (groupText n).contains '.' = false := by
        rw [List.contains_eq_mem, decide_eq_false_iff_not]
        intro h
        obtain ⟨k, hk, hdigit⟩ := groupText_hex hn _ h
        exact (hexDigit_plain k hk).2.1 hdigit.symm
      simp only [List.map_cons, List.map_nil, parseTail, hdot, parseGroup_groupText hn]
      rfl
    | cons m groups =>
      have hrest := ih fun k hk => hgroups k (List.mem_cons_of_mem _ hk)
      rw [List.map_cons] at hrest
      simp only [List.map_cons, parseTail, hrest, parseGroup_groupText hn]

theorem splitOn_groupTexts (hne : groups ≠ []) :
    ([':'].intercalate (groups.map groupText)).splitOn ':' = groups.map groupText := by
  apply List.splitOn_intercalate
  · intro w hw
    exact (groupTexts_word hgroups w hw).2
  · simpa using hne

theorem parseSide_groupTexts {parse : List (List Char) → Option (List Nat)}
    (hparse : parse (groups.map groupText) = some groups) :
    parseSide parse ([':'].intercalate (groups.map groupText)) = some groups := by
  unfold parseSide
  cases groups with
  | nil => simp [List.intercalate]
  | cons n groups =>
    have hn := groupText_word (hgroups n (by simp))
    rw [if_neg, splitOn_groupTexts hgroups (by simp), hparse]
    obtain ⟨c, cs, -, hcons⟩ := intercalate_head hn.1 (groups.map groupText)
    rw [List.map_cons, hcons]
    exact List.cons_ne_nil _ _

/-- The text of eight groups is read as what they are. -/
theorem parseIPv6_colonText (h : groups.length = 8) :
    parseIPv6 (colonText groups) = some (ofGroups groups) := by
  have hlongest := longestZeros_le groups
  unfold colonText
  generalize (longestZeros groups).1 = start at hlongest ⊢
  generalize (longestZeros groups).2 = count at hlongest ⊢
  have hsplit := groups_eq groups hlongest
  split_ifs with hcount
  · have hbreak := breakEllipsis_intercalate (groupTexts_word hgroups) []
    rw [List.append_nil] at hbreak
    have hne : groups ≠ [] := fun hnil => by rw [hnil] at h; cases h
    unfold parseIPv6
    rw [hbreak, splitOn_groupTexts hgroups hne, parseTail_groupTexts hgroups]
    exact if_pos h
  · have hleft : ∀ n ∈ groups.take start, n < 65536 :=
      fun n hn => hgroups n (List.mem_of_mem_take hn)
    have hright : ∀ n ∈ groups.drop (start + count), n < 65536 :=
      fun n hn => hgroups n (List.mem_of_mem_drop hn)
    have hlength := congrArg List.length hsplit
    rw [List.length_append, List.length_append, List.length_replicate] at hlength
    have hsides : (groups.take start).length + (groups.drop (start + count)).length < 8 := by omega
    have hzeros :
        8 - ((groups.take start).length + (groups.drop (start + count)).length) = count := by omega
    have hellipsis (rest : List Char) : breakEllipsis (':' :: ':' :: rest) = some ([], rest) := rfl
    unfold parseIPv6
    rw [breakEllipsis_intercalate (groupTexts_word hleft), hellipsis, Option.map_some,
      List.append_nil]
    dsimp only
    rw [parseSide_groupTexts hleft (mapM_map_some fun n hn => parseGroup_groupText (hleft n hn)),
      parseSide_groupTexts hright (parseTail_groupTexts hright)]
    dsimp only
    rw [if_pos hsides, hzeros, ← hsplit]

end Texts

end Colons

/-- An address as a slice of bytes: nil, or bytes of any length. -/
abbrev IP := Option Bytes

namespace IP

def bytes (ip : IP) : Bytes := ip.getD []

/-- What precedes the four bytes of an IPv4 address among the sixteen that stand for it. -/
def mapped : Bytes := List.replicate 10 0 ++ [255, 255]

def to4 (ip : IP) : Option Bytes :=
  if ip.bytes.length = 4 then some ip.bytes
  else if ip.bytes.length = 16 ∧ ip.bytes.take 12 = mapped then some (ip.bytes.drop 12)
  else none

def to16 (ip : IP) : Option Bytes :=
  if ip.bytes.length = 4 then some (mapped ++ ip.bytes)
  else if ip.bytes.length = 16 then some ip.bytes
  else none

/-- The text of an address, and a text that is none where the length is wrong. -/
def text (ip : IP) : List Char :=
  if ip.bytes = [] then "<nil>".toList
  else if ip.bytes.length ≠ 4 ∧ ip.bytes.length ≠ 16 then
    '?' :: hexChars ip.bytes
  else match ip.to4 with
    | some b => dotted b
    | none => colonText (toGroups ip.bytes)

example : text (some [203, 0, 113, 9]) = "203.0.113.9".toList ∧
    text (some ([0x20, 0x01, 0x0d, 0xb8] ++ List.replicate 11 0 ++ [1])) =
      "2001:db8::1".toList := by
  decide +kernel

end IP

section Literals

/-- The characters that tell what a text can be the address of. -/
def tells (c : Char) : Bool := c == '.' || c == ':' || c == '%'

/-- `netip.ParseAddr`, as sixteen bytes. A zone is dropped, but must not be empty. -/
def parseAddr (cs : List Char) : Option Bytes :=
  if cs.find? tells = some '.' then (parseIPv4 cs).map (IP.mapped ++ ·)
  else if cs.find? tells = some ':' ∧ cs.dropWhile (· != '%') ≠ ['%'] then
    parseIPv6 (cs.takeWhile (· != '%'))
  else none

theorem find_tells {cs : List Char} {c : Char} (hc : tells c = true) (hmem : c ∈ cs)
    (honly : ∀ d ∈ cs, tells d = true → d = c) : cs.find? tells = some c := by
  cases hfind : cs.find? tells with
  | none => exact absurd hc (List.find?_eq_none.mp hfind c hmem)
  | some d => rw [honly d (List.mem_of_find?_eq_some hfind) (List.find?_some hfind)]

theorem parseAddr_dotted {b : Bytes} (h : b.length = 4) :
    parseAddr (dotted b) = some (IP.mapped ++ b) := by
  have hmem : '.' ∈ dotted b := by
    match b, h with
    | [a, b, c, d], _ => simp [dotted, List.intercalate_cons_cons]
  have honly : ∀ d ∈ dotted b, tells d = true → d = '.' := by
    intro d hd htells
    rcases mem_dotted hd with rfl | hdigit
    · rfl
    · simp only [tells, Bool.or_eq_true, beq_iff_eq] at htells
      rcases htells with (rfl | rfl) | rfl
      · rfl
      · cases hdigit
      · cases hdigit
  unfold parseAddr
  rw [if_pos (find_tells rfl hmem honly), parseIPv4_dotted h, Option.map_some]

/-- The text of an IPv6 address has hexadecimal digits and colons only. -/
theorem mem_colonText {groups : List Nat} (h : ∀ n ∈ groups, n < 65536) {c : Char}
    (hc : c ∈ colonText groups) : c = ':' ∨ ∃ k < 16, c = hexDigit k := by
  have hjoin (gs : List Nat) (hgs : ∀ n ∈ gs, n < 65536)
      (hc : c ∈ [':'].intercalate (gs.map groupText)) : c = ':' ∨ ∃ k < 16, c = hexDigit k := by
    refine (mem_intercalate hc).imp_right ?_
    rintro ⟨w, hw, hcw⟩
    obtain ⟨n, hn, rfl⟩ := List.mem_map.mp hw
    exact groupText_hex (hgs n hn) c hcw
  unfold colonText at hc
  split_ifs at hc
  · exact hjoin _ h hc
  · rcases List.mem_append.mp hc with hc | hc
    · exact hjoin _ (fun n hn => h n (List.mem_of_mem_take hn)) hc
    · rcases List.mem_cons.mp hc with rfl | hc
      · exact .inl rfl
      · rcases List.mem_cons.mp hc with rfl | hc
        · exact .inl rfl
        · exact hjoin _ (fun n hn => h n (List.mem_of_mem_drop hn)) hc

theorem colon_mem_colonText {groups : List Nat} (h : groups.length = 8) :
    ':' ∈ colonText groups := by
  unfold colonText
  split_ifs
  · match groups, h with
    | m :: n :: rest, _ => simp [List.intercalate_cons_cons]
  · simp

theorem parseAddr_colonText {groups : List Nat} (hgroups : ∀ n ∈ groups, n < 65536)
    (h : groups.length = 8) : parseAddr (colonText groups) = some (ofGroups groups) := by
  have honly : ∀ d ∈ colonText groups, tells d = true → d = ':' := by
    intro d hd htells
    rcases mem_colonText hgroups hd with rfl | ⟨k, hk, rfl⟩
    · rfl
    · have hplain := hexDigit_plain k hk
      simp [tells, hplain] at htells
  have hzone : ∀ d ∈ colonText groups, (d != '%') = true := by
    intro d hd
    rw [bne_iff_ne]
    rintro rfl
    cases honly _ hd rfl
  unfold parseAddr
  rw [find_tells rfl (colon_mem_colonText h) honly, List.dropWhile_eq_nil_iff.mpr hzone,
    if_neg (by decide), if_pos ⟨rfl, by simp⟩, List.takeWhile_eq_self_iff.mpr hzone,
    parseIPv6_colonText hgroups h]

theorem parseAddr_of_untold {cs : List Char} (h : ∀ c ∈ cs, tells c = false) :
    parseAddr cs = none := by
  have hfind : cs.find? tells = none := by
    rw [List.find?_eq_none]
    intro c hc
    rw [h c hc]
    decide
  unfold parseAddr
  rw [hfind, if_neg (by decide), if_neg fun h => absurd h.1 (by decide)]

end Literals

namespace IP

variable {ip : IP}

/-- The length of an address. -/
def WellFormed (ip : IP) : Prop := ip.bytes.length = 4 ∨ ip.bytes.length = 16

theorem to4_eq_some {b : Bytes} (h : ip.to4 = some b) :
    b.length = 4 ∧ ip.to16 = some (mapped ++ b) := by
  unfold to4 at h
  unfold to16
  split_ifs at h with hfour hsixteen
  · cases h
    exact ⟨hfour, if_pos hfour⟩
  · cases h
    rw [if_neg hfour, if_pos hsixteen.1, ← hsixteen.2, List.take_append_drop, List.length_drop,
      hsixteen.1]
    exact ⟨rfl, rfl⟩

theorem to4_eq_none (hwell : ip.WellFormed) (h : ip.to4 = none) :
    ip.bytes.length = 16 ∧ ip.to16 = some ip.bytes := by
  unfold to4 at h
  unfold to16
  split_ifs at h with hfour hsixteen
  have hlength := hwell.resolve_left hfour
  exact ⟨hlength, by rw [if_neg hfour, if_pos hlength]⟩

/-- The text of an address is read as the same address. -/
theorem parseAddr_text (hwell : ip.WellFormed) : parseAddr ip.text = ip.to16 := by
  have hne : ip.bytes ≠ [] := by
    intro h
    rcases hwell with hlength | hlength <;> rw [h] at hlength <;> cases hlength
  unfold text
  rw [if_neg hne, if_neg (by rcases hwell with h | h <;> omega)]
  cases hto4 : ip.to4 with
  | some b =>
    obtain ⟨hlength, hto16⟩ := to4_eq_some hto4
    rw [hto16]
    exact parseAddr_dotted hlength
  | none =>
    obtain ⟨hlength, hto16⟩ := to4_eq_none hwell hto4
    have height : (toGroups ip.bytes).length = 8 := by rw [toGroups_length, hlength]
    dsimp only
    rw [hto16, parseAddr_colonText (toGroups_lt _) height, ofGroups_toGroups (by rw [hlength])]

/-- What a name in the domain name system is made of. -/
def nameable (cs : List Char) : Bool :=
  cs.all fun c => c.isAlphanum || c == '-' || c == '_' || c == '.'

/-- Bytes of another length have a text that is neither an address nor a name. -/
theorem text_of_malformed (h : ¬ip.WellFormed) :
    parseAddr ip.text = none ∧ nameable ip.text = false ∧ ip.to16 = none := by
  have hfour : ¬ip.bytes.length = 4 := fun hlength => h (.inl hlength)
  have hsixteen : ¬ip.bytes.length = 16 := fun hlength => h (.inr hlength)
  have hto16 : ip.to16 = none := by
    unfold to16
    rw [if_neg hfour, if_neg hsixteen]
  unfold text
  split_ifs with hnil hlength
  · exact ⟨by decide, by decide, hto16⟩
  · refine ⟨parseAddr_of_untold fun c hc => ?_, rfl, hto16⟩
    rcases List.mem_cons.mp hc with rfl | hc
    · rfl
    · obtain ⟨k, hk, rfl⟩ := mem_hexChars hc
      have hplain := hexDigit_plain k hk
      simp [tells, hplain]
  · exact absurd (And.intro hfour hsixteen) hlength

theorem to16_of_wellFormed (h : ip.WellFormed) : ∃ t, ip.to16 = some t := by
  cases hto4 : ip.to4 with
  | some b => exact ⟨_, (to4_eq_some hto4).2⟩
  | none => exact ⟨_, (to4_eq_none h hto4).2⟩

theorem text_unbracketed (ip : IP) : ∀ c ∈ ip.text, c ≠ '[' ∧ c ≠ ']' := by
  intro c hc
  unfold text at hc
  split_ifs at hc with hnil hlength
  · simp only [show "<nil>".toList = ['<', 'n', 'i', 'l', '>'] from rfl, List.mem_cons,
      List.not_mem_nil, or_false] at hc
    rcases hc with rfl | rfl | rfl | rfl | rfl <;> decide
  · rcases List.mem_cons.mp hc with rfl | hc
    · decide
    · obtain ⟨k, hk, rfl⟩ := mem_hexChars hc
      exact (hexDigit_plain k hk).2.2.2
  · split at hc
    · rcases mem_dotted hc with rfl | hdigit
      · decide
      · constructor <;> rintro rfl <;> cases hdigit
    · rcases mem_colonText (toGroups_lt _) hc with rfl | ⟨k, hk, rfl⟩
      · decide
      · exact (hexDigit_plain k hk).2.2.2

section Classes

variable (ip)

/-- `net.IP.Equal`: the four bytes of an address and the sixteen that stand for it are equal. -/
def equal (x : IP) : Bool :=
  if ip.bytes.length = x.bytes.length then ip.bytes == x.bytes
  else if ip.bytes.length = 4 ∧ x.bytes.length = 16 then mapped ++ ip.bytes == x.bytes
  else if ip.bytes.length = 16 ∧ x.bytes.length = 4 then ip.bytes == mapped ++ x.bytes
  else false

/-- The test of an address by its four bytes, or by its sixteen if there are no four. -/
def classed (four sixteen : UInt8 → UInt8 → UInt8 → Bool) : Bool :=
  match ip.to4 with
  | some b => four (b.getD 0 0) (b.getD 1 0) (b.getD 2 0)
  | none =>
    ip.bytes.length == 16 && sixteen (ip.bytes.getD 0 0) (ip.bytes.getD 1 0) (ip.bytes.getD 2 0)

def isUnspecified : Bool :=
  ip.equal (some (mapped ++ [0, 0, 0, 0])) || ip.equal (some (List.replicate 16 0))

def isLoopback : Bool :=
  match ip.to4 with
  | some b => b.getD 0 0 == 127
  | none => ip.equal (some (List.replicate 15 0 ++ [1]))

def isPrivate : Bool := ip.classed
  (fun a b _ => a == 10 || (a == 172 && b &&& 0xf0 == 16) || (a == 192 && b == 168))
  (fun a _ _ => a &&& 0xfe == 0xfc)

def isLinkLocalUnicast : Bool := ip.classed
  (fun a b _ => a == 169 && b == 254) (fun a b _ => a == 0xfe && b &&& 0xc0 == 0x80)

def isLinkLocalMulticast : Bool := ip.classed
  (fun a b c => a == 224 && b == 0 && c == 0) (fun a b _ => a == 0xff && b &&& 0x0f == 0x02)

def isMulticast : Bool := ip.classed (fun a _ _ => a &&& 0xf0 == 0xe0) (fun a _ _ => a == 0xff)

end Classes

variable {t : Bytes}

theorem to16_eq_some (h : ip.to16 = some t) :
    (ip.bytes.length = 4 ∧ t = mapped ++ ip.bytes) ∨ (ip.bytes.length = 16 ∧ t = ip.bytes) := by
  unfold to16 at h
  split_ifs at h with hfour hsixteen
  · exact .inl ⟨hfour, (Option.some.inj h).symm⟩
  · exact .inr ⟨hsixteen, (Option.some.inj h).symm⟩

/-- The sixteen bytes of an address stand for the same four bytes. -/
theorem to4_to16 (h : ip.to16 = some t) : to4 (some t) = ip.to4 := by
  rcases to16_eq_some h with ⟨hfour, rfl⟩ | ⟨-, rfl⟩
  · have hbytes : bytes (some (mapped ++ ip.bytes)) = mapped ++ ip.bytes := rfl
    have hlength : (mapped ++ ip.bytes).length = 16 := by
      rw [List.length_append, hfour]
      rfl
    unfold to4
    rw [hbytes, hlength, if_neg (by decide), if_pos ⟨rfl, rfl⟩, if_pos hfour]
    rfl
  · rfl

theorem equal_to16 (h : ip.to16 = some t) {x : Bytes} (hx : x.length = 16) :
    equal (some t) (some x) = equal ip (some x) := by
  have hbytes (b : Bytes) : bytes (some b) = b := rfl
  rcases to16_eq_some h with ⟨hfour, rfl⟩ | ⟨-, rfl⟩
  · unfold equal
    rw [hbytes, hbytes, List.length_append, hx, hfour]
    rfl
  · rfl

theorem classed_to16 (h : ip.to16 = some t) (four sixteen : UInt8 → UInt8 → UInt8 → Bool) :
    classed (some t) four sixteen = classed ip four sixteen := by
  unfold classed
  rw [to4_to16 h]
  cases hto4 : ip.to4 with
  | some b => rfl
  | none =>
    have hwell : ip.WellFormed := (to16_eq_some h).imp And.left And.left
    have hsame := (to4_eq_none hwell hto4).2
    rw [Option.some.inj (h.symm.trans hsame)]
    rfl

end IP

section Ports

/-- The text before the last colon, and the text after it. -/
def breakLastColon (cs : List Char) : Option (List Char × List Char) :=
  match cs.reverse.dropWhile (· != ':') with
  | [] => none
  | _ :: before => some (before.reverse, (cs.reverse.takeWhile (· != ':')).reverse)

/-- `net.SplitHostPort`. A host with colons is in brackets. -/
def splitHostPort (cs : List Char) : Option (List Char × List Char) :=
  match breakLastColon cs with
  | none => none
  | some (before, port) =>
    if '[' ∈ port ∨ ']' ∈ port then none
    else match before with
      | '[' :: inner =>
        if inner.getLast? = some ']' ∧ ']' ∉ inner.dropLast ∧ '[' ∉ inner then
          some (inner.dropLast, port)
        else none
      | _ => if ':' ∈ before ∨ '[' ∈ before ∨ ']' ∈ before then none else some (before, port)

/-- `net.JoinHostPort`. -/
def joinHostPort (host port : List Char) : List Char :=
  if ':' ∈ host then '[' :: host ++ ']' :: ':' :: port else host ++ ':' :: port

example : splitHostPort "[2001:db8::1]:443".toList = some ("2001:db8::1".toList, "443".toList) ∧
    splitHostPort "2001:db8::1:443".toList = none := by
  decide +kernel

theorem breakLastColon_append {port : List Char} (h : ':' ∉ port) (before : List Char) :
    breakLastColon (before ++ ':' :: port) = some (before, port) := by
  have hport : ∀ c ∈ port.reverse, (c != ':') = true := by
    intro c hc
    rw [bne_iff_ne]
    rintro rfl
    exact h (List.mem_reverse.mp hc)
  have hreverse : (before ++ ':' :: port).reverse = port.reverse ++ ':' :: before.reverse := by
    simp
  unfold breakLastColon
  rw [hreverse, List.dropWhile_append_of_pos hport, List.takeWhile_append_of_pos hport]
  simp

theorem breakLastColon_eq_some {cs before port : List Char}
    (h : breakLastColon cs = some (before, port)) : ':' ∉ port := by
  unfold breakLastColon at h
  split at h
  · cases h
  · cases h
    intro hcolon
    have hstop := List.mem_takeWhile_imp (List.mem_reverse.mp hcolon)
    cases hstop

theorem splitHostPort_port {cs host port : List Char} (h : splitHostPort cs = some (host, port)) :
    ':' ∉ port ∧ '[' ∉ port ∧ ']' ∉ port := by
  unfold splitHostPort at h
  cases hbreak : breakLastColon cs with
  | none =>
    rw [hbreak] at h
    cases h
  | some parts =>
    obtain ⟨before, rest⟩ := parts
    rw [hbreak] at h
    dsimp only at h
    rw [Option.ite_none_left_eq_some] at h
    obtain ⟨hbrackets, h⟩ := h
    have hport : rest = port := by
      split at h
      · rw [Option.ite_none_right_eq_some] at h
        exact (Prod.mk.inj (Option.some.inj h.2)).2
      · rw [Option.ite_none_left_eq_some] at h
        exact (Prod.mk.inj (Option.some.inj h.2)).2
    cases hport
    rw [not_or] at hbrackets
    exact ⟨breakLastColon_eq_some hbreak, hbrackets⟩

theorem splitHostPort_joinHostPort {host port : List Char}
    (hhost : ∀ c ∈ host, c ≠ '[' ∧ c ≠ ']') (hport : ':' ∉ port ∧ '[' ∉ port ∧ ']' ∉ port) :
    splitHostPort (joinHostPort host port) = some (host, port) := by
  have hopen : '[' ∉ host := fun h => (hhost _ h).1 rfl
  have hclose : ']' ∉ host := fun h => (hhost _ h).2 rfl
  unfold joinHostPort splitHostPort
  split_ifs with hcolon
  · have hjoin : '[' :: host ++ ']' :: ':' :: port = ('[' :: (host ++ [']'])) ++ ':' :: port := by
      simp
    rw [hjoin, breakLastColon_append hport.1]
    simp [hport.2, hopen, hclose]
  · rw [breakLastColon_append hport.1]
    dsimp only
    rw [if_neg (not_or.mpr hport.2)]
    split
    · exact absurd (by simp) hopen
    · rw [if_neg]
      simp [hcolon, hopen, hclose]

end Ports

end RuleRaven.Framework
