import RuleRaven.Framework.Json

namespace RuleRaven.Framework

/-- Strings as they are on the wire, where any byte may occur. -/
abbrev Bytes := List UInt8

def asciiByte (c : Char) : UInt8 := UInt8.ofNat c.toNat

/-- The bytes of a text of ASCII characters. -/
def ascii (s : List Char) : Bytes := s.map asciiByte

/-- The character of a byte, read as Latin-1. -/
def latin (b : UInt8) : Char := Char.ofNat b.toNat

theorem latin_toNat (b : UInt8) : (latin b).toNat = b.toNat := by
  have hvalid : b.toNat.isValidChar := .inl (by have := b.toNat_lt; omega)
  unfold latin Char.ofNat
  rw [dif_pos hvalid]
  rfl

theorem latin_injective : Function.Injective latin := by
  intro a b h
  have hnat := congrArg Char.toNat h
  rw [latin_toNat, latin_toNat] at hnat
  exact UInt8.toNat_inj.mp hnat

theorem latin_asciiByte {c : Char} (h : c.toNat < 256) : latin (asciiByte c) = c := by
  have hbyte : (asciiByte c).toNat = c.toNat := by
    unfold asciiByte
    rw [UInt8.toNat_ofNat']
    exact Nat.mod_eq_of_lt h
  unfold latin
  rw [hbyte, Char.ofNat_toNat]

/-- ASCII text is read back from its bytes. -/
theorem map_latin_ascii {s : List Char} (h : ∀ c ∈ s, c.toNat < 256) : (ascii s).map latin = s := by
  unfold ascii
  rw [List.map_map]
  exact (List.map_congr_left (g := id) fun c hc => latin_asciiByte (h c hc)).trans (List.map_id s)

/-- Every character of a decimal number is a digit or the minus sign. -/
theorem encodeInt_ascii (n : Int) : ∀ c ∈ encodeInt n, c.toNat < 256 := by
  have hdigits : ∀ c ∈ Nat.toDigits 10 n.natAbs, c.toNat < 256 := by
    intro c hc
    have hdigit := toDigits_isDigit _ c hc
    simp only [Char.isDigit, Bool.and_eq_true, decide_eq_true_eq] at hdigit
    have hhi : c.toNat ≤ 57 := hdigit.2
    omega
  intro c hc
  unfold encodeInt at hc
  split at hc
  · cases List.mem_cons.mp hc with
    | inl hminus => exact hminus ▸ by decide
    | inr hdigit => exact hdigits c hdigit
  · exact hdigits c hc

section Hex

/-- The two digits of a byte, in lower case. -/
def hexPair (b : UInt8) : List Char := [hexDigit (b.toNat / 16), hexDigit (b.toNat % 16)]

/-- `hex.EncodeToString`. -/
def hexChars (bytes : Bytes) : List Char := bytes.flatMap hexPair

/-- The same on the wire. -/
def encodeHex (bytes : Bytes) : Bytes := ascii (hexChars bytes)

theorem mem_hexChars {bytes : Bytes} {c : Char} (h : c ∈ hexChars bytes) :
    ∃ k < 16, c = hexDigit k := by
  obtain ⟨b, -, hc⟩ := List.mem_flatMap.mp h
  have hb := b.toNat_lt
  simp only [hexPair, List.mem_cons, List.not_mem_nil, or_false] at hc
  rcases hc with rfl | rfl
  · exact ⟨_, by omega, rfl⟩
  · exact ⟨_, by omega, rfl⟩

theorem isHexDigit_hexDigit : ∀ k < 16, isHexDigit (hexDigit k) = true := by decide

theorem isHexDigit_of_mem_hexChars {bytes : Bytes} {c : Char} (h : c ∈ hexChars bytes) :
    isHexDigit c = true := by
  obtain ⟨k, hk, rfl⟩ := mem_hexChars h
  exact isHexDigit_hexDigit k hk

/-- The value of a hexadecimal digit in either case. -/
def fromHexChar (c : UInt8) : Option UInt8 :=
  if 48 ≤ c ∧ c ≤ 57 then some (c - 48)
  else if 97 ≤ c ∧ c ≤ 102 then some (c - 87)
  else if 65 ≤ c ∧ c ≤ 70 then some (c - 55)
  else none

def decodeHex : Bytes → Option Bytes
  | [] => some []
  | [_] => none
  | a :: b :: rest =>
    match fromHexChar a, fromHexChar b with
    | some high, some low => (decodeHex rest).map ((high * 16 + low) :: ·)
    | _, _ => none

theorem encodeHex_cons (b : UInt8) (bytes : Bytes) :
    encodeHex (b :: bytes) = ascii (hexPair b) ++ encodeHex bytes :=
  List.map_append

theorem encodeHex_length (bytes : Bytes) : (encodeHex bytes).length = 2 * bytes.length := by
  induction bytes with
  | nil => rfl
  | cons b bytes ih =>
    rw [encodeHex_cons, List.length_append, ih, List.length_cons]
    simp only [hexPair, ascii, List.length_map, List.length_cons, List.length_nil]
    omega

theorem fromHexChar_hexDigit : ∀ n < 16, fromHexChar (asciiByte (hexDigit n)) =
    some (UInt8.ofNat n) := by
  decide

theorem decodeHex_pair (b : UInt8) (rest : Bytes) :
    decodeHex (ascii (hexPair b) ++ rest) = (decodeHex rest).map (b :: ·) := by
  have hb := b.toNat_lt
  have hbyte : UInt8.ofNat (b.toNat / 16) * 16 + UInt8.ofNat (b.toNat % 16) = b := by
    apply UInt8.toNat_inj.mp
    rw [UInt8.toNat_add, UInt8.toNat_mul, UInt8.toNat_ofNat', UInt8.toNat_ofNat',
      show UInt8.toNat 16 = 16 from rfl]
    omega
  simp only [hexPair, ascii, List.map_cons, List.map_nil, List.cons_append, List.nil_append,
    decodeHex, fromHexChar_hexDigit _ (show b.toNat / 16 < 16 by omega),
    fromHexChar_hexDigit _ (show b.toNat % 16 < 16 by omega), hbyte]

theorem decodeHex_encodeHex (bytes : Bytes) : decodeHex (encodeHex bytes) = some bytes := by
  induction bytes with
  | nil => rfl
  | cons b bytes ih => rw [encodeHex_cons, decodeHex_pair, ih, Option.map_some]

theorem hexChars_injective : Function.Injective hexChars := by
  intro a b h
  have hbytes : encodeHex a = encodeHex b := congrArg ascii h
  have hdecoded := congrArg decodeHex hbytes
  rw [decodeHex_encodeHex, decodeHex_encodeHex] at hdecoded
  exact Option.some.inj hdecoded

end Hex

end RuleRaven.Framework
