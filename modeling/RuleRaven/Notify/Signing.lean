import RuleRaven.Basic
import RuleRaven.Framework.Hex

namespace RuleRaven

open Framework

namespace Time

/-- Seconds from the zero time to the start of 1970. -/
def unixToInternal : Int64 := 62135596800

/-- `Time.Unix`: the whole seconds since 1970, rounded down. -/
def unix (t : Time) : Int64 := Int64.ofInt (t / 1000000000) - unixToInternal

/-- `time.Unix(seconds, 0)`. The sum wraps around in the last two thousand years. -/
def ofUnix (seconds : Int64) : Time := (seconds + unixToInternal).toInt * 1000000000

end Time

namespace Notify

/-- What is authenticated: the Unix seconds in decimal, a dot and the body. -/
def signedBytes (timestamp : Time) (rawBody : Bytes) : Bytes :=
  ascii (encodeInt timestamp.unix.toInt) ++ (ascii ['.'] ++ rawBody)

-- HMAC-SHA256 of a secret and a message is some function to 32 bytes.
variable (mac : Bytes → Bytes → Vector UInt8 32)

def sign (secret : Bytes) (timestamp : Time) (rawBody : Bytes) : Bytes :=
  encodeHex (mac secret (signedBytes timestamp rawBody)).toList

def verify (secret : Bytes) (timestamp : Time) (rawBody signature : Bytes) : Bool :=
  if signature.length ≠ 64 then false
  else match decodeHex signature with
    | none => false
    | some decoded =>
      if encodeHex decoded ≠ signature then false
      else match decodeHex (sign mac secret timestamp rawBody) with
        | none => false
        | some actual => actual == decoded

theorem sign_length (secret : Bytes) (timestamp : Time) (rawBody : Bytes) :
    (sign mac secret timestamp rawBody).length = 64 := by
  rw [sign, encodeHex_length, Vector.length_toList]

theorem decodeHex_sign (secret : Bytes) (timestamp : Time) (rawBody : Bytes) :
    decodeHex (sign mac secret timestamp rawBody) =
      some (mac secret (signedBytes timestamp rawBody)).toList :=
  decodeHex_encodeHex _

theorem verify_iff (secret : Bytes) (timestamp : Time) (rawBody signature : Bytes) :
    verify mac secret timestamp rawBody signature = true ↔
      signature = sign mac secret timestamp rawBody := by
  unfold verify
  rw [decodeHex_sign]
  constructor
  · intro h
    split_ifs at h with hlength
    split at h
    · cases h
    · rename_i decoded hdecoded
      split_ifs at h with hcanonical
      rw [← not_not.mp hcanonical, ← beq_iff_eq.mp h]
      rfl
  · rintro rfl
    rw [sign_length, if_neg (not_not.mpr rfl), decodeHex_sign]
    exact (if_neg (not_not.mpr rfl)).trans (beq_self_eq_true _)

/-- The dot ends the number, whatever the body starts with. -/
theorem signedBytes_inj (t₁ t₂ : Time) (body₁ body₂ : Bytes) :
    signedBytes t₁ body₁ = signedBytes t₂ body₂ ↔ t₁.unix = t₂.unix ∧ body₁ = body₂ := by
  constructor
  · intro h
    have hread (t : Time) (body : Bytes) : (signedBytes t body).map latin =
        encodeInt t.unix.toInt ++ '.' :: body.map latin := by
      unfold signedBytes
      rw [List.map_append, List.map_append, map_latin_ascii (encodeInt_ascii _)]
      rfl
    have hchars := congrArg (List.map latin) h
    rw [hread, hread] at hchars
    have hdot (body : Bytes) : Stop ('.' :: body.map latin) := show '.'.isDigit = false by decide
    obtain ⟨hseconds, hrest⟩ := encodeInt_append_inj _ _ _ _ (hdot body₁) (hdot body₂) hchars
    have hbody := (List.cons.inj hrest).2
    exact ⟨Int64.toInt_inj.mp hseconds, List.map_injective_iff.mpr latin_injective hbody⟩
  · rintro ⟨hunix, rfl⟩
    unfold signedBytes
    rw [hunix]

/-- One text is accepted for a body and a second, and no other body or second is signed by the
same bytes. -/
theorem signature_exact :
    (∀ secret timestamp rawBody signature,
      verify mac secret timestamp rawBody signature = true ↔
        signature = sign mac secret timestamp rawBody) ∧
    ∀ t₁ t₂ body₁ body₂, signedBytes t₁ body₁ = signedBytes t₂ body₂ ↔
      t₁.unix = t₂.unix ∧ body₁ = body₂ :=
  ⟨verify_iff mac, signedBytes_inj⟩

end Notify

end RuleRaven
