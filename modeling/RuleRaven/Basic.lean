import RuleRaven.Framework.Text
import Mathlib.Logic.Function.Basic
import Mathlib.Data.List.Sort
import Mathlib.Algebra.Order.Ring.Int

namespace RuleRaven

open Framework

/-- Nanoseconds since the zero `time.Time`, January 1 of year 1 in UTC. -/
abbrev Time := Int

/-- `time.Duration`: nanoseconds in 64 bits. -/
abbrev Duration := Int64

namespace Time

def isZero (t : Time) : Bool := t == 0

def add (t : Time) (d : Duration) : Time := t + d.toInt

/-- `Time.Sub`, which saturates at the ends of the duration range. -/
def sub (t u : Time) : Duration :=
  Int64.ofInt (max (-2 ^ 63) (min (2 ^ 63 - 1) (t - u)))

theorem sub_toInt (t u : Time) :
    (sub t u).toInt = max (-2 ^ 63) (min (2 ^ 63 - 1) (t - u)) := by
  unfold sub
  exact Int64.toInt_ofInt_of_le (by omega) (by omega)

/-- Year, month and day of the proleptic Gregorian calendar, from days since year 1. The
era arithmetic counts from March 1 of year 0, so that the leap day ends a year. -/
def civil (days : Int) : Int × Int × Int :=
  let z := days + 306
  let era := z / 146097
  let doe := z % 146097
  let yoe := (doe - doe / 1460 + doe / 36524 - doe / 146096) / 365
  let doy := doe - (365 * yoe + yoe / 4 - yoe / 100)
  let mp := (5 * doy + 2) / 153
  let day := doy - (153 * mp + 2) / 5 + 1
  let month := if mp < 10 then mp + 3 else mp - 9
  (yoe + era * 400 + (if month ≤ 2 then 1 else 0), month, day)

/-- Decimal digits, padded with zeros on the left. -/
def padded (width : Nat) (n : Int) : List Char :=
  let digits := Nat.toDigits 10 n.toNat
  List.replicate (width - digits.length) '0' ++ digits

/-- The fraction of a second without trailing zeros, and nothing for a whole second. -/
def fraction (nanos : Int) : List Char :=
  if nanos = 0 then [] else '.' :: ((padded 9 nanos).reverse.dropWhile (· == '0')).reverse

/-- The RFC 3339 text of `Time.MarshalJSON`, which refuses years outside 0 to 9999. -/
def format (t : Time) : Option String :=
  let seconds := t / 1000000000
  let (year, month, day) := civil (seconds / 86400)
  let clock := seconds % 86400
  if year < 0 ∨ 9999 < year then none
  else some (ofChars (padded 4 year ++ '-' :: padded 2 month ++ '-' :: padded 2 day ++
    'T' :: padded 2 (clock / 3600) ++ ':' :: padded 2 (clock / 60 % 60) ++
    ':' :: padded 2 (clock % 60) ++ fraction (t % 1000000000) ++ ['Z']))

example : format 0 = some "0001-01-01T00:00:00Z" := by decide

example : format 63844819200500000000 = some "2024-02-29T16:00:00.5Z" := by decide

end Time

/-- `sort.Slice` by a comparison. Equal elements keep their order, as in the insertion sort
that the library uses for short slices. -/
def sortSlice {α : Type} (less : α → α → Bool) (items : List α) : List α :=
  items.insertionSort (fun a b => less b a = false)

theorem sortSlice_perm {α : Type} (less : α → α → Bool) (items : List α) :
    (sortSlice less items).Perm items :=
  List.perm_insertionSort _ items

/-- The order that `sortSlice` establishes, for a comparison that is a strict weak order. -/
theorem sortSlice_sorted {α : Type} (less : α → α → Bool)
    (htotal : ∀ a b, less b a = false ∨ less a b = false)
    (htrans : ∀ a b c, less b a = false → less c b = false → less c a = false)
    (items : List α) : (sortSlice less items).Pairwise (fun a b => less b a = false) := by
  have : Std.Total (fun a b => less b a = false) := ⟨htotal⟩
  have : IsTrans α (fun a b => less b a = false) := ⟨htrans⟩
  exact List.pairwise_insertionSort _ items

section Keys

variable {α κ : Type} [LinearOrder κ] {less : α → α → Bool} (key : α → κ)
  (hless : ∀ a b, less a b = true ↔ key a < key b)

include hless

theorem less_eq_false_iff (a b : α) : less b a = false ↔ key a ≤ key b := by
  rw [← not_lt, ← hless, Bool.not_eq_true]

theorem sortSlice_sorted_of_key (items : List α) :
    (sortSlice less items).Pairwise fun a b => less b a = false := by
  have hle := less_eq_false_iff key hless
  apply sortSlice_sorted
  · simp only [hle]
    exact fun a b => le_total (key a) (key b)
  · simp only [hle]
    exact fun a b c => le_trans

variable {items others : List α}

/-- Only one order is sorted, for a comparison of keys that tell the elements apart. -/
theorem eq_sortSlice (hperm : others.Perm items)
    (hsorted : others.Pairwise fun a b => less b a = false)
    (hkey : ∀ a ∈ items, ∀ b ∈ items, key a = key b → a = b) : others = sortSlice less items := by
  have hle := less_eq_false_iff key hless
  have hitems := sortSlice_perm less items
  apply List.Perm.eq_of_pairwise _ hsorted (sortSlice_sorted_of_key key hless items)
    (hperm.trans hitems.symm)
  intro a b ha hb hab hba
  exact hkey a (hperm.mem_iff.mp ha) b (hitems.mem_iff.mp hb)
    (le_antisymm ((hle a b).mp hab) ((hle b a).mp hba))

/-- So sorting forgets the order of its argument. -/
theorem sortSlice_eq_of_perm (hperm : items.Perm others)
    (hkey : ∀ a ∈ items, ∀ b ∈ items, key a = key b → a = b) :
    sortSlice less items = sortSlice less others := by
  apply eq_sortSlice key hless ((sortSlice_perm less items).trans hperm)
    (sortSlice_sorted_of_key key hless items)
  intro a ha b hb
  exact hkey a (hperm.mem_iff.mpr ha) b (hperm.mem_iff.mpr hb)

end Keys

/-- What `errors.Is` looks for in an error's chain. -/
inductive Sentinel where
  | storeNotFound
  | storeConflict
  | kubeNotFound
  | duplicateKey
  | deadlineExceeded
  deriving DecidableEq, Repr

/-- An error value: its text, and the sentinel at the end of its chain, if any. -/
structure Err where
  text : String
  cause : Option Sentinel := none
  deriving DecidableEq, Repr

namespace Err

/-- `fmt.Errorf("<context>: %w", err)`. -/
def wrap (e : Err) (context : String) : Err := { e with text := context ++ ": " ++ e.text }

def is (e : Err) (s : Sentinel) : Bool := e.cause == some s

@[simp] theorem is_wrap (e : Err) (context : String) (s : Sentinel) :
    (e.wrap context).is s = e.is s := rfl

end Err

/-- SHA-256 followed by hexadecimal encoding, as far as the program depends on it: a text of
hexadecimal digits. -/
structure Hasher where
  hex : String → String
  nonempty : ∀ s, (hex s).toList ≠ []
  digits : ∀ s, ∀ c ∈ (hex s).toList, isHexDigit c = true

theorem Hasher.visible (H : Hasher) (s : String) : isBlank (H.hex s) = false := by
  obtain ⟨c, hc⟩ := List.exists_mem_of_ne_nil _ (H.nonempty s)
  rw [isBlank, chars_eq, List.all_eq_false]
  exact ⟨c, hc, by simp [isSpace_of_isHexDigit (H.digits s c hc)]⟩

/-- The separator of the seeds does not occur. -/
theorem Hasher.plain (H : Hasher) (s : String) : '\x00' ∉ (H.hex s).toList := by
  intro hc
  have hbounds := isHexDigit_bounds (H.digits s _ hc)
  exact absurd hbounds.1 (by decide)

/-- No two of the program's inputs collide. -/
def Hasher.CollisionFree (H : Hasher) : Prop := Function.Injective H.hex

theorem isBlank_append_hex (H : Hasher) (front s : String) :
    isBlank (front ++ H.hex s) = false := by
  rw [isBlank_append, H.visible, Bool.and_false]

/-- A check that did not fail, and what came of the rest. -/
theorem ite_error_eq_ok {ε α : Type} {c : Prop} [Decidable c] {err : ε} {x : Except ε α} {a : α} :
    (if c then .error err else x) = .ok a ↔ ¬c ∧ x = .ok a := by
  split_ifs with hc <;> simp [hc]

theorem ok_of_toOption {ε α : Type} {x : Except ε α} {a : α} (h : x.toOption = some a) :
    x = .ok a := by
  cases x with
  | error err => cases h
  | ok b =>
    cases h
    rfl

end RuleRaven
