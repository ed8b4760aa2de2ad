import RuleRaven.Framework.StrMap

namespace RuleRaven.Framework

/-- BSON values. A date counts milliseconds. A map of strings is kept as a map, in no order of its
own. -/
inductive Bson where
  | string (s : String)
  | int32 (n : Int32)
  | int64 (n : Int64)
  | boolean (b : Bool)
  | date (milliseconds : Int)
  | strings (entries : StrMap String)
  | array (items : List Bson)
  | document (members : List (String × Bson))

/-- How values of a type are written and read back, and what is left of them. -/
structure Codec (α : Type) where
  zero : α
  write : α → Bson
  read : Bson → Option α
  clip : α → α
  read_write : ∀ a, read (write a) = some (clip a)
  clip_zero : clip zero = zero

namespace Codec

@[reducible] def string : Codec String where
  zero := ""
  write := .string
  read
    | .string s => some s
    | _ => none
  clip := id
  read_write := fun _ => rfl
  clip_zero := rfl

@[reducible] def int32 : Codec Int32 where
  zero := 0
  write := .int32
  read
    | .int32 n => some n
    | _ => none
  clip := id
  read_write := fun _ => rfl
  clip_zero := rfl

@[reducible] def int64 : Codec Int64 where
  zero := 0
  write := .int64
  read
    | .int64 n => some n
    | _ => none
  clip := id
  read_write := fun _ => rfl
  clip_zero := rfl

@[reducible] def boolean : Codec Bool where
  zero := false
  write := .boolean
  read
    | .boolean b => some b
    | _ => none
  clip := id
  read_write := fun _ => rfl
  clip_zero := rfl

@[reducible] def strings : Codec (StrMap String) where
  zero := StrMap.empty
  write := .strings
  read
    | .strings m => some m
    | _ => none
  clip := id
  read_write := fun _ => rfl
  clip_zero := rfl

/-- A time in nanoseconds loses what is below a millisecond. -/
@[reducible] def time : Codec Int where
  zero := 0
  write t := .date (t / 1000000)
  read
    | .date milliseconds => some (milliseconds * 1000000)
    | _ => none
  clip t := t / 1000000 * 1000000
  read_write := fun _ => rfl
  clip_zero := rfl

end Codec

/-- A field of a struct under its key: what is written, nothing where it is omitted, and how it is
read into a value. -/
structure BsonField (σ : Type) where
  key : String
  write : σ → Option Bson
  read : Bson → σ → Option σ

namespace BsonField

variable {α σ : Type}

def required (key : String) (c : Codec α) (get : σ → α) (set : σ → α → σ) : BsonField σ where
  key := key
  write s := some (c.write (get s))
  read v s := (c.read v).map (set s)

/-- `omitempty` on a value. -/
def omitEmpty [DecidableEq α] (key : String) (c : Codec α) (get : σ → α) (set : σ → α → σ) :
    BsonField σ where
  key := key
  write s := if get s = c.zero then none else some (c.write (get s))
  read v s := (c.read v).map (set s)

/-- `omitempty` on a pointer. -/
def pointer (key : String) (c : Codec α) (get : σ → Option α) (set : σ → Option α → σ) :
    BsonField σ where
  key := key
  write s := (get s).map c.write
  read v s := (c.read v).map fun a => set s (some a)

/-- `omitempty` on a slice. -/
def slice (key : String) (c : Codec α) (get : σ → List α) (set : σ → List α → σ) :
    BsonField σ where
  key := key
  write s := if (get s).isEmpty then none else some (.array ((get s).map c.write))
  read v s := match v with
    | .array items => (items.mapM c.read).map (set s)
    | _ => none

/-- Reading a field of `s`, as it was written, into another value. -/
def restore (f : BsonField σ) (s acc : σ) : Option σ :=
  match f.write s with
  | none => some acc
  | some v => f.read v acc

/-- Every field of `s`, as it was written, read into a value. -/
def restoreAll : List (BsonField σ) → σ → σ → Option σ
  | [], _, acc => some acc
  | f :: fields, s, acc => (f.restore s acc).bind (restoreAll fields s)

@[simp] theorem restoreAll_nil (s acc : σ) : restoreAll [] s acc = some acc := rfl

section Restore

variable {key : String} {c : Codec α} {fields : List (BsonField σ)} {s acc : σ}

@[simp] theorem restoreAll_required {get : σ → α} {set : σ → α → σ} :
    restoreAll (required key c get set :: fields) s acc =
      restoreAll fields s (set acc (c.clip (get s))) := by
  simp [restoreAll, restore, required, c.read_write]

@[simp] theorem restoreAll_omitEmpty [DecidableEq α] {get : σ → α} {set : σ → α → σ}
    (hset : set acc c.zero = acc) :
    restoreAll (omitEmpty key c get set :: fields) s acc =
      restoreAll fields s (set acc (c.clip (get s))) := by
  by_cases h : get s = c.zero
  · simp [restoreAll, restore, omitEmpty, h, c.clip_zero, hset]
  · simp [restoreAll, restore, omitEmpty, h, c.read_write]

@[simp] theorem restoreAll_pointer {get : σ → Option α} {set : σ → Option α → σ}
    (hset : set acc none = acc) :
    restoreAll (pointer key c get set :: fields) s acc =
      restoreAll fields s (set acc ((get s).map c.clip)) := by
  cases h : get s with
  | none => simp [restoreAll, restore, pointer, h, hset]
  | some a => simp [restoreAll, restore, pointer, h, c.read_write]

theorem mapM_read_write (c : Codec α) (items : List α) :
    (items.map c.write).mapM c.read = some (items.map c.clip) := by
  induction items with
  | nil => rfl
  | cons item items ih => simp [List.mapM_cons, c.read_write, ih]

@[simp] theorem restoreAll_slice {get : σ → List α} {set : σ → List α → σ}
    (hset : set acc [] = acc) :
    restoreAll (slice key c get set :: fields) s acc =
      restoreAll fields s (set acc ((get s).map c.clip)) := by
  cases h : get s with
  | nil => simp [restoreAll, restore, slice, h, hset]
  | cons item items =>
    have hread := mapM_read_write c (item :: items)
    simp only [restoreAll, restore, slice, h, List.isEmpty_cons, Bool.false_eq_true, if_false]
    rw [hread]
    rfl

end Restore

/-- The members of a struct, those that are omitted left out. -/
def encode (fields : List (BsonField σ)) (s : σ) : List (String × Bson) :=
  fields.filterMap fun f => (f.write s).map fun v => (f.key, v)

/-- Members go to the field of their key; others are skipped. -/
def decode (fields : List (BsonField σ)) : List (String × Bson) → σ → Option σ
  | [], acc => some acc
  | (key, v) :: members, acc =>
    match fields.find? (·.key == key) with
    | none => decode fields members acc
    | some f => (f.read v acc).bind (decode fields members)

/-- Fields of different keys do not disturb each other. -/
theorem decode_encode {fields : List (BsonField σ)} (hkeys : (fields.map BsonField.key).Nodup)
    (s acc : σ) : decode fields (encode fields s) acc = restoreAll fields s acc := by
  have hfind : ∀ f ∈ fields, fields.find? (·.key == f.key) = some f := by
    intro f hf
    cases hfound : fields.find? (·.key == f.key) with
    | none =>
      have hnone := List.find?_eq_none.mp hfound f hf
      simp at hnone
    | some g =>
      have hkey := List.find?_some hfound
      exact congrArg some (List.inj_on_of_nodup_map hkeys (List.mem_of_find?_eq_some hfound) hf
        (beq_iff_eq.mp hkey))
  -- the members come from a suffix of the fields, and are looked up among all of them
  have hsuffix : ∀ rest : List (BsonField σ), (∀ f ∈ rest, f ∈ fields) → ∀ acc,
      decode fields (encode rest s) acc = restoreAll rest s acc := by
    intro rest
    induction rest with
    | nil => exact fun _ _ => rfl
    | cons f rest ih =>
      intro hmem acc
      have ih := ih fun g hg => hmem g (List.mem_cons_of_mem f hg)
      cases hwrite : f.write s with
      | none =>
        simp only [encode, List.filterMap_cons, hwrite, Option.map_none, restoreAll, restore,
          Option.bind_some]
        exact ih acc
      | some v =>
        simp only [encode, List.filterMap_cons, hwrite, Option.map_some, decode,
          hfind f (hmem f List.mem_cons_self), restoreAll, restore]
        cases f.read v acc with
        | none => rfl
        | some acc => exact ih acc
  exact hsuffix fields (fun _ hf => hf) acc

end BsonField

/-- The codec of a struct whose fields have different keys. -/
def Codec.struct {σ : Type} (fields : List (BsonField σ)) (zero : σ) (clip : σ → σ)
    (hkeys : (fields.map BsonField.key).Nodup)
    (hclip : ∀ s, BsonField.restoreAll fields s zero = some (clip s))
    (hzero : clip zero = zero) : Codec σ where
  zero := zero
  write s := .document (BsonField.encode fields s)
  read
    | .document members => BsonField.decode fields members zero
    | _ => none
  clip := clip
  read_write := fun s => (BsonField.decode_encode hkeys s zero).trans (hclip s)
  clip_zero := hzero

end RuleRaven.Framework
