import Mathlib.Data.List.Nodup

namespace RuleRaven.Framework

/-- A collection with two unique indexes, in insertion order. -/
@[ext] structure Table {α ι κ : Type} (id : α → ι) (key : α → κ) where
  rows : List α
  id_unique : (rows.map id).Nodup
  key_unique : (rows.map key).Nodup

namespace Table

variable {α ι κ : Type} {id : α → ι} {key : α → κ}

instance [DecidableEq α] : DecidableEq (Table id key) := fun t u =>
  decidable_of_iff (t.rows = u.rows) ⟨Table.ext, fun h => h ▸ rfl⟩

def empty : Table id key := ⟨[], List.nodup_nil, List.nodup_nil⟩

@[simp] theorem rows_empty : (empty : Table id key).rows = [] := rfl

section Lookup

variable [DecidableEq κ]

def byKey (t : Table id key) (k : κ) : Option α := t.rows.find? fun a => key a = k

theorem byKey_eq_some {t : Table id key} {k : κ} {a : α} :
    t.byKey k = some a ↔ a ∈ t.rows ∧ key a = k := by
  constructor
  · intro h
    exact ⟨List.mem_of_find?_eq_some h, by simpa using List.find?_some h⟩
  · rintro ⟨hmem, hkey⟩
    have hsome : (t.rows.find? fun a => key a = k).isSome = true :=
      List.find?_isSome.mpr ⟨a, hmem, by simpa using hkey⟩
    obtain ⟨b, hb⟩ := Option.isSome_iff_exists.mp hsome
    have hbkey : key b = k := by simpa using List.find?_some hb
    have hba := List.inj_on_of_nodup_map t.key_unique (List.mem_of_find?_eq_some hb) hmem
      (hbkey.trans hkey.symm)
    rw [byKey, hb, hba]

theorem byKey_eq_none {t : Table id key} {k : κ} :
    t.byKey k = none ↔ ∀ a ∈ t.rows, key a ≠ k := by
  simp [byKey, List.find?_eq_none]

end Lookup

theorem eq_of_id {t : Table id key} {a b : α} (ha : a ∈ t.rows) (hb : b ∈ t.rows)
    (h : id a = id b) : a = b :=
  List.inj_on_of_nodup_map t.id_unique ha hb h

section Insert

variable [DecidableEq ι] [DecidableEq κ]

/-- Insertion, refused when an index already holds the key. -/
def insert (t : Table id key) (a : α) : Option (Table id key) :=
  if h : id a ∉ t.rows.map id ∧ key a ∉ t.rows.map key then
    some
      { rows := t.rows ++ [a]
        id_unique := by
          rw [List.map_append]
          exact t.id_unique.append (List.nodup_singleton _) (by simpa using h.1)
        key_unique := by
          rw [List.map_append]
          exact t.key_unique.append (List.nodup_singleton _) (by simpa using h.2) }
  else none

theorem insert_eq_some {t u : Table id key} {a : α} :
    t.insert a = some u ↔
      (∀ b ∈ t.rows, id b ≠ id a) ∧ (∀ b ∈ t.rows, key b ≠ key a) ∧ u.rows = t.rows ++ [a] := by
  unfold insert
  split_ifs with h
  · simp only [List.mem_map, not_exists, not_and] at h
    simp only [Option.some.injEq]
    exact ⟨fun he => ⟨h.1, h.2, he ▸ rfl⟩, fun he => Table.ext he.2.2.symm⟩
  · simp only [List.mem_map, not_and_or, not_exists] at h
    simp only [false_iff, not_and]
    grind

theorem insert_isSome {t : Table id key} {a : α} (hid : ∀ b ∈ t.rows, id b ≠ id a)
    (hkey : ∀ b ∈ t.rows, key b ≠ key a) :
    ∃ u, t.insert a = some u ∧ u.rows = t.rows ++ [a] := by
  have h : id a ∉ t.rows.map id ∧ key a ∉ t.rows.map key := by
    simp only [List.mem_map, not_exists, not_and]
    exact ⟨hid, hkey⟩
  exact ⟨_, dif_pos h, rfl⟩

end Insert

/-- A change to a row that keeps what the indexes see of it. -/
structure Change (id : α → ι) (key : α → κ) where
  apply : α → α
  id_apply : ∀ a, id (apply a) = id a
  key_apply : ∀ a, key (apply a) = key a

section Modify

variable [DecidableEq ι]

theorem map_change {β : Type} (rows : List α) (i : ι) (f : α → α) (g : α → β)
    (h : ∀ a, g (f a) = g a) :
    (rows.map fun a => if id a = i then f a else a).map g = rows.map g := by
  rw [List.map_map]
  refine List.map_congr_left fun a _ => ?_
  simp only [Function.comp_apply]
  split_ifs
  · exact h a
  · rfl

def modify (t : Table id key) (i : ι) (f : Change id key) : Table id key where
  rows := t.rows.map fun a => if id a = i then f.apply a else a
  id_unique := by
    rw [map_change t.rows i f.apply id f.id_apply]
    exact t.id_unique
  key_unique := by
    rw [map_change t.rows i f.apply key f.key_apply]
    exact t.key_unique

theorem mem_modify {t : Table id key} {i : ι} {f : Change id key} {b : α} :
    b ∈ (t.modify i f).rows ↔
      (b ∈ t.rows ∧ id b ≠ i) ∨ ∃ a ∈ t.rows, id a = i ∧ b = f.apply a := by
  simp only [modify, List.mem_map]
  constructor
  · rintro ⟨a, ha, rfl⟩
    by_cases hi : id a = i
    · exact Or.inr ⟨a, ha, hi, by simp [hi]⟩
    · exact Or.inl (by simpa [hi] using ha)
  · rintro (⟨hb, hi⟩ | ⟨a, ha, hi, rfl⟩)
    · exact ⟨b, hb, by simp [hi]⟩
    · exact ⟨a, ha, by simp [hi]⟩

/-- A change is seen under the key of the row it was made to, and nowhere else. -/
theorem byKey_modify [DecidableEq κ] (t : Table id key) (i : ι) (f : Change id key) (k : κ) :
    (t.modify i f).byKey k = (t.byKey k).map fun a => if id a = i then f.apply a else a := by
  have hkey : ∀ a, key (if id a = i then f.apply a else a) = key a := by
    intro a
    split_ifs
    · exact f.key_apply a
    · rfl
  cases h : t.byKey k with
  | none =>
    rw [byKey_eq_none] at h
    rw [Option.map_none, byKey_eq_none]
    intro b hb
    obtain ⟨a, ha, rfl⟩ := List.mem_map.mp hb
    rw [hkey]
    exact h a ha
  | some a =>
    obtain ⟨ha, hk⟩ := byKey_eq_some.mp h
    exact byKey_eq_some.mpr ⟨List.mem_map.mpr ⟨a, ha, rfl⟩, (hkey a).trans hk⟩

end Modify

end Table

end RuleRaven.Framework
