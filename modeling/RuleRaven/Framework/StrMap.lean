import Mathlib.Data.List.Nodup
import Mathlib.Data.String.Basic
import Mathlib.Order.Basic

namespace RuleRaven.Framework

/-- A finite map with string keys, its entries in strictly increasing key order. The order
makes the representation unique: two maps are equal exactly when their entries are. -/
@[ext] structure StrMap (β : Type) where
  entries : List (String × β)
  sorted : (entries.map Prod.fst).Pairwise (· < ·)

namespace StrMap

variable {β γ : Type}

instance [DecidableEq β] : DecidableEq (StrMap β) := fun m n =>
  decidable_of_iff (m.entries = n.entries) ⟨StrMap.ext, fun h => h ▸ rfl⟩

def empty : StrMap β := ⟨[], List.Pairwise.nil⟩

instance : Inhabited (StrMap β) := ⟨empty⟩

def lookup (m : StrMap β) (key : String) : Option β := m.entries.lookup key

def contains (m : StrMap β) (key : String) : Bool := (m.lookup key).isSome

def keys (m : StrMap β) : List String := m.entries.map Prod.fst

def size (m : StrMap β) : Nat := m.entries.length

/-- The entries whose key passes the test. -/
def filterKeys (m : StrMap β) (p : String → Bool) : StrMap β where
  entries := m.entries.filter (fun e => p e.1)
  sorted := by
    have h := List.Pairwise.of_map Prod.fst (fun _ _ h => h) m.sorted
    exact List.Pairwise.map Prod.fst (fun _ _ h => h) (List.Pairwise.filter _ h)

theorem keys_nodup (m : StrMap β) : m.keys.Nodup := m.sorted.imp fun h => ne_of_lt h

/-- A key has one value. -/
theorem value_unique {m : StrMap β} {key : String} {v w : β} (hv : (key, v) ∈ m.entries)
    (hw : (key, w) ∈ m.entries) : v = w :=
  congrArg Prod.snd (List.inj_on_of_nodup_map m.keys_nodup hv hw rfl)

theorem mem_of_lookup {m : StrMap β} {key : String} {value : β}
    (h : m.lookup key = some value) : (key, value) ∈ m.entries := by
  unfold lookup at h
  generalize m.entries = entries at h
  induction entries with
  | nil => cases h
  | cons entry entries ih =>
    rw [List.lookup_cons] at h
    by_cases hkey : key = entry.1
    · have hvalue : value = entry.2 := by simpa [hkey] using h.symm
      rw [hkey, hvalue]
      exact List.mem_cons_self
    · rw [beq_eq_false_iff_ne.mpr hkey] at h
      exact List.mem_cons_of_mem _ (ih h)

theorem lookup_of_mem {m : StrMap β} {key : String} {value : β}
    (h : (key, value) ∈ m.entries) : m.lookup key = some value := by
  cases hlookup : m.lookup key with
  | none =>
    have hnone := List.lookup_eq_none_iff.mp hlookup (key, value) h
    simp at hnone
  | some found => rw [value_unique (mem_of_lookup hlookup) h]

theorem mem_keys_of_contains {m : StrMap β} {key : String} (h : m.contains key = true) :
    key ∈ m.keys := by
  obtain ⟨value, hlookup⟩ := Option.isSome_iff_exists.mp h
  exact List.mem_map_of_mem (mem_of_lookup hlookup)

theorem contains_of_mem_keys {m : StrMap β} {key : String} (h : key ∈ m.keys) :
    m.contains key = true := by
  obtain ⟨e, he, rfl⟩ := List.mem_map.mp h
  rw [contains, lookup_of_mem he]
  rfl

/-- The order fixes the list of keys. -/
theorem keys_eq_of_mem_iff {m : StrMap β} {n : StrMap γ} (h : ∀ key, key ∈ m.keys ↔ key ∈ n.keys) :
    m.keys = n.keys := by
  have hperm : m.keys.Perm n.keys := (List.perm_ext_iff_of_nodup m.keys_nodup n.keys_nodup).mpr h
  exact hperm.eq_of_pairwise (fun a b _ _ hab hba => (lt_asymm hab hba).elim) m.sorted n.sorted

theorem lookup_filterKeys (m : StrMap β) (p : String → Bool) {key : String} {value : β} :
    (m.filterKeys p).lookup key = some value ↔ p key = true ∧ m.lookup key = some value := by
  constructor
  · intro h
    obtain ⟨hmem, hp⟩ := List.mem_filter.mp (mem_of_lookup h)
    exact ⟨hp, lookup_of_mem hmem⟩
  · intro h
    obtain ⟨hp, hlookup⟩ := h
    exact lookup_of_mem (List.mem_filter.mpr ⟨mem_of_lookup hlookup, hp⟩)

/-- The map with one entry put in, in place of another with its key. -/
def insert (m : StrMap β) (key : String) (value : β) : StrMap β where
  entries := m.entries.filter (fun e => e.1 < key) ++
    (key, value) :: m.entries.filter (fun e => key < e.1)
  sorted := by
    have h := List.Pairwise.of_map Prod.fst (fun _ _ h => h) m.sorted
    have hbelow : ∀ e ∈ m.entries.filter (fun e => e.1 < key), e.1 < key := fun e he => by
      simpa using (List.mem_filter.mp he).2
    have habove : ∀ e ∈ m.entries.filter (fun e => key < e.1), key < e.1 := fun e he => by
      simpa using (List.mem_filter.mp he).2
    apply List.Pairwise.map Prod.fst (fun _ _ h => h)
    rw [List.pairwise_append, List.pairwise_cons]
    refine ⟨h.filter _, ⟨habove, h.filter _⟩, fun a ha b hb => ?_⟩
    rcases List.mem_cons.mp hb with rfl | hb
    · exact hbelow a ha
    · exact (hbelow a ha).trans (habove b hb)

/-- A new key adds one entry. -/
theorem insert_perm {m : StrMap β} {key : String} (h : key ∉ m.keys) (value : β) :
    (m.insert key value).entries.Perm ((key, value) :: m.entries) := by
  have hfilter : m.entries.filter (fun e => decide (key < e.1)) =
      m.entries.filter (fun e => !decide (e.1 < key)) := by
    refine List.filter_congr fun e he => ?_
    have hne : key ≠ e.1 := fun heq => h (heq ▸ List.mem_map_of_mem he)
    rw [← decide_not, decide_eq_decide, not_lt]
    exact ⟨le_of_lt, fun hle => lt_of_le_of_ne hle hne⟩
  show (m.entries.filter _ ++ (key, value) :: m.entries.filter _).Perm _
  rw [hfilter]
  exact List.perm_middle.trans ((List.filter_append_perm _ m.entries).cons _)

end StrMap

end RuleRaven.Framework
