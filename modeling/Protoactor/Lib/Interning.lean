/-!
# Tables of shared rows

A table holds a row for each key that has been asked for, and remembers the index it has given to
the key. `firsts` are the keys of a list in the order of their first occurrences: a table that has
been asked for the keys of a list has exactly their rows, and its indices are positions among
them (`Holds.intern`). Indices may start at any `base`.
-/

namespace Protoactor.Lib
set_option autoImplicit false

variable {K R : Type} [DecidableEq K]

/-! ## First occurrences -/

/-- A key is added unless it is there. -/
def grow (keys : List K) (key : K) : List K := if key ∈ keys then keys else keys ++ [key]

/-- Each key where it occurs first. -/
def firsts (keys : List K) : List K := keys.foldl grow []

theorem firsts_concat (keys : List K) (key : K) : firsts (keys ++ [key]) = grow (firsts keys) key := by
  simp [firsts]

theorem prefix_grow (keys : List K) (key : K) : keys <+: grow keys key := by
  unfold grow
  split
  · exact List.prefix_refl _
  · exact List.prefix_append _ _

theorem mem_grow {keys : List K} {key k : K} : k ∈ grow keys key ↔ k ∈ keys ∨ k = key := by
  unfold grow
  split
  · rename_i member
    exact ⟨.inl, fun either => either.elim id fun same => same ▸ member⟩
  · simp

theorem nodup_grow {keys : List K} (nodup : keys.Nodup) (key : K) : (grow keys key).Nodup := by
  unfold grow
  split
  · exact nodup
  · rename_i absent
    refine List.nodup_append.2 ⟨nodup, List.nodup_cons.2 ⟨List.not_mem_nil, List.nodup_nil⟩, fun a inside b last same => ?_⟩
    rw [List.mem_singleton.1 last] at same
    exact absent (same ▸ inside)

theorem mem_foldl_grow {keys rest : List K} {k : K} : k ∈ rest.foldl grow keys ↔ k ∈ keys ∨ k ∈ rest := by
  induction rest generalizing keys with
  | nil => simp
  | cons key rest ih => rw [List.foldl_cons, ih, mem_grow, List.mem_cons, or_assoc]

@[simp] theorem mem_firsts {keys : List K} {k : K} : k ∈ firsts keys ↔ k ∈ keys := by
  unfold firsts
  rw [mem_foldl_grow]
  simp

theorem nodup_foldl_grow {keys : List K} (nodup : keys.Nodup) (rest : List K) : (rest.foldl grow keys).Nodup := by
  induction rest generalizing keys with
  | nil => exact nodup
  | cons key rest ih => exact ih (nodup_grow nodup key)

theorem nodup_firsts (keys : List K) : (firsts keys).Nodup := nodup_foldl_grow List.nodup_nil keys

/-- An index stays what it is when more keys come. -/
theorem idxOf_longer {keys keys' : List K} (older : keys <+: keys') {k : K} (member : k ∈ keys) :
    keys'.idxOf k = keys.idxOf k := by
  obtain ⟨rest, rfl⟩ := older
  rw [List.idxOf_append, if_pos member]

/-- What the index of a key points to. -/
theorem getElem?_idxOf {keys : List K} {k : K} (member : k ∈ keys) : keys[keys.idxOf k]? = some k := by
  have bound := List.idxOf_lt_length_of_mem member
  rw [List.getElem?_eq_getElem bound, List.getElem_idxOf bound]

/-! ## Tables -/

structure Table (K R : Type) where
  indices : List (K × Nat)
  rows : List R

namespace Table

def empty : Table K R := ⟨[], []⟩

/-- The index of a key, with a new row if the key has none. -/
def intern (base : Nat) (row : K → R) (key : K) (t : Table K R) : Nat × Table K R :=
  match t.indices.lookup key with
  | some index => (index, t)
  | none => (base + t.rows.length, ⟨(key, base + t.rows.length) :: t.indices, t.rows ++ [row key]⟩)

/-- The table has been asked for these keys. -/
structure Holds (base : Nat) (row : K → R) (keys : List K) (t : Table K R) : Prop where
  rows : t.rows = keys.map row
  indices : ∀ k, t.indices.lookup k = if k ∈ keys then some (base + keys.idxOf k) else none

theorem holds_empty (base : Nat) (row : K → R) : Holds base row [] (empty : Table K R) where
  rows := rfl
  indices := fun k => by simp [empty]

/-- **A key gets its position** among the keys so far, and the table holds it from then on. -/
theorem Holds.intern {base : Nat} {row : K → R} {keys : List K} {t : Table K R} (holds : Holds base row keys t) (key : K) :
    (t.intern base row key).1 = base + (grow keys key).idxOf key ∧
      Holds base row (grow keys key) (t.intern base row key).2 := by
  unfold Table.intern grow
  have found := holds.indices key
  by_cases member : key ∈ keys
  · rw [if_pos member] at found
    simp only [found, if_pos member]
    exact ⟨trivial, holds⟩
  · rw [if_neg member] at found
    have size : t.rows.length = keys.length := by rw [holds.rows, List.length_map]
    have last : (keys ++ [key]).idxOf key = keys.length := by
      rw [List.idxOf_append, if_neg member, List.idxOf_cons_self, Nat.zero_add]
    simp only [found, if_neg member, size, last]
    refine ⟨trivial, ?_, fun k => ?_⟩
    · simp [holds.rows]
    · by_cases same : k = key
      · subst same
        simp [last]
      · have other : (k == key) = false := by simpa using same
        rw [List.lookup_cons, other, holds.indices k]
        by_cases inside : k ∈ keys
        · rw [if_pos inside, if_pos (List.mem_append_left _ inside), List.idxOf_append, if_pos inside]
        · rw [if_neg inside, if_neg (by simp [inside, same])]

end Table

end Protoactor.Lib
