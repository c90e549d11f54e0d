/-!
# Slabs

A table whose entries keep their keys.  A new entry takes the key that was freed last, or the next
one that was never used if none is free.

The view of a slab is `get?`.  Each operation is described by what it does to the view and to the
number of entries.
-/

namespace LineFrame

structure Slab (α : Type) where
  slots : List (Option α) := []
  /-- The keys that were freed, the last one first. -/
  free : List Nat := []
  /-- Exactly the empty slots are free. -/
  mem_free_iff : ∀ k, k ∈ free ↔ slots[k]? = some none := by simp
  nodup_free : free.Nodup := by simp

namespace Slab

variable {α : Type}

def empty : Slab α := {}

instance : Inhabited (Slab α) := ⟨empty⟩

def get? (s : Slab α) (k : Nat) : Option α := s.slots[k]?.join

/-- How many entries there are. -/
def size (s : Slab α) : Nat := s.slots.countP Option.isSome

/-- The key that the next entry takes. -/
def nextKey (s : Slab α) : Nat := s.free.headD s.slots.length

def insert (s : Slab α) (a : α) : Slab α :=
  match h : s.free with
  | [] =>
    { slots := s.slots ++ [some a]
      mem_free_iff k := by
        have := s.mem_free_iff k
        simp only [h, List.not_mem_nil, false_iff] at this
        simp only [List.not_mem_nil, List.getElem?_append, false_iff]
        split
        · exact this
        · rcases hk : k - s.slots.length with _ | n <;> simp }
  | k :: rest =>
    { slots := s.slots.set k (some a)
      free := rest
      mem_free_iff j := by
        have mem := s.mem_free_iff j
        have nodup := s.nodup_free
        simp only [h, List.mem_cons, List.nodup_cons] at mem nodup
        rw [List.getElem?_set]
        by_cases hj : k = j
        · subst hj
          simp only [if_true, nodup.1, false_iff]
          split <;> simp
        · simpa [hj, Ne.symm hj, eq_comm] using mem
      nodup_free := by
        have := s.nodup_free
        rw [h] at this
        exact (List.nodup_cons.1 this).2 }

/-- Replaces an entry. -/
def set (s : Slab α) (k : Nat) (a : α) : Slab α :=
  if h : (s.get? k).isSome then
    { s with
      slots := s.slots.set k (some a)
      mem_free_iff j := by
        rw [List.getElem?_set, s.mem_free_iff]
        split
        · next hk =>
          subst hk
          have : s.slots[k]? ≠ some none := by
            intro hn
            simp [get?, hn] at h
          simp only [this, false_iff]
          split <;> simp
        · rfl }
  else s

/-- Removes an entry, if there is one. -/
def remove (s : Slab α) (k : Nat) : Slab α :=
  if h : (s.get? k).isSome then
    { slots := s.slots.set k none
      free := k :: s.free
      mem_free_iff j := by
        have found : k < s.slots.length := by
          rcases Nat.lt_or_ge k s.slots.length with hk | hk
          · exact hk
          · simp [get?, List.getElem?_eq_none hk] at h
        rw [List.getElem?_set, List.mem_cons, s.mem_free_iff]
        by_cases hk : k = j
        · subst hk
          simp [found]
        · simp [hk, Ne.symm hk, eq_comm]
      nodup_free := by
        refine List.nodup_cons.2 ⟨fun hk => ?_, s.nodup_free⟩
        rw [s.mem_free_iff] at hk
        simp [get?, hk] at h }
  else s

/-- Removes the entries at these keys that have the property, in order. -/
def removeIf (s : Slab α) (p : α → Bool) (keys : List Nat) : Slab α :=
  keys.foldl (fun s k => if (s.get? k).any p then s.remove k else s) s

/-- Removes the entries that have the property, in the order of their keys. -/
def removeAll (s : Slab α) (p : α → Bool) : Slab α := s.removeIf p (List.range s.slots.length)

/-! ## The view -/

@[simp] theorem get?_empty (k : Nat) : (empty : Slab α).get? k = none := by simp [empty, get?]

/-- A new entry takes a key that has none. -/
@[simp] theorem get?_nextKey (s : Slab α) : s.get? s.nextKey = none := by
  unfold nextKey get?
  rcases h : s.free with _ | ⟨k, rest⟩
  · simp
  · have := (s.mem_free_iff k).1 (by simp [h])
    simp [this]

theorem get?_insert (s : Slab α) (a : α) (j : Nat) :
    (s.insert a).get? j = if j = s.nextKey then some a else s.get? j := by
  unfold insert nextKey get?
  split
  · next h =>
    simp only [h, List.headD_nil, List.getElem?_append]
    rcases Nat.lt_trichotomy j s.slots.length with hj | hj | hj
    · simp [hj, Nat.ne_of_lt hj]
    · simp [hj]
    · have : ¬ j < s.slots.length := by omega
      simp only [this, if_false, Nat.ne_of_gt hj, List.getElem?_eq_none (Nat.le_of_lt hj)]
      rcases hd : j - s.slots.length with _ | n
      · omega
      · simp
  · next k rest h =>
    have free := (s.mem_free_iff k).1 (by simp [h])
    have : k < s.slots.length := by
      rcases Nat.lt_or_ge k s.slots.length with hk | hk
      · exact hk
      · simp [List.getElem?_eq_none hk] at free
    simp only [h, List.headD_cons, List.getElem?_set]
    by_cases hj : j = k
    · subst hj
      simp [this]
    · simp [hj, Ne.symm hj]

@[simp] theorem get?_insert_self (s : Slab α) (a : α) : (s.insert a).get? s.nextKey = some a := by
  simp [get?_insert]

theorem get?_set (s : Slab α) (k : Nat) (a : α) (j : Nat) :
    (s.set k a).get? j = if j = k then (s.get? k).map fun _ => a else s.get? j := by
  unfold set
  split
  · next h =>
    obtain ⟨b, hb⟩ := Option.isSome_iff_exists.1 h
    have found : k < s.slots.length := by
      rcases Nat.lt_or_ge k s.slots.length with hk | hk
      · exact hk
      · simp [get?, List.getElem?_eq_none hk] at h
    simp only [hb, Option.map_some]
    unfold get?
    by_cases hj : j = k
    · subst hj
      simp [found]
    · simp [hj, Ne.symm hj]
  · next h =>
    rw [Option.not_isSome_iff_eq_none] at h
    by_cases hj : j = k
    · subst hj
      simp [h]
    · simp [hj]

theorem get?_remove (s : Slab α) (k j : Nat) :
    (s.remove k).get? j = if j = k then none else s.get? j := by
  unfold remove
  split
  · next h =>
    unfold get?
    by_cases hj : j = k
    · subst hj
      simp only [List.getElem?_set, if_true]
      split <;> simp
    · simp [hj, Ne.symm hj]
  · next h =>
    rw [Option.not_isSome_iff_eq_none] at h
    by_cases hj : j = k
    · subst hj
      simp [h]
    · simp [hj]

theorem get?_removeIf (s : Slab α) (p : α → Bool) (keys : List Nat) (j : Nat) :
    (s.removeIf p keys).get? j = if j ∈ keys then (s.get? j).filter (! p ·) else s.get? j := by
  induction keys generalizing s with
  | nil => simp [removeIf]
  | cons k keys ih =>
    have : s.removeIf p (k :: keys) =
        (if (s.get? k).any p then s.remove k else s).removeIf p keys := rfl
    rw [this, ih]
    by_cases hj : j = k
    · subst hj
      cases ha : s.get? j with
      | none => simp [ha]
      | some a =>
        cases hp : p a with
        | true => simp [hp, get?_remove, Option.filter]
        | false => simp [ha, hp, Option.filter]
    · have : (if (s.get? k).any p then s.remove k else s).get? j = s.get? j := by
        split <;> simp [hj, get?_remove]
      simp [hj, this]

theorem get?_removeAll (s : Slab α) (p : α → Bool) (j : Nat) :
    (s.removeAll p).get? j = (s.get? j).filter (! p ·) := by
  rw [removeAll, get?_removeIf]
  split
  · rfl
  · next h =>
    have : s.slots[j]? = none := List.getElem?_eq_none (by simpa using h)
    simp [get?, this]

/-! ## The number of entries -/

@[simp] theorem size_empty : (empty : Slab α).size = 0 := by simp [empty, size]

@[simp] theorem size_insert (s : Slab α) (a : α) : (s.insert a).size = s.size + 1 := by
  unfold insert size
  split
  · simp
  · next k rest h =>
    have free := (s.mem_free_iff k).1 (by simp [h])
    obtain ⟨hk, hn⟩ := List.getElem?_eq_some_iff.1 free
    simp [List.countP_set hk, hn]

theorem size_set (s : Slab α) (k : Nat) (a : α) : (s.set k a).size = s.size := by
  unfold set
  split
  · next h =>
    obtain ⟨b, hb⟩ := Option.isSome_iff_exists.1 h
    obtain ⟨hk, hs⟩ := List.getElem?_eq_some_iff.1 (Option.join_eq_some_iff.1 hb)
    have : 0 < s.slots.countP Option.isSome :=
      List.countP_pos_iff.2 ⟨some b, hs ▸ List.getElem_mem hk, rfl⟩
    simp only [size, List.countP_set hk, hs, Option.isSome_some, if_true]
    omega
  · rfl

theorem size_remove (s : Slab α) (k : Nat) :
    (s.remove k).size + (s.get? k).isSome.toNat = s.size := by
  unfold remove
  split
  · next h =>
    obtain ⟨b, hb⟩ := Option.isSome_iff_exists.1 h
    obtain ⟨hk, hs⟩ := List.getElem?_eq_some_iff.1 (Option.join_eq_some_iff.1 hb)
    have : 0 < s.slots.countP Option.isSome :=
      List.countP_pos_iff.2 ⟨some b, hs ▸ List.getElem_mem hk, rfl⟩
    simp only [size, List.countP_set hk, hs, hb, Option.isSome_some, Option.isSome_none, if_true,
      Bool.toNat_true]
    simp
    omega
  · next h => simp [h]

theorem size_remove_le (s : Slab α) (k : Nat) : (s.remove k).size ≤ s.size := by
  have := s.size_remove k
  omega

theorem size_removeIf_le (s : Slab α) (p : α → Bool) (keys : List Nat) :
    (s.removeIf p keys).size ≤ s.size := by
  induction keys generalizing s with
  | nil => exact Nat.le_refl _
  | cons k keys ih =>
    refine Nat.le_trans (ih (if (s.get? k).any p then s.remove k else s)) ?_
    split
    · exact s.size_remove_le k
    · exact Nat.le_refl _

theorem size_removeAll_le (s : Slab α) (p : α → Bool) : (s.removeAll p).size ≤ s.size :=
  s.size_removeIf_le p _

-- Keys that have entries are no more than there are entries.
theorem length_le_size {keys : List Nat} (s : Slab α) (hnodup : keys.Nodup)
    (hkeys : ∀ k ∈ keys, (s.get? k).isSome) : keys.length ≤ s.size := by
  induction keys generalizing s with
  | nil => exact Nat.zero_le _
  | cons k keys ih =>
    rw [List.nodup_cons] at hnodup
    have hsize := s.size_remove k
    rw [hkeys k List.mem_cons_self, Bool.toNat_true] at hsize
    have hothers : ∀ j ∈ keys, ((s.remove k).get? j).isSome := by
      intro j hj
      have hne : j ≠ k := fun heq => hnodup.1 (heq ▸ hj)
      rw [get?_remove, if_neg hne]
      exact hkeys j (List.mem_cons_of_mem _ hj)
    have hlength := ih (s.remove k) hnodup.2 hothers
    rw [List.length_cons]
    omega

end Slab

end LineFrame
