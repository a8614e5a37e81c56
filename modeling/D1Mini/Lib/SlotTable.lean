import Mathlib.Data.List.Basic
import Mathlib.Data.List.Nodup

/-! A table with a fixed number of slots, each of which is free or holds a value. A value is put
into the first free slot, unless it is there already; it is taken out where it is found first. Such
a table stands for a set that has a bound on its size. -/

namespace SlotTable

variable {α : Type u} {t : List (Option α)} {a b : α}

/-- The values in the slots, in order. -/
def members (t : List (Option α)) : List α := t.filterMap id

@[simp] theorem mem_members : a ∈ members t ↔ some a ∈ t := by
  simp [members, List.mem_filterMap]

theorem length_members_le : (members t).length ≤ t.length := List.length_filterMap_le _ _

theorem members_append {t' : List (Option α)} : members (t ++ t') = members t ++ members t' :=
  List.filterMap_append

/-- Without a free slot there are as many values as slots. -/
theorem length_members (h : none ∉ t) : (members t).length = t.length := by
  induction t with
  | nil => rfl
  | cons slot t ih =>
    rw [List.mem_cons, not_or] at h
    cases slot with
    | none => exact absurd rfl h.1
    | some a => exact congrArg (· + 1) (ih h.2)

/-- There is a free slot if the values are fewer than the slots. -/
theorem none_mem_iff : none ∈ t ↔ (members t).length < t.length := by
  constructor
  · intro h
    obtain ⟨l, r, rfl⟩ := List.append_of_mem h
    have hl := length_members_le (t := l)
    have hr := length_members_le (t := r)
    have hnone : members (none :: r) = members r := rfl
    rw [members_append, hnone, List.length_append, List.length_append, List.length_cons]
    omega
  · intro h
    by_contra hnone
    rw [length_members hnone] at h
    exact Nat.lt_irrefl _ h

variable [DecidableEq α]

def put (t : List (Option α)) (a : α) : List (Option α) := t.set (t.idxOf none) (some a)

def take (t : List (Option α)) (a : α) : List (Option α) := t.set (t.idxOf (some a)) none

@[simp] theorem length_put : (put t a).length = t.length := List.length_set

@[simp] theorem length_take : (take t a).length = t.length := List.length_set

/-- A slot that holds `x` divides the table at its first place. -/
theorem exists_split {x : Option α} (h : x ∈ t) :
    ∃ l r, t = l ++ x :: r ∧ x ∉ l ∧ ∀ y, t.set (t.idxOf x) y = l ++ y :: r := by
  induction t with
  | nil => cases h
  | cons slot t ih =>
    rcases Decidable.em (slot = x) with rfl | hne
    · refine ⟨[], t, rfl, List.not_mem_nil, fun y => ?_⟩
      rw [List.idxOf_cons_self]
      rfl
    · have hmem : x ∈ t := List.mem_of_ne_of_mem (Ne.symm hne) h
      obtain ⟨l, r, rfl, hl, hset⟩ := ih hmem
      refine ⟨slot :: l, r, rfl, ?_, fun y => ?_⟩
      · rw [List.mem_cons, not_or]
        exact ⟨Ne.symm hne, hl⟩
      · rw [List.idxOf_cons_ne _ hne, List.set_cons_succ, hset]
        rfl

theorem members_put (h : none ∈ t) : (members (put t a)).Perm (a :: members t) := by
  obtain ⟨l, r, rfl, -, hset⟩ := exists_split h
  rw [put, hset, members_append, members_append]
  exact List.perm_middle

theorem members_take (h : some a ∈ t) : (members t).Perm (a :: members (take t a)) := by
  obtain ⟨l, r, rfl, -, hset⟩ := exists_split h
  rw [take, hset, members_append, members_append]
  exact List.perm_middle

theorem nodup_put (h : none ∈ t) (ha : some a ∉ t) (hd : (members t).Nodup) :
    (members (put t a)).Nodup := by
  rw [(members_put h).nodup_iff, List.nodup_cons, mem_members]
  exact ⟨ha, hd⟩

theorem nodup_take (h : some a ∈ t) (hd : (members t).Nodup) : (members (take t a)).Nodup :=
  (List.nodup_cons.mp ((members_take h).nodup_iff.mp hd)).2

theorem mem_put (h : none ∈ t) : some b ∈ put t a ↔ b = a ∨ some b ∈ t := by
  rw [← mem_members, (members_put h).mem_iff, List.mem_cons, mem_members]

/-- What is taken out is gone, since no value is there twice. -/
theorem mem_take (h : some a ∈ t) (hd : (members t).Nodup) :
    some b ∈ take t a ↔ b ≠ a ∧ some b ∈ t := by
  have hperm := members_take h
  have hnodup := List.nodup_cons.mp (hperm.nodup_iff.mp hd)
  rw [mem_members] at hnodup
  have hmem : some b ∈ t ↔ b = a ∨ some b ∈ take t a := by
    rw [← mem_members, hperm.mem_iff, List.mem_cons, mem_members]
  rw [hmem]
  constructor
  · intro hb
    refine ⟨?_, .inr hb⟩
    rintro rfl
    exact hnodup.1 hb
  · rintro ⟨hne, heq | hb⟩
    · exact absurd heq hne
    · exact hb

end SlotTable
