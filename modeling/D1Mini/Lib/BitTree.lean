import Mathlib.Data.Bool.Basic
import Mathlib.Data.Finset.Sort
import Mathlib.Data.List.Lex
import Mathlib.Order.Bounds.Basic

/-! Words of `n` bits as the leaves of a binary tree, and the walk that goes from one leaf to the
next: as before up to the last fork where it went down, up at this fork, and down from there on. -/

namespace BitTree

/-- What follows `b`. -/
def strip : Bool → List Bool → Option (List Bool)
  | _, [] => none
  | b, c :: cs => if c = b then some cs else none

/-- What is left of the words that start with `b`. -/
def branch (b : Bool) (ds : List (List Bool)) : List (List Bool) := ds.filterMap (strip b)

/-- The position of the last fork at which a word goes down. -/
def pending : List Bool → List (List Bool) → Option Nat
  | [], _ => none
  | b :: bs, ds =>
    match pending bs (branch b ds) with
    | some k => some (k + 1)
    | none => if b = false ∧ branch true ds ≠ [] then some 0 else none

/-- The way at a fork: before the junction that of the last walk, up at it, and then down. -/
def turn : Option Nat → Bool → Bool
  | some (_ + 1), b => b
  | some 0, _ => true
  | none, _ => false

def approach : Option Nat → Option Nat
  | some (k + 1) => some k
  | _ => none

/-- The way on, where only a fork is a choice. -/
def choose (junction : Option Nat) (b : Bool) (ds : List (List Bool)) : Bool :=
  if branch true ds = [] then false
  else if branch false ds = [] then true
  else turn junction b

def walk : Nat → Option Nat → List Bool → List (List Bool) → List Bool
  | 0, _, _, _ => []
  | n + 1, junction, prev, ds =>
    let b := choose junction (prev.headD false) ds
    b :: walk n (approach junction) prev.tail (branch b ds)

def Uniform (n : Nat) (ds : List (List Bool)) : Prop := ∀ as ∈ ds, as.length = n

/-- What follows the bits of a path. -/
def stripAll : List Bool → List Bool → Option (List Bool)
  | [], as => some as
  | b :: bs, as => (strip b as).bind (stripAll bs)

/-- What is left of the words that start with a path. -/
def behind (path : List Bool) (ds : List (List Bool)) : List (List Bool) :=
  ds.filterMap (stripAll path)

/-- A list of the elements of a set, each of them once and in order. -/
structure Enumerates [LinearOrder α] (s : Set α) (l : List α) : Prop where
  sorted : l.Pairwise (· < ·)
  mem_iff : ∀ a, a ∈ l ↔ a ∈ s

variable {n k : Nat} {a b : Bool} {as bs cs prev path : List Bool} {ds : List (List Bool)}
  {junction : Option Nat}

theorem strip_eq_some : strip b as = some bs ↔ as = b :: bs := by
  cases as with
  | nil => simp [strip]
  | cons a as => simp [strip]

theorem mem_branch : as ∈ branch b ds ↔ b :: as ∈ ds := by
  simp only [branch, List.mem_filterMap, strip_eq_some, exists_eq_right]

theorem branch_ne_nil (h : b :: as ∈ ds) : branch b ds ≠ [] :=
  List.ne_nil_of_mem (mem_branch.mpr h)

theorem Uniform.branch (H : Uniform (n + 1) ds) : Uniform n (branch b ds) := by
  intro as has
  exact Nat.succ.inj (H _ (mem_branch.mp has))

theorem Uniform.exists_cons (H : Uniform (n + 1) ds) (has : as ∈ ds) :
    ∃ b bs, as = b :: bs ∧ bs ∈ BitTree.branch b ds := by
  cases as with
  | nil => cases H _ has
  | cons b bs => exact ⟨b, bs, rfl, mem_branch.mpr has⟩

/-- What is pending seen from the next bit on. -/
theorem pending_elim {x : α} {f : Nat → α} : (pending (b :: bs) ds).elim x f =
    (pending bs (branch b ds)).elim (if b = false ∧ branch true ds ≠ [] then f 0 else x)
      fun k => f (k + 1) := by
  rw [pending]
  cases pending bs (branch b ds) with
  | some k => rfl
  | none =>
    by_cases h : b = false ∧ branch true ds ≠ []
    · rw [if_pos h, Option.elim_none, if_pos h]
      rfl
    · rw [if_neg h, Option.elim_none, if_neg h]
      rfl

theorem isNone_pending : (pending (b :: bs) ds).isNone =
    ((pending bs (branch b ds)).isNone && !decide (b = false ∧ branch true ds ≠ [])) := by
  rw [pending]
  cases pending bs (branch b ds) with
  | some k => rfl
  | none =>
    by_cases h : b = false ∧ branch true ds ≠ []
    · rw [if_pos h, decide_eq_true h]
      rfl
    · rw [if_neg h, decide_eq_false h]
      rfl

theorem pending_eq_zero (h : pending bs ds = some 0) :
    bs.headD false = false ∧ branch true ds ≠ [] := by
  cases bs with
  | nil => cases h
  | cons b bs =>
    rw [pending] at h
    split at h
    · cases h
    · split at h
      · assumption
      · cases h

theorem pending_eq_succ (h : pending bs ds = some (k + 1)) :
    pending bs.tail (branch (bs.headD false) ds) = some k := by
  cases bs with
  | nil => cases h
  | cons b bs =>
    rw [pending] at h
    split at h
    · next hk =>
      cases h
      exact hk
    · split at h <;> cases h

theorem choose_succ (h : branch b ds ≠ []) : choose (some (k + 1)) b ds = b := by
  cases b with
  | false =>
    rw [choose, if_neg h, turn]
    exact ite_self _
  | true =>
    rw [choose, if_neg h, turn]
    exact ite_self _

/-- On the way down, up only where there is no other way. -/
theorem branch_false_of_choose (h : choose none b ds = true) : branch false ds = [] := by
  rw [choose, turn] at h
  split at h
  · cases h
  · split at h
    · assumption
    · cases h

/-- A walk goes where there are words. -/
theorem branch_choose_ne_nil (H : Uniform (n + 1) ds) (hds : ds ≠ []) :
    branch (choose junction b ds) ds ≠ [] := by
  obtain ⟨as, has⟩ := List.exists_mem_of_ne_nil _ hds
  obtain ⟨c, cs, rfl, hcs⟩ := H.exists_cons has
  have hc := List.ne_nil_of_mem hcs
  rw [choose]
  split
  · next ht =>
    cases c with
    | false => exact hc
    | true => exact absurd ht hc
  · next ht =>
    split
    · exact ht
    · next hf =>
      cases turn junction b with
      | false => exact hf
      | true => exact ht

theorem walk_mem (H : Uniform n ds) (hds : ds ≠ []) : walk n junction prev ds ∈ ds := by
  induction n generalizing junction prev ds with
  | zero =>
    obtain ⟨as, has⟩ := List.exists_mem_of_ne_nil _ hds
    rw [walk, ← List.eq_nil_of_length_eq_zero (H as has)]
    exact has
  | succ n ih =>
    rw [walk, ← mem_branch]
    exact ih H.branch (branch_choose_ne_nil H hds)

/-! ### From a word to the next one -/

theorem lt_cons_iff : a :: as < b :: bs ↔ a = false ∧ b = true ∨ a = b ∧ as < bs := by
  rw [List.cons_lt_cons_iff, Bool.lt_iff]

theorem cons_lt_cons (h : as < bs) : a :: as < a :: bs := lt_cons_iff.mpr (.inr ⟨rfl, h⟩)

theorem false_lt_true : false :: as < true :: bs := lt_cons_iff.mpr (.inl ⟨rfl, rfl⟩)

/-- A walk down ends at the least word. -/
theorem walk_isLeast (prev : List Bool) (H : Uniform n ds) (hds : ds ≠ []) :
    IsLeast {as | as ∈ ds} (walk n none prev ds) := by
  refine ⟨walk_mem H hds, ?_⟩
  induction n generalizing prev ds with
  | zero =>
    intro as has
    rw [List.eq_nil_of_length_eq_zero (H as has)]
    rfl
  | succ n ih =>
    intro as has
    obtain ⟨c, cs, rfl, hcs⟩ := H.exists_cons has
    have hrest : branch (choose none (prev.headD false) ds) ds ≠ [] := branch_choose_ne_nil H hds
    rw [walk]
    cases hb : choose none (prev.headD false) ds with
    | false =>
      rw [hb] at hrest
      cases c with
      | false => exact List.cons_le_cons _ (ih _ H.branch hrest hcs)
      | true => exact false_lt_true.le
    | true =>
      rw [hb] at hrest
      have hf : branch false ds = [] := branch_false_of_choose hb
      cases c with
      | false => rw [hf] at hcs; cases hcs
      | true => exact List.cons_le_cons _ (ih _ H.branch hrest hcs)

/-- Where nothing is pending, the word is the greatest. -/
theorem not_lt_of_pending (H : Uniform n ds) (has : as.length = n) (h : pending as ds = none)
    (hcs : cs ∈ ds) : ¬as < cs := by
  induction n generalizing as cs ds with
  | zero =>
    rw [List.eq_nil_of_length_eq_zero has, List.eq_nil_of_length_eq_zero (H cs hcs)]
    exact lt_irrefl _
  | succ n ih =>
    obtain ⟨c, cs, rfl, hcs'⟩ := H.exists_cons hcs
    cases as with
    | nil => cases has
    | cons b bs =>
      rw [pending] at h
      split at h
      · cases h
      · next hnone =>
        rw [lt_cons_iff]
        rintro (⟨rfl, rfl⟩ | ⟨rfl, hlt⟩)
        · rw [if_pos ⟨rfl, List.ne_nil_of_mem hcs'⟩] at h
          cases h
        · exact ih H.branch (Nat.succ.inj has) hnone hcs' hlt

/-- Up at what is pending, the walk ends at the next word. -/
theorem walk_pending_isLeast (H : Uniform n ds) (hprev : prev ∈ ds) (h : pending prev ds = some k) :
    IsLeast {as | as ∈ ds ∧ prev < as} (walk n (some k) prev ds) := by
  induction n generalizing prev ds k with
  | zero =>
    rw [List.eq_nil_of_length_eq_zero (H prev hprev)] at h
    cases h
  | succ n ih =>
    obtain ⟨b, bs, rfl, hbs⟩ := H.exists_cons hprev
    have hb := List.ne_nil_of_mem hbs
    rw [pending] at h
    split at h
    · next k' hk' =>
      cases h
      have hdir : choose (some (k' + 1)) ((b :: bs).headD false) ds = b := choose_succ hb
      obtain ⟨⟨hmem, hlt⟩, hleast⟩ := ih H.branch hbs hk'
      rw [walk, hdir]
      refine ⟨⟨mem_branch.mp hmem, cons_lt_cons hlt⟩, ?_⟩
      rintro as ⟨has, hltas⟩
      obtain ⟨c, cs, rfl, hcs⟩ := H.exists_cons has
      rcases lt_cons_iff.mp hltas with ⟨rfl, rfl⟩ | ⟨rfl, hltcs⟩
      · exact false_lt_true.le
      · exact List.cons_le_cons _ (hleast ⟨hcs, hltcs⟩)
    · next hnone =>
      split at h
      · next hfork =>
        obtain ⟨rfl, ht⟩ := hfork
        cases h
        have hdir : choose (some 0) ((false :: bs).headD false) ds = true := by
          rw [choose, if_neg ht, if_neg hb, turn]
        obtain ⟨hmem, hleast⟩ := walk_isLeast bs H.branch ht
        rw [walk, hdir]
        refine ⟨⟨mem_branch.mp hmem, false_lt_true⟩, ?_⟩
        rintro as ⟨has, hltas⟩
        obtain ⟨c, cs, rfl, hcs⟩ := H.exists_cons has
        rcases lt_cons_iff.mp hltas with ⟨-, rfl⟩ | ⟨rfl, hltcs⟩
        · exact List.cons_le_cons _ (hleast hcs)
        · exact absurd hltcs (not_lt_of_pending H.branch (H.branch _ hbs) hnone hcs)
      · cases h

/-! ### Behind a path -/

theorem stripAll_eq_some : stripAll path as = some bs ↔ as = path ++ bs := by
  induction path generalizing as with
  | nil => simp [stripAll]
  | cons b path ih => simp [stripAll, Option.bind_eq_some_iff, strip_eq_some, ih]

theorem stripAll_concat : stripAll (path ++ [b]) as = (stripAll path as).bind (strip b) := by
  induction path generalizing as with
  | nil => exact Option.bind_fun_some _
  | cons c path ih =>
    rw [List.cons_append, stripAll, stripAll, Option.bind_assoc]
    congr 1
    funext cs
    exact ih

theorem stripAll_of_lt (h : path.length < as.length) :
    stripAll path as = none ∨ ∃ b bs, stripAll path as = some (b :: bs) := by
  cases hbs : stripAll path as with
  | none => exact .inl rfl
  | some bs =>
    have has := stripAll_eq_some.mp hbs
    cases bs with
    | nil => rw [has, List.append_nil] at h; exact absurd h (Nat.lt_irrefl _)
    | cons b bs => exact .inr ⟨b, bs, rfl⟩

theorem stripAll_of_length_eq (h : as.length = path.length) :
    stripAll path as = if as = path then some [] else none := by
  split
  · next heq => rw [stripAll_eq_some, heq, List.append_nil]
  · next hne =>
    cases hbs : stripAll path as with
    | none => rfl
    | some bs =>
      have has := stripAll_eq_some.mp hbs
      have hnil : bs = [] := by
        apply List.eq_nil_of_length_eq_zero
        rw [has, List.length_append] at h
        omega
      rw [hnil, List.append_nil] at has
      exact absurd has hne

theorem branch_behind : branch b (behind path ds) = behind (path ++ [b]) ds := by
  rw [branch, behind, behind, List.filterMap_filterMap]
  congr 1
  funext as
  exact stripAll_concat.symm

theorem behind_nil : behind [] ds = ds := List.filterMap_some

theorem mem_behind : as ∈ behind path ds ↔ path ++ as ∈ ds := by
  simp only [behind, List.mem_filterMap, stripAll_eq_some, exists_eq_right]

theorem Uniform.behind (H : Uniform (path.length + n) ds) : Uniform n (behind path ds) := by
  intro as has
  have hlen := H _ (mem_behind.mp has)
  rw [List.length_append] at hlen
  exact Nat.add_left_cancel hlen

theorem behind_cons : behind (b :: path) ds = behind path (branch b ds) := by
  rw [behind, behind, branch, List.filterMap_filterMap]
  rfl

/-- A walk that goes up far away starts as the last one, where there are words with this start. -/
theorem walk_start (prev : List Bool) (hds : behind path ds ≠ []) (hk : path.length ≤ k) :
    ∃ bs, walk (path.length + n) (some k) (path ++ prev) ds = path ++ bs := by
  induction path generalizing k ds with
  | nil => exact ⟨_, rfl⟩
  | cons c path ih =>
    obtain ⟨k, rfl⟩ := Nat.exists_eq_add_one.mpr (Nat.zero_lt_of_lt hk)
    rw [behind_cons] at hds
    have hc : branch c ds ≠ [] := by
      intro hnil
      rw [hnil] at hds
      exact hds rfl
    obtain ⟨bs, hbs⟩ := ih hds (Nat.le_of_succ_le_succ hk)
    refine ⟨bs, ?_⟩
    have hchoose : choose (some (k + 1)) ((c :: path ++ prev).headD false) ds = c := choose_succ hc
    rw [List.length_cons, Nat.add_right_comm, walk, hchoose]
    exact congrArg (c :: ·) hbs

/-! ### Every word in order -/

section
variable [LinearOrder α] {s : Set α} {x : α} {l : List α}

theorem exists_enumerates (xs : List α) : ∃ l, Enumerates {x | x ∈ xs} l := by
  refine ⟨xs.toFinset.sort, (Finset.sortedLT_sort _).pairwise, fun x => ?_⟩
  rw [Finset.mem_sort, List.mem_toFinset]
  rfl

theorem Enumerates.isLeast (H : Enumerates s (x :: l)) : IsLeast s x := by
  refine ⟨(H.mem_iff x).mp List.mem_cons_self, ?_⟩
  intro y hy
  rcases List.mem_cons.mp ((H.mem_iff y).mpr hy) with rfl | hl
  · exact le_rfl
  · exact (List.rel_of_pairwise_cons H.sorted hl).le

theorem Enumerates.tail (H : Enumerates s (x :: l)) : Enumerates {y | y ∈ s ∧ x < y} l := by
  refine ⟨(List.pairwise_cons.mp H.sorted).2, ?_⟩
  intro y
  have hx := List.pairwise_cons.mp H.sorted
  constructor
  · intro hy
    exact ⟨(H.mem_iff y).mp (List.mem_cons_of_mem _ hy), hx.1 y hy⟩
  · rintro ⟨hy, hlt⟩
    rcases List.mem_cons.mp ((H.mem_iff y).mpr hy) with rfl | hl
    · exact absurd hlt (lt_irrefl _)
    · exact hl

theorem Enumerates.eq_empty (H : Enumerates s []) (hx : x ∈ s) : False :=
  List.not_mem_nil ((H.mem_iff x).mpr hx)

theorem Enumerates.tail_lt {p : α} (H : Enumerates {y | y ∈ s ∧ p < y} (x :: l)) :
    Enumerates {y | y ∈ s ∧ x < y} l := by
  refine ⟨H.tail.sorted, fun y => (H.tail.mem_iff y).trans ?_⟩
  exact ⟨fun h => ⟨h.1.1, h.2⟩, fun h => ⟨⟨h.1, H.isLeast.1.2.trans h.2⟩, h.2⟩⟩

end

/-! ### The walks along an enumeration -/

variable {l : List (List Bool)}

theorem Enumerates.walk_first (E : Enumerates {as | as ∈ ds} (as :: l)) (H : Uniform n ds)
    (prev : List Bool) : walk n none prev ds = as :=
  (walk_isLeast prev H (List.ne_nil_of_mem E.isLeast.1)).unique E.isLeast

theorem Enumerates.walk_next (E : Enumerates {as | as ∈ ds ∧ prev < as} (as :: l))
    (H : Uniform n ds) (hprev : prev ∈ ds) :
    ∃ k, pending prev ds = some k ∧ walk n (some k) prev ds = as := by
  cases hk : pending prev ds with
  | none => exact absurd E.isLeast.1.2 (not_lt_of_pending H (H _ hprev) hk E.isLeast.1.1)
  | some k => exact ⟨k, rfl, (walk_pending_isLeast H hprev hk).unique E.isLeast⟩

theorem Enumerates.pending_eq_none (E : Enumerates {as | as ∈ ds ∧ prev < as} [])
    (H : Uniform n ds) (hprev : prev ∈ ds) : pending prev ds = none := by
  cases hk : pending prev ds with
  | none => rfl
  | some k => exact (E.eq_empty (walk_pending_isLeast H hprev hk).1).elim

end BitTree
