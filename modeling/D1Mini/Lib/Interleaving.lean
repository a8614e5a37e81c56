/-! Merges of two lists: `Interleaving as bs cs` says that `cs` consists of `as` and `bs`, each in
its own order. -/

inductive Interleaving : List α → List α → List α → Prop
  | nil : Interleaving [] [] []
  | left : Interleaving as bs cs → Interleaving (a :: as) bs (a :: cs)
  | right : Interleaving as bs cs → Interleaving as (b :: bs) (b :: cs)

namespace Interleaving

theorem append (H : Interleaving as bs cs) (H' : Interleaving as' bs' cs') :
    Interleaving (as ++ as') (bs ++ bs') (cs ++ cs') := by
  induction H with
  | nil => exact H'
  | left _ ih => exact .left ih
  | right _ ih => exact .right ih

theorem length_eq (H : Interleaving as bs cs) : cs.length = as.length + bs.length := by
  induction H with
  | nil => rfl
  | left _ ih | right _ ih => simp only [List.length_cons, ih]; omega

theorem mem_iff (H : Interleaving as bs cs) : c ∈ cs ↔ c ∈ as ∨ c ∈ bs := by
  induction H with
  | nil => simp
  | left _ ih | right _ ih => simp only [List.mem_cons, ih]; grind

theorem map (f : α → β) (H : Interleaving as bs cs) :
    Interleaving (as.map f) (bs.map f) (cs.map f) := by
  induction H with
  | nil => exact .nil
  | left _ ih => exact .left ih
  | right _ ih => exact .right ih

/-- A list is a merge of the elements that satisfy `p` and of those that satisfy `q`, when each
element satisfies exactly one of the two. -/
theorem of_filter {p q : α → Bool} {cs : List α} (h : ∀ c ∈ cs, q c = !p c) :
    Interleaving (cs.filter p) (cs.filter q) cs := by
  induction cs with
  | nil => exact .nil
  | cons c cs ih =>
    have ih := ih fun c hc => h c (List.mem_cons_of_mem _ hc)
    have hq := h c List.mem_cons_self
    cases hp : p c with
    | true => simpa [hp, hq] using ih.left
    | false => simpa [hp, hq] using ih.right

end Interleaving
