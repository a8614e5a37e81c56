/-! Deterministic machines driven by a finite list of events: the run, the conditions that hold
along it, the outputs it emits, and the rules that lift a fact about one step to every run. -/

namespace EventMachine

variable {σ : Type u} {ε : Type v}

/-- The state reached from `s` by taking the events in order. -/
def run (step : σ → ε → σ) : σ → List ε → σ
  | s, [] => s
  | s, e :: es => run step (step s e) es

/-- `G` holds at every step of the run: of the state before the step and of its event. -/
def Along (step : σ → ε → σ) (G : σ → ε → Prop) : σ → List ε → Prop
  | _, [] => True
  | s, e :: es => G s e ∧ Along step G (step s e) es

instance instDecidableAlong {step : σ → ε → σ} {G : σ → ε → Prop} [∀ s e, Decidable (G s e)] :
    ∀ s es, Decidable (Along step G s es)
  | _, [] => .isTrue trivial
  | s, e :: es =>
    have : Decidable (Along step G (step s e) es) := instDecidableAlong _ es
    inferInstanceAs (Decidable (G s e ∧ Along step G (step s e) es))

/-- The outputs of a run, in order; `out s e` is what the step taken at `s` on `e` emits. -/
def trace (step : σ → ε → σ) (out : σ → ε → List α) : σ → List ε → List α
  | _, [] => []
  | s, e :: es => out s e ++ trace step out (step s e) es

section
variable {step : σ → ε → σ} {s : σ} {es fs : List ε}

@[simp] theorem run_nil : run step s [] = s := rfl

@[simp] theorem run_cons : run step s (e :: es) = run step (step s e) es := rfl

theorem run_append : run step s (es ++ fs) = run step (run step s es) fs := by
  induction es generalizing s with
  | nil => rfl
  | cons e es ih => exact ih

/-- When some events set the state and the others leave it alone, the last of them decides. -/
theorem run_last {q : ε → Bool} {v : ε → σ} :
    run (fun s e => if q e then v e else s) s es = (es.filter q).getLast?.elim s v := by
  induction es generalizing s with
  | nil => rfl
  | cons e es ih =>
    rw [run_cons, ih, List.filter_cons]
    split
    case isTrue =>
      rw [List.getLast?_cons]
      cases (es.filter q).getLast? <;> rfl
    case isFalse => rfl

theorem along_of_mem {G : σ → ε → Prop} (h : ∀ s, ∀ e ∈ es, G s e) : Along step G s es := by
  induction es generalizing s with
  | nil => trivial
  | cons e es ih =>
    refine ⟨h s e List.mem_cons_self, ih fun s e' he => ?_⟩
    exact h s e' (List.mem_cons_of_mem _ he)

theorem Along.mono {G H : σ → ε → Prop} (h : ∀ s e, G s e → H s e)
    (H' : Along step G s es) : Along step H s es := by
  induction es generalizing s with
  | nil => trivial
  | cons e es ih => exact ⟨h _ _ H'.1, ih H'.2⟩

theorem Along.and {G H : σ → ε → Prop} (h : Along step G s es) (h' : Along step H s es) :
    Along step (fun s e => G s e ∧ H s e) s es := by
  induction es generalizing s with
  | nil => trivial
  | cons e es ih => exact ⟨⟨h.1, h'.1⟩, ih h.2 h'.2⟩

@[simp] theorem trace_cons {out : σ → ε → List α} :
    trace step out s (e :: es) = out s e ++ trace step out (step s e) es := rfl

end

/-! ### Repeating an event -/

/-- Repeating the event `e` leads from `s` to `t`. -/
def Leads (step : σ → ε → σ) (e : ε) (s t : σ) : Prop := ∃ n, run step s (List.replicate n e) = t

namespace Leads
variable {step : σ → ε → σ} {e : ε} {s t u : σ}

theorem refl : Leads step e s s := ⟨0, rfl⟩

theorem trans (h : Leads step e s t) (h' : Leads step e t u) : Leads step e s u := by
  obtain ⟨m, rfl⟩ := h
  obtain ⟨n, rfl⟩ := h'
  exact ⟨m + n, by rw [← List.replicate_append_replicate, run_append]⟩

theorem head (h : Leads step e (step s e) t) : Leads step e s t := by
  obtain ⟨n, rfl⟩ := h
  exact ⟨n + 1, by rw [List.replicate_succ, run_cons]⟩

end Leads

/-! ### Rules -/

section
variable {step : σ → ε → σ} {I : σ → Prop}

/-- The invariant rule. -/
theorem run_invariant (hstep : ∀ s e, I s → I (step s e)) (h : I s) : I (run step s es) := by
  induction es generalizing s with
  | nil => exact h
  | cons e es ih => exact ih (hstep s e h)

/-- The invariant rule for runs whose steps all meet a guard. -/
theorem run_invariant_along {G : σ → ε → Prop} (hstep : ∀ s e, I s → G s e → I (step s e))
    (h : I s) (H : Along step G s es) : I (run step s es) := by
  induction es generalizing s with
  | nil => exact h
  | cons e es ih => exact ih (hstep s e h H.1) H.2

/-- The backward rule: when `Q` after a step forces `Q` before it and `G` of the step, `Q` at
the end of a run forces `G` along all of it. -/
theorem along_of_final {G : σ → ε → Prop} {Q : σ → Prop} (hstep : ∀ s e, I s → I (step s e))
    (hback : ∀ s e, I s → Q (step s e) → Q s ∧ G s e) (h : I s) (hQ : Q (run step s es)) :
    Q s ∧ Along step G s es := by
  induction es generalizing s with
  | nil => exact ⟨hQ, trivial⟩
  | cons e es ih =>
    obtain ⟨hq, hes⟩ := ih (hstep s e h) hQ
    obtain ⟨hq, hg⟩ := hback s e h hq
    exact ⟨hq, hg, hes⟩

/-- When `Q` after a step says the same as `Q` before it and `G` of the step, `Q` at the end of a
run says that `G` holds along it. -/
theorem final_iff_along {G : σ → ε → Prop} {Q : σ → Prop} (hstep : ∀ s e, I s → I (step s e))
    (hQ : ∀ s e, I s → (Q (step s e) ↔ Q s ∧ G s e)) (h : I s) :
    Q (run step s es) ↔ Q s ∧ Along step G s es := by
  refine ⟨along_of_final hstep (fun s e h => (hQ s e h).mp) h, fun ⟨hq, hes⟩ => ?_⟩
  have := run_invariant_along (I := fun s => I s ∧ Q s)
    (fun s e h hg => ⟨hstep s e h.1, (hQ s e h.1).mpr ⟨h.2, hg⟩⟩) ⟨h, hq⟩ hes
  exact this.2

/-- Refinement: when each step of the machine moves the abstraction `f` by the abstract events it
emits, a run moves it by the events the run emits. -/
theorem run_refines {astep : τ → α → τ} {out : σ → ε → List α} {f : σ → τ}
    (hstep : ∀ s e, I s → I (step s e))
    (hsim : ∀ s e, I s → f (step s e) = run astep (f s) (out s e)) (h : I s) :
    f (run step s es) = run astep (f s) (trace step out s es) := by
  induction es generalizing s with
  | nil => rfl
  | cons e es ih => rw [run_cons, ih (hstep s e h), hsim s e h, trace_cons, run_append]

end

end EventMachine
