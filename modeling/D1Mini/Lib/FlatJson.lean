import D1Mini.Lib.Decimal
import D1Mini.Lib.EventMachine

/-! JSON objects whose members are integers and strings without escapes: how they are written, and a
reader that takes one character after the other. `parse_render` is the round trip; `brace_mem` says
that nothing is read from a text whose closing brace is missing. -/

namespace FlatJson
open EventMachine Decimal

inductive Value
  | int (n : Int)
  | str (cs : List Char)
deriving DecidableEq, Repr

abbrev Object := List (List Char × Value)

def Object.get? (obj : Object) (key : List Char) : Option Value := obj.lookup key

def quoted (cs : List Char) : List Char := '"' :: (cs ++ ['"'])

def Value.render : Value → List Char
  | .int n => renderInt n
  | .str cs => quoted cs

def member (m : List Char × Value) : List Char := quoted m.1 ++ ':' :: m.2.render

def render (obj : Object) : List Char :=
  '\x7b' :: (List.intercalate [',', ' '] (obj.map member) ++ ['\x7d'])

/-! ### The reader -/

inductive State
  | start
  | first                                -- after the opening brace: a key or the closing brace
  | next (obj : Object)                  -- after a comma: a key
  | key (obj : Object) (k : List Char)
  | colon (obj : Object) (k : List Char)
  | value (obj : Object) (k : List Char)
  | int (obj : Object) (k digits : List Char)
  | str (obj : Object) (k cs : List Char)
  | after (obj : Object)                 -- after a value: a comma or the closing brace
  | done (obj : Object)
  | fail
deriving DecidableEq, Repr

def isSpace (c : Char) : Bool := c = ' ' || c = '\t' || c = '\n' || c = '\r'

def stepAfter (obj : Object) (c : Char) : State :=
  if isSpace c then .after obj else if c = ',' then .next obj else if c = '\x7d' then .done obj
  else .fail

def step : State → Char → State
  | .start, c => if isSpace c then .start else if c = '\x7b' then .first else .fail
  | .first, c =>
    if isSpace c then .first else if c = '"' then .key [] [] else if c = '\x7d' then .done []
    else .fail
  | .next obj, c => if isSpace c then .next obj else if c = '"' then .key obj [] else .fail
  | .key obj k, c =>
    if c = '"' then .colon obj k else if c = '\\' then .fail else .key obj (k ++ [c])
  | .colon obj k, c => if isSpace c then .colon obj k else if c = ':' then .value obj k else .fail
  | .value obj k, c =>
    if isSpace c then .value obj k else if c = '"' then .str obj k []
    else if c = '-' || c.isDigit then .int obj k [c] else .fail
  | .int obj k digits, c =>
    if c.isDigit then .int obj k (digits ++ [c])
    else match parseInt digits with
      | some n => stepAfter (obj ++ [(k, .int n)]) c
      | none => .fail
  | .str obj k cs, c =>
    if c = '"' then .after (obj ++ [(k, .str cs)]) else if c = '\\' then .fail
    else .str obj k (cs ++ [c])
  | .after obj, c => stepAfter obj c
  | .done obj, c => if isSpace c then .done obj else .fail
  | .fail, _ => .fail

def parse (cs : List Char) : Option Object :=
  match run step .start cs with
  | .done obj => some obj
  | _ => none

/-! ### Round trip -/

/-- Text that needs no escape. -/
def Plain (cs : List Char) : Prop := ∀ c ∈ cs, c ≠ '"' ∧ c ≠ '\\'

instance : Decidable (Plain cs) :=
  decidable_of_iff (cs.all fun c => c ≠ '"' ∧ c ≠ '\\') (by simp [Plain])

def Value.Plain : Value → Prop
  | .int _ => True
  | .str cs => FlatJson.Plain cs

variable {obj : Object} {k cs ds rest : List Char} {c : Char} {v : Value} {n : Int}

theorem run_key (h : Plain cs) :
    run step (.key obj k) (cs ++ '"' :: rest) = run step (.colon obj (k ++ cs)) rest := by
  induction cs generalizing k with
  | nil => simp [step]
  | cons c cs ih =>
    obtain ⟨⟨hq, hb⟩, h⟩ := List.forall_mem_cons.mp h
    simp only [List.cons_append, run_cons, step, if_neg hq, if_neg hb]
    rw [ih h, List.append_assoc, List.singleton_append]

theorem run_str (h : Plain cs) :
    run step (.str obj k ds) (cs ++ '"' :: rest) =
      run step (.after (obj ++ [(k, .str (ds ++ cs))])) rest := by
  induction cs generalizing ds with
  | nil => simp [step]
  | cons c cs ih =>
    obtain ⟨⟨hq, hb⟩, h⟩ := List.forall_mem_cons.mp h
    simp only [List.cons_append, run_cons, step, if_neg hq, if_neg hb]
    rw [ih h, List.append_assoc, List.singleton_append]

theorem run_digits (h : ∀ c ∈ cs, c.isDigit) :
    run step (.int obj k ds) (cs ++ rest) = run step (.int obj k (ds ++ cs)) rest := by
  induction cs generalizing ds with
  | nil => simp
  | cons c cs ih =>
    obtain ⟨hc, h⟩ := List.forall_mem_cons.mp h
    simp only [List.cons_append, run_cons, step, if_pos hc]
    rw [ih h, List.append_assoc, List.singleton_append]

/-- An integer has one sign or digit, and digits from there on. -/
theorem renderInt_cons : ∃ c ds, renderInt n = c :: ds ∧ (c = '-' || c.isDigit) = true ∧
    ∀ c ∈ ds, c.isDigit := by
  obtain ⟨d, ds, h⟩ := List.exists_cons_of_ne_nil (Nat.toDigits_ne_nil (n := n.natAbs) (b := 10))
  have hd : ∀ c ∈ d :: ds, c.isDigit := fun c hc => isDigit_of_mem_toDigits (h ▸ hc)
  rw [renderInt, signed, h]
  split
  · exact ⟨_, _, rfl, rfl, hd⟩
  · refine ⟨_, _, rfl, ?_, fun c hc => hd c (List.mem_cons_of_mem _ hc)⟩
    simp [hd d List.mem_cons_self]

theorem not_space_of_sign (h : (c = '-' || c.isDigit) = true) : isSpace c = false ∧ c ≠ '"' := by
  constructor
  · by_contra hs
    simp only [isSpace, Bool.not_eq_false, Bool.or_eq_true, decide_eq_true_eq] at hs
    rcases hs with ((rfl | rfl) | rfl) | rfl <;> revert h <;> decide
  · rintro rfl
    revert h
    decide

/-- A value is read up to the first character after it. -/
theorem run_value (h : v.Plain) (hc : c.isDigit = false) :
    run step (.value obj k) (v.render ++ c :: rest) =
      run step (stepAfter (obj ++ [(k, v)]) c) rest := by
  cases v with
  | str cs =>
    have hq : step (.value obj k) '"' = .str obj k [] := rfl
    rw [Value.render, quoted, List.cons_append, List.append_assoc, run_cons, hq,
      List.singleton_append, run_str h]
    rfl
  | int n =>
    obtain ⟨s, ds, hn, hs, hds⟩ := renderInt_cons (n := n)
    obtain ⟨hsp, hq⟩ := not_space_of_sign hs
    have hfirst : step (.value obj k) s = .int obj k [s] := by
      simp only [step, hsp, if_neg hq, hs, if_true, Bool.false_eq_true, if_false]
    have hlast : step (.int obj k (renderInt n)) c = stepAfter (obj ++ [(k, .int n)]) c := by
      simp only [step, hc, Bool.false_eq_true, if_false, parseInt_renderInt]
    rw [Value.render, hn, List.cons_append, run_cons, hfirst, run_digits hds, List.singleton_append,
      ← hn, run_cons, hlast]

theorem run_member (hk : Plain k) (hv : v.Plain) (hc : c.isDigit = false) :
    run step (.key obj []) (k ++ '"' :: ':' :: v.render ++ c :: rest) =
      run step (stepAfter (obj ++ [(k, v)]) c) rest := by
  have hcolon : step (.colon obj k) ':' = .value obj k := rfl
  rw [List.append_assoc, List.cons_append, List.cons_append, run_key hk, List.nil_append, run_cons,
    hcolon, run_value hv hc]

theorem member_cons {m : List Char × Value} :
    member m = '"' :: (m.1 ++ '"' :: ':' :: m.2.render) := by
  simp [member, quoted]

/-- The members of an object, read from the first quote of the first key on. -/
theorem run_members {m : List Char × Value} {ms : Object}
    (h : ∀ m' ∈ m :: ms, Plain m'.1 ∧ m'.2.Plain) :
    run step (.next obj) (List.intercalate [',', ' '] ((m :: ms).map member) ++ ['\x7d']) =
      .done (obj ++ m :: ms) := by
  have hquote (obj : Object) : step (.next obj) '"' = .key obj [] := rfl
  induction ms generalizing m obj with
  | nil =>
    obtain ⟨⟨hk, hv⟩, -⟩ := List.forall_mem_cons.mp h
    rw [List.map_singleton, List.intercalate_singleton, member_cons, List.cons_append, run_cons,
      hquote, run_member hk hv rfl]
    rfl
  | cons m' ms ih =>
    obtain ⟨⟨hk, hv⟩, h⟩ := List.forall_mem_cons.mp h
    rw [List.map_cons, List.map_cons, List.intercalate_cons_cons, member_cons, List.append_assoc,
      List.append_assoc, List.cons_append, run_cons, hquote, List.cons_append,
      run_member hk hv rfl, ← List.map_cons]
    have hspace : step (stepAfter (obj ++ [m]) ',') ' ' = .next (obj ++ [m]) := rfl
    rw [List.cons_append, List.nil_append, run_cons, hspace, ih h, List.append_assoc,
      List.singleton_append]

theorem members_quote (m : List Char × Value) (ms : Object) :
    ∃ cs, List.intercalate [',', ' '] ((m :: ms).map member) = '"' :: cs := by
  cases ms with
  | nil => exact ⟨_, by rw [List.map_singleton, List.intercalate_singleton, member_cons]⟩
  | cons m' ms =>
    rw [List.map_cons, List.map_cons, List.intercalate_cons_cons, member_cons]
    exact ⟨_, rfl⟩

theorem parse_render (h : ∀ m ∈ obj, Plain m.1 ∧ m.2.Plain) : parse (render obj) = some obj := by
  cases obj with
  | nil => rfl
  | cons m ms =>
    have hfirst : run step .start (render (m :: ms)) =
        run step (.next []) (List.intercalate [',', ' '] ((m :: ms).map member) ++ ['\x7d']) := by
      obtain ⟨cs, hcs⟩ := members_quote m ms
      rw [render, hcs]
      rfl
    rw [parse, hfirst, run_members h, List.nil_append]

/-! ### Cut texts -/

def State.Unfinished (s : State) : Prop := ∀ obj, s ≠ .done obj

theorem stepAfter_unfinished (h : c ≠ '\x7d') : (stepAfter obj c).Unfinished := by
  intro obj'
  unfold stepAfter
  rw [if_neg h]
  split
  · intro h
    cases h
  · split <;> (intro h; cases h)

/-- Only a closing brace finishes an object. -/
theorem step_unfinished {s : State} (hs : s.Unfinished) (h : c ≠ '\x7d') :
    (step s c).Unfinished := by
  intro obj
  unfold step
  split
  case h_7 =>
    split
    · intro h
      cases h
    · split
      · exact stepAfter_unfinished h _
      · intro h
        cases h
  case h_9 => exact stepAfter_unfinished h _
  case h_10 => exact absurd rfl (hs _)
  all_goals (repeat' split) <;> first | contradiction | (intro h; cases h)

theorem brace_mem (h : parse cs = some obj) : '\x7d' ∈ cs := by
  by_contra hmem
  have hstart : State.start.Unfinished := by
    intro obj h
    cases h
  have hend : (run step .start cs).Unfinished := by
    refine run_invariant_along (fun s c => step_unfinished) hstart (along_of_mem fun _ c hc => ?_)
    rintro rfl
    exact hmem hc
  unfold parse at h
  split at h
  case h_1 he => exact hend _ he
  case h_2 => cases h

end FlatJson
