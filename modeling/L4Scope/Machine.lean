/-
# Deterministic machines and their runs

A machine reads inputs one at a time; every input moves the state and produces an
output.  This file holds the vocabulary of runs used by the whole development:

* `Machine.after` is the state a list of inputs leads to, `Machine.log` the list of
  steps taken on the way, each with the state it was taken in;
* `after_invariant` lifts a step invariant to runs, and `iff_forall_log` a condition that
  is necessary and sufficient at every step;
* `after_foldl_log` is the log rule: a component that accumulates what the steps
  report is a fold over the log;
* `forall₂_log_filter` compares a run with the run of a selection of its inputs;
* `map_log_eq` compares two runs on the same inputs;
* `simulates` compares the runs of two machines on inputs that translate into one another.
-/
import Mathlib.Data.List.Induction
import Mathlib.Data.List.Forall2

/-- From a state and an input, the next state and an output. -/
structure Machine (S I O : Type) where
  step : S → I → S × O

namespace Machine

variable {S I O : Type}

/-- One step of a run: the state it was taken in, its input and its output. -/
structure Entry (S I O : Type) where
  state : S
  input : I
  output : O

variable (M : Machine S I O)

/-- The state after a list of inputs. -/
def after (s : S) : List I → S
  | [] => s
  | i :: is => after (M.step s i).1 is

/-- The steps taken on a list of inputs. -/
def log (s : S) : List I → List (Entry S I O)
  | [] => []
  | i :: is => ⟨s, i, (M.step s i).2⟩ :: log (M.step s i).1 is

@[simp] theorem after_nil (s : S) : M.after s [] = s := rfl

@[simp] theorem after_cons (s : S) (i : I) (is : List I) :
    M.after s (i :: is) = M.after (M.step s i).1 is := rfl

@[simp] theorem log_nil (s : S) : M.log s [] = [] := rfl

@[simp] theorem log_cons (s : S) (i : I) (is : List I) :
    M.log s (i :: is) = ⟨s, i, (M.step s i).2⟩ :: M.log (M.step s i).1 is := rfl

/-- Two runs, one behind the other. -/
theorem after_append (s : S) (is js : List I) :
    M.after s (is ++ js) = M.after (M.after s is) js := by
  induction is generalizing s with
  | nil => rfl
  | cons i is ih => exact ih _

/-- Their logs. -/
theorem log_append (s : S) (is js : List I) :
    M.log s (is ++ js) = M.log s is ++ M.log (M.after s is) js := by
  induction is generalizing s with
  | nil => rfl
  | cons i is ih => simp [ih]

/-- One more step. -/
theorem after_concat (s : S) (is : List I) (i : I) :
    M.after s (is ++ [i]) = (M.step (M.after s is) i).1 := by
  rw [after_append]
  rfl

/-- One more entry. -/
theorem log_concat (s : S) (is : List I) (i : I) :
    M.log s (is ++ [i])
      = M.log s is ++ [⟨M.after s is, i, (M.step (M.after s is) i).2⟩] := by
  rw [log_append]
  rfl

/-- The steps of a run are its inputs, each taken in the state the earlier ones lead to. -/
theorem mem_log {s : S} {is : List I} {e : Entry S I O} :
    e ∈ M.log s is ↔ ∃ pre post, is = pre ++ e.input :: post ∧ e.state = M.after s pre ∧
      e.output = (M.step e.state e.input).2 := by
  induction is generalizing s with
  | nil => simp
  | cons i is ih =>
      rw [log_cons, List.mem_cons, ih]
      constructor
      · rintro (rfl | ⟨pre, post, rfl, hs, ho⟩)
        · exact ⟨[], is, rfl, rfl, rfl⟩
        · exact ⟨i :: pre, post, rfl, hs, ho⟩
      · rintro ⟨pre, post, his, hs, ho⟩
        obtain ⟨st, inp, out⟩ := e
        cases pre with
        | nil =>
            obtain ⟨rfl, rfl⟩ := List.cons.inj his
            left
            simp only [after_nil] at hs
            subst hs
            simpa using ho
        | cons j pre =>
            obtain ⟨rfl, rfl⟩ := List.cons.inj his
            exact Or.inr ⟨pre, post, rfl, hs, ho⟩

/-! ## The input that made a property true -/

/-- The last input of a log before which `P` was false and after which it is true. -/
def turnedOn (P : S → Bool) (log : List (Entry S I O)) : Option I :=
  ((log.filter fun e => !P e.state && P (M.step e.state e.input).1).getLast?).map Entry.input

/-- One more step turns the property on, or does not. -/
theorem turnedOn_concat (P : S → Bool) (log : List (Entry S I O)) (e : Entry S I O) :
    M.turnedOn P (log ++ [e])
      = if P e.state = false ∧ P (M.step e.state e.input).1 = true then some e.input
        else M.turnedOn P log := by
  rw [turnedOn, List.filter_append]
  by_cases h : P e.state = false ∧ P (M.step e.state e.input).1 = true
  · rw [if_pos h, List.filter_cons_of_pos (by simp [h]), List.filter_nil, List.getLast?_concat,
      Option.map_some]
  · rw [if_neg h, List.filter_cons_of_neg (by simpa using h), List.filter_nil, List.append_nil,
      turnedOn]

/-- A step before which `P` was true, or after which it is false, does not turn it on. -/
theorem turnedOn_concat_same {P : S → Bool} {log : List (Entry S I O)} {e : Entry S I O}
    (h : P (M.step e.state e.input).1 = true → P e.state = true) :
    M.turnedOn P (log ++ [e]) = M.turnedOn P log := by
  rw [turnedOn_concat, if_neg]
  rintro ⟨hoff, hon⟩
  rw [h hon] at hoff
  cases hoff

/-- The step that turns it on. -/
theorem turnedOn_concat_new {P : S → Bool} {log : List (Entry S I O)} {e : Entry S I O}
    (hoff : P e.state = false) (hon : P (M.step e.state e.input).1 = true) :
    M.turnedOn P (log ++ [e]) = some e.input := by
  rw [turnedOn_concat, if_pos ⟨hoff, hon⟩]

/-! ## Invariants -/

/-- A property that every step of the run preserves holds after the run. -/
theorem after_invariant {P : S → Prop} {s : S} {is : List I} (h0 : P s)
    (hstep : ∀ e ∈ M.log s is, P e.state → P (M.step e.state e.input).1) :
    P (M.after s is) := by
  induction is generalizing s with
  | nil => exact h0
  | cons i is ih =>
      rw [log_cons] at hstep
      exact ih (hstep _ List.mem_cons_self h0) fun e he =>
        hstep e (List.mem_cons_of_mem _ he)

/-- **Condition rule.**  If the empty run is good, and a run with one step more is good exactly
if it was before and the step meets a condition, then a run is good exactly if every step
of it meets the condition. -/
theorem iff_forall_log {P : List I → Prop} {C : S → I → Prop} {s : S} (hnil : P [])
    (hconcat : ∀ is i, P (is ++ [i]) ↔ P is ∧ C (M.after s is) i) (is : List I) :
    P is ↔ ∀ e ∈ M.log s is, C e.state e.input := by
  induction is using List.reverseRecOn with
  | nil => exact iff_of_true hnil (List.forall_mem_nil _)
  | append_singleton is i ih =>
      rw [hconcat, ih, log_concat, List.forall_mem_append, List.forall_mem_singleton]

/-! ## Projections -/

variable {T J : Type}

/-- **Log rule.**  A component that every step folds a visible record into is the fold
of the records of the log. -/
theorem after_foldl_log (π : S → T) (record : Entry S I O → Option J) (f : T → J → T)
    (hstep : ∀ s i, π (M.step s i).1
      = (record ⟨s, i, (M.step s i).2⟩).elim (π s) fun j => f (π s) j)
    (s : S) (is : List I) :
    π (M.after s is) = ((M.log s is).filterMap record).foldl f (π s) := by
  induction is generalizing s with
  | nil => rfl
  | cons i is ih =>
      have h0 := hstep s i
      cases hr : record ⟨s, i, (M.step s i).2⟩ with
      | none =>
          simp only [hr, Option.elim_none] at h0
          rw [after_cons, ih, h0, log_cons, List.filterMap_cons_none hr]
      | some j =>
          simp only [hr, Option.elim_some] at h0
          rw [after_cons, ih, h0, log_cons, List.filterMap_cons_some hr, List.foldl_cons]

/-! ## Running a selection of the inputs -/

/-- **Selection rule.**  Let `R` relate the states of a run to those of the run that
reads only the inputs satisfying `keep`: read inputs move both sides, the others only
the first.  Then the runs end in related states, and the steps taken on the kept inputs
match one by one. -/
theorem forall₂_log_filter {R : S → S → Prop} {E : Entry S I O → Entry S I O → Prop}
    (keep : I → Bool)
    (hkeep : ∀ s t i, R s t → keep i = true →
      R (M.step s i).1 (M.step t i).1 ∧ E ⟨s, i, (M.step s i).2⟩ ⟨t, i, (M.step t i).2⟩)
    (hskip : ∀ s t i, R s t → keep i = false → R (M.step s i).1 t)
    {s t : S} (h : R s t) (is : List I) :
    R (M.after s is) (M.after t (is.filter keep)) ∧
      List.Forall₂ E ((M.log s is).filter fun e => keep e.input) (M.log t (is.filter keep)) := by
  induction is generalizing s t with
  | nil => exact ⟨h, .nil⟩
  | cons i is ih =>
      cases hi : keep i with
      | true =>
          obtain ⟨hR, hE⟩ := hkeep s t i h hi
          obtain ⟨hend, hlog⟩ := ih hR
          simp only [log_cons, List.filter_cons, hi, if_true]
          exact ⟨hend, .cons hE hlog⟩
      | false =>
          simpa [hi] using ih (hskip s t i h hi)

/-! ## Two runs on the same inputs -/

/-- **Bisimulation rule.**  Let every input keep the states of two runs related and show
the same on both sides.  Then related states show the same along the whole run. -/
theorem map_log_eq {V : Type} {R : S → S → Prop} (shown : Entry S I O → V) {is : List I}
    (hstep : ∀ s t i, i ∈ is → R s t → R (M.step s i).1 (M.step t i).1 ∧
      shown ⟨s, i, (M.step s i).2⟩ = shown ⟨t, i, (M.step t i).2⟩)
    {s t : S} (h : R s t) : (M.log s is).map shown = (M.log t is).map shown := by
  induction is generalizing s t with
  | nil => rfl
  | cons i is ih =>
      obtain ⟨hR, hshown⟩ := hstep s t i List.mem_cons_self h
      have hrest := ih (fun s t j hj => hstep s t j (List.mem_cons_of_mem _ hj)) hR
      rw [log_cons, log_cons, List.map_cons, List.map_cons, hshown, hrest]

/-! ## Simulation -/

/-- **Simulation rule.**  Let every input and its translation keep the states of two machines
related and answer alike.  Then so do runs on a list of inputs and on its translation. -/
theorem simulates {S' I' O' V : Type} {N : Machine S' I' O'} {R : S → S' → Prop} (φ : I → I')
    (shown : O → V) (shown' : O' → V) {is : List I}
    (hstep : ∀ s t i, i ∈ is → R s t → R (M.step s i).1 (N.step t (φ i)).1 ∧
      shown' (N.step t (φ i)).2 = shown (M.step s i).2)
    {s : S} {t : S'} (h : R s t) :
    R (M.after s is) (N.after t (is.map φ)) ∧
      (N.log t (is.map φ)).map (fun e => shown' e.output)
        = (M.log s is).map fun e => shown e.output := by
  induction is generalizing s t with
  | nil => exact ⟨h, rfl⟩
  | cons i is ih =>
      obtain ⟨hR, hshown⟩ := hstep s t i List.mem_cons_self h
      obtain ⟨hend, hrest⟩ := ih (fun s t j hj => hstep s t j (List.mem_cons_of_mem _ hj)) hR
      refine ⟨hend, ?_⟩
      rw [List.map_cons, log_cons, log_cons, List.map_cons, List.map_cons, hshown, hrest]

end Machine
