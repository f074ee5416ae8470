/-
# Records laid over by assignments

A record is known by its fields; an assignment sets one of them.  After any list of assignments
a field holds the value of the last one that was its own, or what it held before (`get_overlay`).

The assignments come from items that are read one at a time, each under a context that the items
before it have built up.  A reader that stops at the first item it cannot take succeeds exactly if
it can take every item in its place (`readAll_iff`), and else it stops at the first it cannot
(`readAll_error`).
-/
import Mathlib.Data.List.Basic
import Mathlib.Data.List.Induction
import Mathlib.Data.Option.Basic
import Mathlib.Tactic.SplitIfs

/-! ## Fields -/

/-- The fields of a record type: reading one gives what was last written to it, and writing it
leaves the others alone. -/
structure Fields (ι : Type) [DecidableEq ι] (V : ι → Type) (R : Type) where
  get : ∀ i, R → V i
  set : ∀ i, V i → R → R
  get_set : ∀ i x r, get i (set i x r) = x
  get_set_ne : ∀ i j x r, j ≠ i → get j (set i x r) = get j r
  /-- There are no others. -/
  ext : ∀ r s, (∀ i, get i r = get i s) → r = s

namespace Fields

variable {ι : Type} [DecidableEq ι] {V : ι → Type} {R : Type} (L : Fields ι V R)

/-- Set a field to a value. -/
def assign (r : R) (a : Σ i, V i) : R := L.set a.1 a.2 r

/-- The record with the assignments laid over it, in order. -/
def overlay (r : R) (as : List (Σ i, V i)) : R := as.foldl L.assign r

/-- The value an assignment gives to a field. -/
def valueOf (i : ι) (a : Σ i, V i) : Option (V i) :=
  if h : a.1 = i then some (h ▸ a.2) else none

/-- The value of the last assignment to a field. -/
def lastValue (i : ι) (as : List (Σ i, V i)) : Option (V i) := (as.filterMap (valueOf i)).getLast?

/-- An assignment to the field. -/
theorem valueOf_self (i : ι) (x : V i) : valueOf i ⟨i, x⟩ = some x := dif_pos rfl

/-- An assignment to another. -/
theorem valueOf_ne {i j : ι} (h : j ≠ i) (x : V j) : valueOf i ⟨j, x⟩ = none := dif_neg h

/-- A field after an assignment. -/
theorem get_assign (i : ι) (r : R) (a : Σ i, V i) :
    L.get i (L.assign r a) = (valueOf i a).getD (L.get i r) := by
  obtain ⟨j, x⟩ := a
  by_cases h : j = i
  · subst h
    rw [valueOf_self, assign, L.get_set, Option.getD_some]
  · rw [valueOf_ne h, assign, L.get_set_ne _ _ _ _ (Ne.symm h), Option.getD_none]

/-- Two lists of assignments. -/
theorem overlay_append (r : R) (as bs : List (Σ i, V i)) :
    L.overlay r (as ++ bs) = L.overlay (L.overlay r as) bs := List.foldl_append

/-- The later list decides. -/
theorem lastValue_append (i : ι) (as bs : List (Σ i, V i)) :
    lastValue i (as ++ bs) = (lastValue i bs).or (lastValue i as) := by
  rw [lastValue, List.filterMap_append, List.getLast?_append]
  rfl

/-- A single assignment. -/
theorem lastValue_singleton (i : ι) (a : Σ i, V i) : lastValue i [a] = valueOf i a := by
  rw [lastValue, List.filterMap_cons]
  cases valueOf i a <;> rfl

/-- The last value was assigned. -/
theorem mem_of_lastValue {i : ι} {as : List (Σ i, V i)} {x : V i} (h : lastValue i as = some x) :
    ⟨i, x⟩ ∈ as := by
  obtain ⟨⟨j, y⟩, hmem, hvalue⟩ := List.mem_filterMap.1 (List.mem_of_getLast? h)
  by_cases hj : j = i
  · subst hj
    rw [valueOf_self] at hvalue
    cases hvalue
    exact hmem
  · rw [valueOf_ne hj] at hvalue
    cases hvalue

/-- **Last one wins.** -/
theorem get_overlay (i : ι) (r : R) (as : List (Σ i, V i)) :
    L.get i (L.overlay r as) = (lastValue i as).getD (L.get i r) := by
  -- from the end: only the last assignment can hide what the ones before it give
  induction as using List.reverseRecOn with
  | nil => rfl
  | append_singleton as a ih =>
      rw [overlay_append, lastValue_append, lastValue_singleton]
      show L.get i (L.assign (L.overlay r as) a) = _
      rw [get_assign, ih]
      cases valueOf i a <;> rfl

/-- A record is laid over as these values say. -/
theorem eq_overlay_iff {r s : R} {as : List (Σ i, V i)} :
    s = L.overlay r as ↔ ∀ i, L.get i s = (lastValue i as).getD (L.get i r) := by
  constructor
  · rintro rfl i
    exact L.get_overlay i r as
  · intro h
    refine L.ext s _ fun i => ?_
    rw [h, L.get_overlay]

end Fields

/-! ## Reading items -/

section ReadAll

variable {S A E : Type} (step : ℕ → S → A → Except E S)

/-- Read the items one at a time, counting from `n`; stop at the first that is not taken. -/
def readAll (n : ℕ) (s : S) : List A → Except E S
  | [] => .ok s
  | a :: as =>
    match step n s a with
    | .ok s' => readAll (n + 1) s' as
    | .error e => .error e

/-- Every item is taken in its place: `next` says what the items before it leave, and `Takes`
whether it can be taken there. -/
def TakesAll (Takes : S → A → Prop) (next : S → A → S) (s : S) (as : List A) : Prop :=
  ∀ pre a post, as = pre ++ a :: post → Takes (pre.foldl next s) a

variable {step} {Takes : S → A → Prop} {next : S → A → S}

theorem takesAll_nil (s : S) : TakesAll Takes next s [] := by
  intro pre a post h
  exact absurd h.symm (List.append_ne_nil_of_right_ne_nil _ (List.cons_ne_nil _ _))

/-- The first, and the others behind it. -/
theorem takesAll_cons {s : S} {a : A} {as : List A} :
    TakesAll Takes next s (a :: as) ↔ Takes s a ∧ TakesAll Takes next (next s a) as := by
  constructor
  · intro h
    refine ⟨h [] a as rfl, fun pre b post hsplit => ?_⟩
    exact h (a :: pre) b post (by rw [hsplit, List.cons_append])
  · rintro ⟨ha, has⟩ pre b post hsplit
    cases pre with
    | nil =>
        obtain ⟨rfl, -⟩ := List.cons.inj hsplit
        exact ha
    | cons c pre =>
        obtain ⟨rfl, hrest⟩ := List.cons.inj hsplit
        exact has pre b post hrest

/-- Two lists of inputs. -/
theorem takesAll_append {s : S} {as bs : List A} :
    TakesAll Takes next s (as ++ bs) ↔
      TakesAll Takes next s as ∧ TakesAll Takes next (as.foldl next s) bs := by
  induction as generalizing s with
  | nil => exact (and_iff_right (takesAll_nil s)).symm
  | cons a as ih =>
      rw [List.cons_append, takesAll_cons, takesAll_cons, ih, List.foldl_cons, and_assoc]

variable (hok : ∀ n s a, Takes s a → step n s a = .ok (next s a))
  (hbad : ∀ n s a s', step n s a = .ok s' → Takes s a)

include hok in
/-- The loop reads inputs that are all taken. -/
theorem readAll_of_takesAll {s : S} {as : List A} (h : TakesAll Takes next s as) (n : ℕ) :
    readAll step n s as = .ok (as.foldl next s) := by
  induction as generalizing s n with
  | nil => rfl
  | cons a as ih =>
      obtain ⟨ha, has⟩ := takesAll_cons.1 h
      rw [readAll, hok n s a ha]
      exact ih has (n + 1)

include hok hbad

/-- **The accepted lists.** -/
theorem readAll_iff {n : ℕ} {s s' : S} {as : List A} :
    readAll step n s as = .ok s' ↔ TakesAll Takes next s as ∧ s' = as.foldl next s := by
  constructor
  · intro h
    -- what is left is that every item was taken: the result is then `readAll_of_takesAll`
    suffices htakes : TakesAll Takes next s as by
      rw [readAll_of_takesAll hok htakes] at h
      exact ⟨htakes, (Except.ok.inj h).symm⟩
    induction as generalizing s n with
    | nil => exact takesAll_nil s
    | cons a as ih =>
        cases hstep : step n s a with
        | error e =>
            rw [readAll, hstep] at h
            cases h
        | ok s₁ =>
            have ha := hbad n s a s₁ hstep
            rw [readAll, hok n s a ha] at h
            exact takesAll_cons.2 ⟨ha, ih h⟩
  · rintro ⟨htakes, rfl⟩
    exact readAll_of_takesAll hok htakes n

/-- **The first item that is not taken** is the one the error is about. -/
theorem readAll_error {n : ℕ} {s : S} {as : List A} {e : E} (h : readAll step n s as = .error e) :
    ∃ pre a post, as = pre ++ a :: post ∧ TakesAll Takes next s pre ∧
      ¬ Takes (pre.foldl next s) a ∧ step (n + pre.length) (pre.foldl next s) a = .error e := by
  induction as generalizing s n with
  | nil => cases h
  | cons a as ih =>
      cases hstep : step n s a with
      | error e' =>
          -- the reader stops here, with nothing before the item
          rw [readAll, hstep] at h
          cases h
          refine ⟨[], a, as, rfl, takesAll_nil s, fun ha => ?_, hstep⟩
          rw [List.foldl_nil, hok n s a ha] at *
          cases hstep
      | ok s₁ =>
          have ha := hbad n s a s₁ hstep
          rw [readAll, hok n s a ha] at h
          obtain ⟨pre, b, post, rfl, hpre, hb, herr⟩ := ih h
          refine ⟨a :: pre, b, post, rfl, takesAll_cons.2 ⟨ha, hpre⟩, hb, ?_⟩
          rw [List.length_cons, Nat.add_comm pre.length 1, ← Nat.add_assoc]
          exact herr

end ReadAll
