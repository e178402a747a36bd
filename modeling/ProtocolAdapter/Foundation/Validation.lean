/-
This file collects the rules for computations that stop at their first failed
check: when a guard lets the computation pass, when a sequence of steps succeeds,
and what a successful loop over a list preserves.
-/

namespace Foundation

variable {ε α β γ : Type}

/-- Fails with `error` when `bad` holds, and passes otherwise. -/
def rejectIf (bad : Prop) [Decidable bad] (error : ε) : Except ε Unit :=
  if bad then .error error else .ok ()

@[simp] theorem rejectIf_eq_ok {bad : Prop} [Decidable bad] {error : ε} {done : Unit} :
    rejectIf bad error = .ok done ↔ ¬bad := by
  unfold rejectIf
  split <;> simp_all

@[simp] theorem rejectIf_eq_error {bad : Prop} [Decidable bad] {error failure : ε} :
    rejectIf bad error = .error failure ↔ bad ∧ error = failure := by
  unfold rejectIf
  split <;> simp_all

@[simp] theorem bind_eq_ok {first : Except ε α} {next : α → Except ε β} {result : β} :
    (first >>= next) = .ok result ↔ ∃ value, first = .ok value ∧ next value = .ok result := by
  cases first with
  | error failure => simp [bind, Except.bind]
  | ok value => simp [bind, Except.bind]

theorem bind_eq_error {first : Except ε α} {next : α → Except ε β} {failure : ε} :
    (first >>= next) = .error failure ↔
      first = .error failure ∨ ∃ value, first = .ok value ∧ next value = .error failure := by
  cases first with
  | error reason => simp [bind, Except.bind]
  | ok value => simp [bind, Except.bind]

theorem bind_mapped (first : Except ε α) (next : α → Except ε β) (change : β → γ) :
    (first >>= next).map change = first >>= fun value => (next value).map change := by
  cases first <;> rfl

/-- A guard passes exactly when its condition fails and the rest succeeds. -/
@[simp] theorem rejectIf_bind_eq_ok {bad : Prop} [Decidable bad] {error : ε}
    {next : Unit → Except ε β} {result : β} :
    (rejectIf bad error >>= next) = .ok result ↔ ¬bad ∧ next () = .ok result := by
  unfold rejectIf
  split <;> simp_all [bind, Except.bind]

@[simp] theorem pure_eq_ok {value result : α} :
    (pure value : Except ε α) = .ok result ↔ value = result := by
  simp [pure, Except.pure]

/-- Fails when `bad` holds, in a computation that reports no error. -/
def failIf (bad : Prop) [Decidable bad] : Option Unit :=
  if bad then none else some ()

@[simp] theorem failIf_eq_some {bad : Prop} [Decidable bad] {done : Unit} :
    failIf bad = some done ↔ ¬bad := by
  unfold failIf
  split <;> simp_all

theorem failIf_of_not {bad : Prop} [Decidable bad] (passes : ¬bad) : failIf bad = some () :=
  if_neg passes

theorem failIf_of {bad : Prop} [Decidable bad] (fails : bad) : failIf bad = none := if_pos fails

@[simp] theorem ok_bind (value : α) (next : α → Except ε β) :
    ((.ok value : Except ε α) >>= next) = next value := rfl

/-! ### Loops -/

/-- A property that every step of a loop preserves holds of its result. -/
theorem foldlM_ok_preserves {step : β → α → Except ε β} (motive : β → Prop)
    (preserved : ∀ state item next, motive state → step state item = .ok next → motive next) :
    ∀ (items : List α) (start result : β), motive start →
      items.foldlM step start = .ok result → motive result := by
  intro items
  induction items with
  | nil =>
    intro start result holds run
    simp only [List.foldlM_nil, pure_eq_ok] at run
    exact run ▸ holds
  | cons item rest inductionHypothesis =>
    intro start result holds run
    simp only [List.foldlM_cons, bind_eq_ok] at run
    obtain ⟨next, stepped, run⟩ := run
    exact inductionHypothesis next result (preserved start item next holds stepped) run

/-- A loop that succeeded also succeeded up to each of its items, and at that item. -/
theorem foldlM_ok_take {step : β → α → Except ε β} :
    ∀ {items : List α} {start result : β}, items.foldlM step start = .ok result →
      ∀ index item, items[index]? = some item → ∃ before after,
        (items.take index).foldlM step start = .ok before ∧ step before item = .ok after ∧
          (items.take (index + 1)).foldlM step start = .ok after := by
  intro items
  induction items with
  | nil => intro start result _ index item found; simp at found
  | cons head rest inductionHypothesis =>
    intro start result run index item found
    simp only [List.foldlM_cons, bind_eq_ok] at run
    obtain ⟨next, stepped, run⟩ := run
    cases index with
    | zero =>
      obtain rfl : head = item := by simpa using found
      exact ⟨start, next, rfl, stepped, by simp [stepped, pure, Except.pure]⟩
    | succ index =>
      obtain ⟨before, after, beforeRun, itemRun, afterRun⟩ :=
        inductionHypothesis run index item (by simpa using found)
      exact ⟨before, after, by simpa [stepped] using beforeRun, itemRun,
        by simpa [stepped] using afterRun⟩

/-- A loop whose successful steps compute a function computes the fold of that function. -/
theorem foldlM_ok_eq_foldl {step : β → α → Except ε β} (pureStep : β → α → β)
    (computes : ∀ state item next, step state item = .ok next → next = pureStep state item) :
    ∀ {items : List α} {start result : β}, items.foldlM step start = .ok result →
      result = items.foldl pureStep start := by
  intro items
  induction items with
  | nil =>
    intro start result run
    simpa using (pure_eq_ok.mp run).symm
  | cons head rest inductionHypothesis =>
    intro start result run
    simp only [List.foldlM_cons, bind_eq_ok] at run
    obtain ⟨next, stepped, run⟩ := run
    rw [List.foldl_cons, ← computes start head next stepped]
    exact inductionHypothesis run

end Foundation
