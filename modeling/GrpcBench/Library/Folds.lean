import Mathlib.Data.List.Basic
import Mathlib.Data.List.Induction

/-!
# Runs as folds

A system that takes one action after another is a fold of its step function.  Five rules lift a fact
about one step to a fact about a run.

* `foldl_invariant`: what every step preserves holds at the end.
* `foldl_simulation`: two systems that stay related while they take corresponding steps.
* `foldl_projection`: a part of the state that only some of the actions touch is the fold of those
  actions alone.  Two runs with the same actions there agree there, however the other actions are
  interleaved (`filterMap_eq_of_filter_eq`).
* `foldl_outputs`: an invariant that mentions what the run has written so far.
* `foldlM_history`: an invariant that mentions the actions taken so far, for a step that is not
  always possible.
-/

namespace Folds

universe u v w x y

variable {S : Type u} {A : Type v} {T : Type w} {C : Type x} {O : Type y}

theorem foldl_invariant {step : S → A → S} {P : S → Prop} {as : List A}
    (h : ∀ s, ∀ a ∈ as, P s → P (step s a)) {s : S} (hs : P s) : P (as.foldl step s) := by
  induction as generalizing s with
  | nil => exact hs
  | cons a as ih =>
    exact ih (fun s b hb => h s b (List.mem_cons_of_mem a hb)) (h s a List.mem_cons_self hs)

theorem foldl_simulation {step : S → A → S} {step' : T → C → T} {f : A → C} {R : S → T → Prop}
    (h : ∀ s t a, R s t → R (step s a) (step' t (f a))) (as : List A) {s : S} {t : T}
    (hst : R s t) : R (as.foldl step s) ((as.map f).foldl step' t) := by
  induction as generalizing s t with
  | nil => exact hst
  | cons a as ih => exact ih (h s t a hst)

/-- **Projection.**  `call a` is what the action `a` asks of the part, if anything. -/
theorem foldl_projection {step : S → A → S} (part : S → T) {call : A → Option C}
    {act : T → C → T} (hsome : ∀ s a c, call a = some c → part (step s a) = act (part s) c)
    (hnone : ∀ s a, call a = none → part (step s a) = part s) (as : List A) (s : S) :
    part (as.foldl step s) = (as.filterMap call).foldl act (part s) := by
  induction as generalizing s with
  | nil => rfl
  | cons a as ih =>
    rw [List.foldl_cons, ih]
    rcases hc : call a with _ | c
    · rw [hnone s a hc, List.filterMap_cons_none hc]
    · rw [hsome s a c hc, List.filterMap_cons_some hc, List.foldl_cons]

theorem filterMap_eq_of_filter_eq {call : A → Option C} {p : A → Bool}
    (hp : ∀ a, p a = false → call a = none) {as as' : List A} (h : as.filter p = as'.filter p) :
    as.filterMap call = as'.filterMap call := by
  have hfilter : ∀ l : List A, l.filterMap call = (l.filter p).filterMap call := by
    intro l
    induction l with
    | nil => rfl
    | cons a l ih =>
      by_cases ha : p a = true
      · rw [List.filter_cons_of_pos ha, List.filterMap_cons, List.filterMap_cons, ih]
      · rw [List.filter_cons_of_neg ha, List.filterMap_cons_none (hp a (by simpa using ha)), ih]
  rw [hfilter as, hfilter as', h]

/-- What a run writes: what each of its steps writes, in order. -/
def outputs (step : S → A → S) (out : S → A → List O) (s : S) : List A → List O
  | [] => []
  | a :: as => out s a ++ outputs step out (step s a) as

theorem foldl_outputs {step : S → A → S} {out : S → A → List O} {P : S → List O → Prop}
    (h : ∀ s written a, P s written → P (step s a) (written ++ out s a)) (as : List A) {s : S}
    {written : List O} (hs : P s written) :
    P (as.foldl step s) (written ++ outputs step out s as) := by
  induction as generalizing s written with
  | nil =>
    rw [outputs, List.append_nil]
    exact hs
  | cons a as ih =>
    rw [outputs, ← List.append_assoc]
    exact ih (h s written a hs)

/-- **Runs of a partial step.**  What holds at the start, and after every possible step if it held
of the actions before it, holds at the end of a run. -/
theorem foldlM_history {step : S → A → Option S} {P : List A → S → Prop} {s₀ : S} (h0 : P [] s₀)
    (h : ∀ past s a s', P past s → step s a = some s' → P (past ++ [a]) s') {as : List A} {s : S}
    (hrun : as.foldlM step s₀ = some s) : P as s := by
  induction as using List.reverseRecOn generalizing s with
  | nil =>
    cases hrun
    exact h0
  | append_singleton past a ih =>
    rw [List.foldlM_append] at hrun
    obtain ⟨s', hpast, hlast⟩ := Option.bind_eq_some_iff.mp hrun
    rw [List.foldlM_cons] at hlast
    obtain ⟨s'', hstep, hnil⟩ := Option.bind_eq_some_iff.mp hlast
    cases hnil
    exact h past s' a s (ih hpast) hstep

/-- The state in which an action of a run is taken. -/
theorem exists_of_foldlM_append {step : S → A → Option S} {s₀ s : S} {past rest : List A} {a : A}
    (hrun : (past ++ a :: rest).foldlM step s₀ = some s) :
    ∃ s₁ s₂, past.foldlM step s₀ = some s₁ ∧ step s₁ a = some s₂ := by
  rw [List.foldlM_append] at hrun
  obtain ⟨s₁, hpast, hrest⟩ := Option.bind_eq_some_iff.mp hrun
  rw [List.foldlM_cons] at hrest
  obtain ⟨s₂, hstep, -⟩ := Option.bind_eq_some_iff.mp hrest
  exact ⟨s₁, s₂, hpast, hstep⟩

end Folds
