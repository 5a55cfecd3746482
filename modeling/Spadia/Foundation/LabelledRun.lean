import Mathlib.Algebra.Group.Defs
import Mathlib.Data.List.Induction

namespace Spadia.Foundation.LabelledRun

variable {S L : Type*} (step : S → L → Option S)

def run (s : S) (labels : List L) : Option S := labels.foldlM step s

/-- Every step of the run meets the condition `P` on its label and the state before it. -/
def Along (P : S → L → Prop) (s : S) : List L → Prop
  | [] => True
  | a :: labels => P s a ∧ ∀ s', step s a = some s' → Along P s' labels

variable {step}

theorem run_cons {s s' : S} {a : L} {labels : List L} :
    run step s (a :: labels) = some s' ↔
      ∃ s₁, step s a = some s₁ ∧ run step s₁ labels = some s' := by
  simp only [run, List.foldlM_cons, Option.bind_eq_bind, Option.bind_eq_some_iff]

theorem run_append {s s' : S} {ls ms : List L} :
    run step s (ls ++ ms) = some s' ↔ ∃ s₁, run step s ls = some s₁ ∧ run step s₁ ms = some s' := by
  simp only [run, List.foldlM_append, Option.bind_eq_bind, Option.bind_eq_some_iff]

theorem run_concat {s s' : S} {a : L} {labels : List L} :
    run step s (labels ++ [a]) = some s' ↔
      ∃ s₁, run step s labels = some s₁ ∧ step s₁ a = some s' := by
  rw [run_append]
  simp [run]

/-- What relates the labels so far to the state, and goes on from step to step, holds at the
end of a run. -/
theorem run_history {R : List L → S → Prop} {s₀ : S} (h₀ : R [] s₀)
    (hstep : ∀ ls a s s', R ls s → step s a = some s' → R (ls ++ [a]) s') {labels : List L}
    {s : S} (hrun : run step s₀ labels = some s) : R labels s := by
  induction labels using List.reverseRecOn generalizing s with
  | nil =>
    obtain rfl : s₀ = s := Option.some.inj hrun
    exact h₀
  | append_singleton labels a ih =>
    obtain ⟨s₁, hrun₁, hs⟩ := run_concat.mp hrun
    exact hstep labels a s₁ s (ih hrun₁) hs

theorem run_invariant {I : S → Prop} {P : S → L → Prop}
    (hstep : ∀ s a s', I s → P s a → step s a = some s' → I s') {labels : List L} {s s' : S}
    (hs : I s) (hP : Along step P s labels) (hrun : run step s labels = some s') : I s' := by
  induction labels generalizing s with
  | nil =>
    obtain rfl : s = s' := Option.some.inj hrun
    exact hs
  | cons a labels ih =>
    obtain ⟨s₁, hs₁, hrun⟩ := run_cons.mp hrun
    exact ih (hstep s a s₁ hs hP.1 hs₁) (hP.2 s₁ hs₁) hrun

/-- Where every step keeps `I` exactly under the condition `P`, all states of a run have `I`
exactly if all its steps meet `P`. -/
theorem forall_prefix_iff_along {I : S → Prop} {P : S → L → Prop}
    (hstuck : ∀ s a, step s a = none → P s a)
    (hstep : ∀ s a s', I s → step s a = some s' → (I s' ↔ P s a)) {labels : List L} {s : S}
    (hs : I s) :
    (∀ ls, ls <+: labels → ∀ s', run step s ls = some s' → I s') ↔ Along step P s labels := by
  induction labels generalizing s with
  | nil =>
    refine iff_of_true (fun ls hls s' hrun ↦ ?_) trivial
    rw [List.prefix_nil.mp hls] at hrun
    obtain rfl : s = s' := Option.some.inj hrun
    exact hs
  | cons a labels ih =>
    constructor
    · intro hall
      have hnext : ∀ s₁, step s a = some s₁ → I s₁ := fun s₁ hs₁ ↦
        hall [a] ⟨labels, rfl⟩ s₁ (run_cons.mpr ⟨s₁, hs₁, rfl⟩)
      constructor
      · cases hs₁ : step s a with
        | none => exact hstuck s a hs₁
        | some s₁ => exact (hstep s a s₁ hs hs₁).mp (hnext s₁ hs₁)
      · intro s₁ hs₁
        apply (ih (hnext s₁ hs₁)).mp
        intro ls hls s' hrun
        apply hall (a :: ls) (List.cons_prefix_cons.mpr ⟨rfl, hls⟩)
        exact run_cons.mpr ⟨s₁, hs₁, hrun⟩
    · intro h ls hls s' hrun
      obtain ⟨hP, hrest⟩ := h
      cases ls with
      | nil =>
        obtain rfl : s = s' := Option.some.inj hrun
        exact hs
      | cons b ls =>
        obtain ⟨rfl, hls'⟩ := List.cons_prefix_cons.mp hls
        obtain ⟨s₂, hs₂, hrun⟩ := run_cons.mp hrun
        have hI₂ := (hstep s b s₂ hs hs₂).mpr hP
        exact (ih hI₂).mpr (hrest s₂ hs₂) ls hls' s' hrun

section Total

variable {M : Type*} [AddMonoid M]

/-- What the steps of a run put out, added up. -/
def total (step : S → L → Option S) (out : S → L → M) (s : S) : List L → M
  | [] => 0
  | a :: labels => out s a + (step s a).elim 0 fun s' ↦ total step out s' labels

theorem total_concat {out : S → L → M} {labels : List L} {s s' : S}
    (hrun : run step s labels = some s') (a : L) :
    total step out s (labels ++ [a]) = total step out s labels + out s' a := by
  induction labels generalizing s with
  | nil =>
    obtain rfl : s = s' := Option.some.inj hrun
    cases hs : step s a <;> simp [total, hs]
  | cons b labels ih =>
    obtain ⟨s₁, hs₁, hrun⟩ := run_cons.mp hrun
    rw [List.cons_append, total, total, hs₁, Option.elim_some, Option.elim_some, ih hrun,
      add_assoc]

end Total

section Trail

variable {β : Type*}

/-- What the steps of a run put out, one behind the other. -/
def trail (step : S → L → Option S) (out : S → L → List β) (s : S) : List L → List β
  | [] => []
  | a :: labels => out s a ++ (step s a).elim [] fun s' ↦ trail step out s' labels

theorem trail_concat {out : S → L → List β} {labels : List L} {s s' : S}
    (hrun : run step s labels = some s') (a : L) :
    trail step out s (labels ++ [a]) = trail step out s labels ++ out s' a := by
  induction labels generalizing s with
  | nil =>
    obtain rfl : s = s' := Option.some.inj hrun
    cases hs : step s a <;> simp [trail, hs]
  | cons b labels ih =>
    obtain ⟨s₁, hs₁, hrun⟩ := run_cons.mp hrun
    rw [List.cons_append, trail, trail, hs₁, Option.elim_some, Option.elim_some, ih hrun,
      List.append_assoc]

/-- What relates the trail so far to the state, and goes on from step to step, holds at the end
of a run. -/
theorem run_trail {out : S → L → List β} {R : List β → S → Prop} {s₀ : S} (h₀ : R [] s₀)
    (hstep : ∀ t s a s', R t s → step s a = some s' → R (t ++ out s a) s') {labels : List L}
    {s : S} (hrun : run step s₀ labels = some s) : R (trail step out s₀ labels) s := by
  induction labels using List.reverseRecOn generalizing s with
  | nil =>
    obtain rfl : s₀ = s := Option.some.inj hrun
    exact h₀
  | append_singleton labels a ih =>
    obtain ⟨s₁, hrun₁, hs⟩ := run_concat.mp hrun
    rw [trail_concat hrun₁]
    exact hstep _ s₁ a s (ih hrun₁) hs

end Trail

end Spadia.Foundation.LabelledRun
