import Mathlib.Data.List.Induction
import Mathlib.Data.Set.Function

namespace Spadia.Foundation.KeyedTable

section History

variable {O T : Type*} {tag : O → T}

/-- The operation `o` is the last one of the history that has its tag. -/
def Latest (tag : O → T) (history : List O) (o : O) : Prop :=
  ∃ before after, history = before ++ o :: after ∧ ∀ o' ∈ after, tag o' ≠ tag o

theorem Latest.mem {history : List O} {o : O} (h : Latest tag history o) : o ∈ history := by
  obtain ⟨before, after, rfl, -⟩ := h
  simp

theorem latest_concat {history : List O} {o o' : O} :
    Latest tag (history ++ [o']) o ↔ o = o' ∨ Latest tag history o ∧ tag o' ≠ tag o := by
  constructor
  · intro h
    obtain ⟨before, after, heq, hafter⟩ := h
    induction after using List.reverseRecOn with
    | nil => exact .inl (List.singleton_inj.mp (List.append_inj_right' heq rfl)).symm
    | append_singleton after o'' =>
      rw [← List.cons_append, ← List.append_assoc] at heq
      obtain ⟨rfl, hlast⟩ := List.append_inj' heq rfl
      obtain rfl := List.singleton_inj.mp hlast
      exact .inr ⟨⟨before, after, rfl, fun o₁ h₁ ↦ hafter o₁ (List.mem_append_left _ h₁)⟩,
        hafter o' (by simp)⟩
  · intro h
    rcases h with rfl | ⟨⟨before, after, rfl, hafter⟩, hne⟩
    · exact ⟨history, [], rfl, by simp⟩
    · refine ⟨before, after ++ [o'], by simp, ?_⟩
      intro o₁ h₁
      rcases List.mem_append.mp h₁ with h₁ | h₁
      · exact hafter o₁ h₁
      · rwa [List.mem_singleton.mp h₁]

end History

variable {O T K V : Type*} [DecidableEq K] (tag : O → T) (key : T → K) (value : O → Option V)

/-- An operation sets, or erases, the entry under the key of its tag. -/
def apply (table : K → Option V) (o : O) : K → Option V :=
  Function.update table (key (tag o)) (value o)

/-- Where different tags have different keys, an entry shows the last operation on its tag. -/
theorem foldl_apply_eq_some_iff {history : List O} {k : K} {v : V}
    (hkey : Set.InjOn key {t | ∃ o ∈ history, tag o = t}) :
    history.foldl (apply tag key value) (fun _ ↦ none) k = some v ↔
      ∃ o, Latest tag history o ∧ key (tag o) = k ∧ value o = some v := by
  induction history using List.reverseRecOn generalizing k v with
  | nil =>
    refine iff_of_false (by simp) ?_
    intro h
    obtain ⟨o, ho, -⟩ := h
    exact absurd ho.mem (by simp)
  | append_singleton history o ih =>
    have hkey' : Set.InjOn key {t | ∃ o ∈ history, tag o = t} := by
      apply hkey.mono
      intro t ht
      obtain ⟨o₁, h₁, ht⟩ := ht
      exact ⟨o₁, List.mem_append_left _ h₁, ht⟩
    rw [List.foldl_append, List.foldl_cons, List.foldl_nil, apply]
    by_cases hk : k = key (tag o)
    · rw [hk, Function.update_self]
      constructor
      · exact fun hv ↦ ⟨o, latest_concat.mpr (.inl rfl), rfl, hv⟩
      · intro h
        obtain ⟨o₁, hlatest, hsame, hv⟩ := h
        obtain rfl | ⟨h₁, hne⟩ := latest_concat.mp hlatest
        · exact hv
        · have htag : tag o₁ = tag o :=
            hkey ⟨o₁, List.mem_append_left _ h₁.mem, rfl⟩ ⟨o, by simp, rfl⟩ hsame
          exact absurd htag.symm hne
    · rw [Function.update_of_ne hk, ih hkey']
      constructor
      · intro h
        obtain ⟨o₁, h₁, rfl, hv⟩ := h
        exact ⟨o₁, latest_concat.mpr (.inr ⟨h₁, fun h ↦ hk (congrArg key h).symm⟩), rfl, hv⟩
      · intro h
        obtain ⟨o₁, hlatest, rfl, hv⟩ := h
        obtain rfl | ⟨h₁, -⟩ := latest_concat.mp hlatest
        · exact absurd rfl hk
        · exact ⟨o₁, h₁, rfl, hv⟩

end Spadia.Foundation.KeyedTable
