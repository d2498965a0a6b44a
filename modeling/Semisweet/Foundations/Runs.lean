import Mathlib.Data.List.Induction
import Mathlib.Logic.Relation

/-!
# Runs of a labelled transition relation

A system is an initial state and a labelled step relation `step s a s'`. A *history*
lists what was done, oldest first: each action with the state it was done in. A *run*
is a history together with the state it leads to.

A run may be restricted by a condition `ok h s a` on each step, which sees the history
so far, the state before the step and the action; `Always` is no condition. Events of a
run are then facts about membership in its history, and what happens after an event is
a run of its own, from the state after it (`Run.append_iff`).

## What is proved

* `Run.invariant` — what holds at the start and is kept by every step holds of every
  run; `Run.invariant_state` is the same for a property of states alone.
* `Run.split` — the steps on either side of an event, and the state between;
  `Run.invariant_after` — the invariant rule, from an event on.
* `Run.eq_of_actions` — where a step is decided by its action, so is a run by its actions.
* `Run.mono` — a run meets the conditions that follow from what it keeps.
* `Run.project` — a run of a system that has another as a part is a run of the part, once
  the steps that do not concern it are left out.
* `Since.next`, `Since.here` — that a run has been in a state of a kind since an action stays true,
  and becomes true in such a state.
-/

namespace Semisweet.Foundations

universe u v w

variable {σ : Type u} {α : Type v}

/-- What was done, oldest first: each action with the state it was done in. -/
abbrev History (σ : Type u) (α : Type v) := List (σ × α)

/-- An action of the kind `f` was done up to a step: before it, or in it. -/
theorem History.exists_mem_snoc {ι : Type w} {h : History σ α} {s : σ} {a : α} (f : ι → α) :
    (∃ t i, (t, f i) ∈ h ++ [(s, a)]) ↔ (∃ t i, (t, f i) ∈ h) ∨ ∃ i, a = f i := by
  constructor
  · rintro ⟨t, i, hm⟩
    rcases List.mem_append.mp hm with hm | hm
    · exact .inl ⟨t, i, hm⟩
    · simp only [List.mem_singleton, Prod.mk.injEq] at hm
      exact .inr ⟨i, hm.2.symm⟩
  · rintro (⟨t, i, hm⟩ | ⟨i, rfl⟩)
    · exact ⟨t, i, List.mem_append_left _ hm⟩
    · exact ⟨s, i, List.mem_concat_self⟩

/-- What a history says about a part of the system: `f` is the state of the part, and `g` what is
done to it. -/
def History.project {τ : Type u} {β : Type v} (f : σ → τ) (g : α → Option β) (h : History σ α) :
    History τ β :=
  h.filterMap fun t => (g t.2).map fun b => (f t.1, b)

section Project

variable {τ : Type u} {β : Type v} {f : σ → τ} {g : α → Option β} {h : History σ α} {s : σ} {a : α}

@[simp] theorem History.project_append (h₁ h₂ : History σ α) :
    (h₁ ++ h₂).project f g = h₁.project f g ++ h₂.project f g :=
  List.filterMap_append

theorem History.project_snoc_of_none (hg : g a = none) :
    (h ++ [(s, a)]).project f g = h.project f g := by
  simp [History.project, hg]

theorem History.project_snoc_of_some {b : β} (hg : g a = some b) :
    (h ++ [(s, a)]).project f g = h.project f g ++ [(f s, b)] := by
  simp [History.project, hg]

theorem History.mem_project {u : τ} {b : β} :
    (u, b) ∈ h.project f g ↔ ∃ s a, (s, a) ∈ h ∧ g a = some b ∧ f s = u := by
  simp only [History.project, List.mem_filterMap, Option.map_eq_some_iff, Prod.mk.injEq,
    Prod.exists]
  constructor
  · rintro ⟨s, a, hm, b', hg, hf, rfl⟩
    exact ⟨s, a, hm, hg, hf⟩
  · rintro ⟨s, a, hm, hg, hf⟩
    exact ⟨s, a, hm, b, hg, hf, rfl⟩

end Project

/-! ### What was seen since -/

/-- A history that leads to `s` goes through a state of a kind. -/
def Visits (h : History σ α) (s : σ) (I : σ → Prop) : Prop := (∃ t ∈ h, I t.1) ∨ I s

/-- An action was done, and a state of a kind has been visited since. -/
def Since (h : History σ α) (s : σ) (a : α) (I : σ → Prop) : Prop :=
  ∃ h₁ t h₂, h = h₁ ++ (t, a) :: h₂ ∧ Visits h₂ s I

section Since

variable {h : History σ α} {s s' : σ} {a b : α} {I J : σ → Prop}

theorem Visits.next (hv : Visits h s I) : Visits (h ++ [(s, b)]) s' I := by
  rcases hv with ⟨t, ht, hI⟩ | hI
  · exact .inl ⟨t, List.mem_append_left _ ht, hI⟩
  · exact .inl ⟨(s, b), List.mem_concat_self, hI⟩

/-- It stays so. -/
theorem Since.next (hs : Since h s a I) : Since (h ++ [(s, b)]) s' a I := by
  obtain ⟨h₁, t, h₂, rfl, hv⟩ := hs
  exact ⟨h₁, t, h₂ ++ [(s, b)], by simp, hv.next⟩

/-- The action is done, and leads to such a state. -/
theorem Since.done (hI : I s') : Since (h ++ [(s, a)]) s' a I := ⟨h, s, [], rfl, .inr hI⟩

/-- Such a state is reached. -/
theorem Since.here (hs : Since h s a J) (hI : I s) : Since h s a I := by
  obtain ⟨h₁, t, h₂, rfl, -⟩ := hs
  exact ⟨h₁, t, h₂, rfl, .inr hI⟩

end Since

/-- A condition on a step: on the history so far, the state, and the action. -/
abbrev Guard (σ : Type u) (α : Type v) := History σ α → σ → α → Prop

/-- No condition. -/
def Always : Guard σ α := fun _ _ _ => True

/-- `Run step init ok h s`: from `init`, by steps that meet `ok`, the history `h` leads to `s`. -/
inductive Run (step : σ → α → σ → Prop) (init : σ) (ok : Guard σ α) : History σ α → σ → Prop
  /-- Nothing has been done. -/
  | start : Run step init ok [] init
  /-- One more step. -/
  | next {h : History σ α} {s s' : σ} {a : α} :
      Run step init ok h s → ok h s a → step s a s' → Run step init ok (h ++ [(s, a)]) s'

namespace Run

variable {step : σ → α → σ → Prop} {init : σ} {ok ok' : Guard σ α} {h h₁ h₂ : History σ α} {s : σ}

/-- **The invariant rule**: what holds at the start and is kept by every step that meets
the condition holds of every run. -/
theorem invariant {I : History σ α → σ → Prop} (hinit : I [] init)
    (hstep : ∀ h s a s', Run step init ok h s → I h s → ok h s a → step s a s' →
      I (h ++ [(s, a)]) s')
    (hrun : Run step init ok h s) : I h s := by
  induction hrun with
  | start => exact hinit
  | next hr hok hs ih => exact hstep _ _ _ _ hr ih hok hs

/-- The invariant rule for a property of states alone. -/
theorem invariant_state {I : σ → Prop} (hinit : I init)
    (hstep : ∀ h s a s', I s → ok h s a → step s a s' → I s') (hrun : Run step init ok h s) : I s :=
  invariant (I := fun _ s => I s) hinit (fun h s a s' _ hI hok hs => hstep h s a s' hI hok hs) hrun

/-- A run meets any condition that its steps meet, each after the run before it. -/
theorem mono (hle : ∀ h s a s', Run step init ok h s → ok h s a → step s a s' → ok' h s a)
    (hrun : Run step init ok h s) : Run step init ok' h s := by
  induction hrun with
  | start => exact .start
  | next hr hok hs ih => exact .next ih (hle _ _ _ _ hr hok hs) hs

/-- A run of one step more than `h` is a run of `h` and the step. -/
theorem snoc_iff {t : σ × α} :
    Run step init ok (h ++ [t]) s ↔ Run step init ok h t.1 ∧ ok h t.1 t.2 ∧ step t.1 t.2 s := by
  constructor
  · intro hrun
    generalize hg : h ++ [t] = g at hrun
    cases hrun with
    | start => simp at hg
    | next hr hok hs =>
      obtain ⟨rfl, ht⟩ := List.append_inj' hg rfl
      simp only [List.cons.injEq, and_true] at ht
      subst ht
      exact ⟨hr, hok, hs⟩
  · rintro ⟨hr, hok, hs⟩
    exact .next hr hok hs

/-- **Runs compose**: a run of `h₁ ++ h₂` is a run of `h₁` and, from the state it leads to,
a run of `h₂`. -/
theorem append_iff : Run step init ok (h₁ ++ h₂) s ↔
    ∃ m, Run step init ok h₁ m ∧ Run step m (fun h => ok (h₁ ++ h)) h₂ s := by
  induction h₂ using List.reverseRecOn generalizing s with
  | nil =>
    constructor
    · intro hr
      rw [List.append_nil] at hr
      exact ⟨s, hr, .start⟩
    · rintro ⟨m, hr, hm⟩
      generalize hg : ([] : History σ α) = g at hm
      cases hm with
      | start => rwa [List.append_nil]
      | next _ _ _ => simp at hg
  | append_singleton h₂ t ih =>
    rw [← List.append_assoc, snoc_iff, ih]
    constructor
    · rintro ⟨⟨m, hr, hm⟩, hok, hs⟩
      exact ⟨m, hr, snoc_iff.mpr ⟨hm, hok, hs⟩⟩
    · rintro ⟨m, hr, hm⟩
      obtain ⟨hm, hok, hs⟩ := snoc_iff.mp hm
      exact ⟨⟨m, hr, hm⟩, hok, hs⟩

/-- An event of a run: the run before it, the step itself, and the run after it. -/
theorem split {t : σ × α} (hrun : Run step init ok (h₁ ++ t :: h₂) s) :
    ∃ s', Run step init ok h₁ t.1 ∧ ok h₁ t.1 t.2 ∧ step t.1 t.2 s' ∧
      Run step s' (fun h => ok (h₁ ++ t :: h)) h₂ s := by
  rw [show h₁ ++ t :: h₂ = (h₁ ++ [t]) ++ h₂ by simp, append_iff] at hrun
  obtain ⟨m, hr, hm⟩ := hrun
  obtain ⟨hr, hok, hs⟩ := snoc_iff.mp hr
  exact ⟨m, hr, hok, hs, by simpa using hm⟩

/-- **The invariant rule, from an event on**: what holds right after the event and is kept by
every later step holds in the end. -/
theorem invariant_after {t : σ × α} {I : History σ α → σ → Prop}
    (hrun : Run step init ok (h₁ ++ t :: h₂) s)
    (hnow : ∀ s', Run step init ok h₁ t.1 → step t.1 t.2 s' → I (h₁ ++ [t]) s')
    (hstep : ∀ h s a s', Run step init ok h s → I h s → ok h s a → step s a s' →
      I (h ++ [(s, a)]) s') : I (h₁ ++ t :: h₂) s := by
  induction h₂ using List.reverseRecOn generalizing s with
  | nil =>
    obtain ⟨hr, -, hs⟩ := snoc_iff.mp hrun
    exact hnow s hr hs
  | append_singleton h₂ u ih =>
    rw [← List.cons_append, ← List.append_assoc] at hrun ⊢
    obtain ⟨hr, hok, hs⟩ := snoc_iff.mp hrun
    exact hstep _ _ _ _ hr (ih hr) hok hs

/-- **A run is decided by what is done**, if every step is. -/
theorem eq_of_actions (hdet : ∀ s a s₁ s₂, step s a s₁ → step s a s₂ → s₁ = s₂)
    {h' : History σ α} {s' : σ} (hrun : Run step init ok h s) (hrun' : Run step init ok' h' s')
    (hacts : h.map Prod.snd = h'.map Prod.snd) : h = h' ∧ s = s' := by
  induction hrun generalizing h' s' with
  | start =>
    obtain rfl : h' = [] := by simpa using hacts.symm
    generalize hg : ([] : History σ α) = g at hrun'
    cases hrun' with
    | start => exact ⟨rfl, rfl⟩
    | next _ _ _ => simp at hg
  | @next h s s₁ a hr hok hs ih =>
    cases hrun' with
    | start => simp at hacts
    | @next h' t _ b hr' hok' hs' =>
      simp only [List.map_append, List.map_cons, List.map_nil] at hacts
      obtain ⟨hpre, hlast⟩ := List.append_inj' hacts rfl
      obtain ⟨rfl, rfl⟩ := ih hr' hpre
      obtain rfl : a = b := by simpa using hlast
      exact ⟨rfl, hdet _ _ _ _ hs hs'⟩

/-- A step in the history was taken after a run, and met the condition. -/
theorem exists_of_mem {t : σ × α} (hrun : Run step init ok h s) (ht : t ∈ h) :
    ∃ h₁ h₂ s', h = h₁ ++ t :: h₂ ∧ Run step init ok h₁ t.1 ∧ ok h₁ t.1 t.2 ∧ step t.1 t.2 s' ∧
      Run step init ok (h₁ ++ [t]) s' := by
  obtain ⟨h₁, h₂, rfl⟩ := List.append_of_mem ht
  obtain ⟨s', hr, hok, hs, -⟩ := hrun.split
  exact ⟨h₁, h₂, s', rfl, hr, hok, hs, snoc_iff.mpr ⟨hr, hok, hs⟩⟩

/-- A run whose every step meets a condition on states and actions is a run under it. -/
theorem of_forall {good : σ → α → Prop} (hrun : Run step init ok h s)
    (hall : ∀ t ∈ h, good t.1 t.2) :
    Run step init (fun _ => good) h s := by
  induction hrun with
  | start => exact .start
  | next _ _ hs ih =>
    exact .next (ih fun t ht => hall t (List.mem_append_left _ ht)) (hall _ List.mem_concat_self) hs

/-- **A run of the whole is a run of the part**: a step of the whole is a step of the part, or
leaves it as it is. -/
theorem project {τ : Type u} {β : Type v} {step' : τ → β → τ → Prop} {ok' : Guard τ β} {f : σ → τ}
    {g : α → Option β}
    (hsome : ∀ h s a s' b, Run step init ok h s → ok h s a → step s a s' → g a = some b →
      ok' (h.project f g) (f s) b ∧ step' (f s) b (f s'))
    (hnone : ∀ s a s', step s a s' → g a = none → f s' = f s) (hrun : Run step init ok h s) :
    Run step' (f init) ok' (h.project f g) (f s) := by
  induction hrun with
  | start => exact .start
  | @next h s s' a hr hok hs ih =>
    cases hg : g a with
    | none =>
      rw [History.project_snoc_of_none hg, hnone s a s' hs hg]
      exact ih
    | some b =>
      rw [History.project_snoc_of_some hg]
      obtain ⟨hok', hs'⟩ := hsome h s a s' b hr hok hs hg
      exact .next ih hok' hs'

/-- A run goes on along any steps. -/
theorem exists_of_reflTransGen {s' : σ} (hrun : Run step init Always h s)
    (hsteps : Relation.ReflTransGen (fun s s' => ∃ a, step s a s') s s') :
    ∃ h', Run step init Always h' s' := by
  induction hsteps with
  | refl => exact ⟨h, hrun⟩
  | tail _ hstep ih =>
    obtain ⟨h', hrun'⟩ := ih
    obtain ⟨a, hs⟩ := hstep
    exact ⟨_, hrun'.next trivial hs⟩

/-- What holds of every state a run visits holds of the first. -/
theorem init_of_visited {I : σ → Prop} (hrun : Run step init ok h s) (hall : ∀ t ∈ h, I t.1)
    (hs : I s) :
    I init := by
  induction hrun with
  | start => exact hs
  | next _ _ _ ih =>
    exact ih (fun t ht => hall t (List.mem_append_left _ ht)) (hall _ List.mem_concat_self)

end Run

end Semisweet.Foundations
