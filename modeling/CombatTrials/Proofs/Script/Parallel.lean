import CombatTrials.Script.Eval

/-!
# Two executions side by side

Most of what is claimed of scripts compares two executions: of one statement under different
variables, of two statements that mean the same, under a host and under one that takes notes
besides. `Exec.Parallel P Q` says of two computations that they end alike, in the same value or the
same failure, whenever they start where `P` relates them, and that `Q` relates where they end, after
a failure as well. It is a relation between computations and not between trees, so the rules are one
for each way to put a computation together, and a proof about evaluation has one case for each node
of the tree, in which these rules are applied in the order of the steps.

The rules for sequences want the second computation to be in parallel for every value that the first
may yield. A step that only one side takes goes by `Parallel.bind_right`.
-/

namespace CombatTrials
namespace Script
namespace Exec

variable {κ σ τ α β : Type}

/-! ## Running a computation

A computation is a function of the variables and of the host's state. These equations run it step by
step, and are all that is ever used of how it is represented. -/

theorem ext_run {m m' : Exec κ σ α} (h : ∀ s, m.run.run s = m'.run.run s) : m = m' := funext h

/-- One after the other: the second computation runs where the first one ends, unless that failed.
-/
theorem run_bind (m : Exec κ σ α) (f : α → Exec κ σ β) (s : Scope κ × σ) :
    (m >>= f).run.run s =
      match m.run.run s with
      | (.ok x, s) => (f x).run.run s
      | (.error e, s) => (.error e, s) := by
  show (match m.run.run s with | (r, s) => (ExceptT.bindCont f r).run s) = _
  rcases m.run.run s with ⟨_ | _, _⟩ <;> rfl

/-- A step that reads the variables leaves them as they are. -/
theorem reading_run (f : Scope κ → Run σ α) (scope : Scope κ) (state : σ) :
    (reading f).run.run (scope, state) =
      (((f scope).run.run state).1, (scope, ((f scope).run.run state).2)) := rfl

theorem reading_pure (x : α) : (reading fun _ => pure x : Exec κ σ α) = pure x := rfl

/-- Two steps that read the variables are a step each: reading changes none. -/
theorem reading_bind (f : Scope κ → Run σ α) (g : α → Scope κ → Run σ β) :
    (reading fun scope => f scope >>= fun x => g x scope) =
      reading f >>= fun x => reading (g x) := by
  refine ext_run fun ⟨scope, state⟩ => ?_
  rw [run_bind, reading_run, reading_run]
  simp only [ExceptT.run_bind, StateT.run_bind]
  rcases (f scope).run.run state with ⟨_ | _, _⟩ <;> rfl

/-! ## Computations in parallel

One rule for each way to put a computation together. The values are required to be equal, and only
the places may differ, so a rule for a sequence has one continuation on each side. -/

/-- Two computations end alike where `P` relates their starts, and `Q` relates their ends. -/
def Parallel (P Q : Scope κ × σ → Scope κ × τ → Prop) (m : Exec κ σ α) (m' : Exec κ τ α) : Prop :=
  ∀ s t, P s t → (m.run.run s).1 = (m'.run.run t).1 ∧ Q (m.run.run s).2 (m'.run.run t).2

namespace Parallel

variable {P Q R : Scope κ × σ → Scope κ × τ → Prop} {m : Exec κ σ α} {m' : Exec κ τ α}
  {f : α → Exec κ σ β} {f' : α → Exec κ τ β}

theorem pure (x : α) : Parallel P P (pure x) (pure x) := fun _ _ h => ⟨rfl, h⟩

theorem throw (e : Failure) : Parallel P P (throw e : Exec κ σ α) (throw e : Exec κ τ α) :=
  fun _ _ h => ⟨rfl, h⟩

theorem ofExcept (r : Except Failure α) :
    Parallel P P (reading fun _ => Run.ofExcept r) (reading fun _ => Run.ofExcept r) :=
  fun _ _ h => ⟨rfl, h⟩

theorem mono {P' Q' : Scope κ × σ → Scope κ × τ → Prop} (h : Parallel P Q m m')
    (hP : ∀ s t, P' s t → P s t) (hQ : ∀ s t, Q s t → Q' s t) : Parallel P' Q' m m' := by
  intro s t hst
  obtain ⟨hresult, hplace⟩ := h s t (hP s t hst)
  exact ⟨hresult, hQ _ _ hplace⟩

/-- One after the other. What holds between the two has to do where the first fails. -/
theorem bind (h : Parallel P Q m m') (hQ : ∀ s t, Q s t → R s t)
    (hf : ∀ x, Parallel Q R (f x) (f' x)) : Parallel P R (m >>= f) (m' >>= f') := by
  intro s t hst
  obtain ⟨hresult, hplace⟩ := h s t hst
  rw [run_bind, run_bind]
  -- the results are equal, so either both go on or both fail
  rcases hm : m.run.run s with ⟨r, s'⟩
  rcases hm' : m'.run.run t with ⟨r', t'⟩
  rw [hm, hm'] at hresult hplace
  obtain rfl : r = r' := hresult
  cases r with
  | ok x => exact hf x s' t' hplace
  | error e => exact ⟨rfl, hQ s' t' hplace⟩

/-- One after the other, where one relation holds throughout. This is the rule that proofs about
trees use at nearly every step. -/
theorem andThen (h : Parallel P R m m') (hf : ∀ x, Parallel R R (f x) (f' x)) :
    Parallel P R (m >>= f) (m' >>= f') :=
  h.bind (fun _ _ h => h) hf

/-- A step that only the second takes, and that does not fail. -/
theorem bind_right {n : Exec κ τ β} {f' : β → Exec κ τ α} {x : β}
    (hn : ∀ s t, P s t → ∃ t', n.run.run t = (.ok x, t') ∧ Q s t') (h : Parallel Q R m (f' x)) :
    Parallel P R m (n >>= f') := by
  intro s t hst
  obtain ⟨t', ht', hQ⟩ := hn s t hst
  rw [run_bind, ht']
  exact h s t' hQ

/-- The second may be another that does the same where it is run. -/
theorem congr_right {m'' : Exec κ τ α} (h : Parallel P Q m m')
    (he : ∀ s t, P s t → m''.run.run t = m'.run.run t) : Parallel P Q m m'' := by
  intro s t hst
  rw [he s t hst]
  exact h s t hst

/-- What is known of the variables is still known after they were read. -/
theorem keep {f : Scope κ → Run σ α} {f' : Scope κ → Run τ α}
    (h : Parallel P Q (reading f) (reading f')) (K : Scope κ → Scope κ → Prop) :
    Parallel (fun s t => P s t ∧ K s.1 t.1) (fun s t => Q s t ∧ K s.1 t.1)
      (reading f) (reading f') := by
  intro s t hst
  obtain ⟨hresult, hplace⟩ := h s t hst.1
  exact ⟨hresult, hplace, hst.2⟩

end Parallel
end Exec
end Script
end CombatTrials
