import Mathlib.Init

/-!
# Computations that throw

A computation over a state ends with a value or with an exception; what it did to the state
stays in both cases. `attempt` is a `try` with a `catch` and a `finally` that throws nothing.

Results:
1. `Keeps.bind`: what the steps of a computation keep, the computation keeps.
2. `attempt_resolves`: an attempt whose handler resolves does so whatever it tries.
3. `state_attempt`: the end of an attempt is reached in every case.
-/

namespace Effects

abbrev Effect (σ ε α : Type) := ExceptT ε (StateM σ) α

variable {σ ε α β γ : Type}

def result (m : Effect σ ε α) (s : σ) : Except ε α := (m.run.run s).1

def state (m : Effect σ ε α) (s : σ) : σ := (m.run.run s).2

def Resolves (m : Effect σ ε α) (s : σ) : Prop := ∃ a, result m s = .ok a

/-- `try { body } catch (error) { handler } finally { last }`. -/
def attempt (body : Effect σ ε α) (handler : ε → Effect σ ε α) (last : σ → σ) : Effect σ ε α :=
  fun s =>
    let (tried, s) := (tryCatch body handler : Effect σ ε α).run.run s
    (tried, last s)

/-- What `f` reads of the state is the same behind the computation. -/
def Keeps (f : σ → γ) (m : Effect σ ε α) : Prop := ∀ s, f (state m s) = f s

variable {f : σ → γ} {m body : Effect σ ε α} {k : α → Effect σ ε β} {handler : ε → Effect σ ε α}
  {last : σ → σ} {s : σ} {a : α} {e : ε}

/-! ## Where a computation ends -/

theorem ends_of_run {r : Except ε α} {s' : σ} (h : m.run.run s = (r, s')) :
    result m s = r ∧ state m s = s' :=
  ⟨congrArg (·.1) h, congrArg (·.2) h⟩

theorem bind_of_ok (h : result m s = .ok a) :
    result (m >>= k) s = result (k a) (state m s) ∧ state (m >>= k) s = state (k a) (state m s) := by
  have hrun : (m >>= k).run.run s = (k a).run.run (state m s) := by
    change (match (m.run.run s).1 with
      | .ok a => (k a).run
      | .error e => pure (.error e)).run (m.run.run s).2 = _
    rw [show (m.run.run s).1 = .ok a from h]
    rfl
  exact ends_of_run hrun

theorem bind_of_error (h : result m s = .error e) :
    result (m >>= k) s = .error e ∧ state (m >>= k) s = state m s := by
  have hrun : (m >>= k).run.run s = (.error e, state m s) := by
    change (match (m.run.run s).1 with
      | .ok a => (k a).run
      | .error e => pure (.error e)).run (m.run.run s).2 = _
    rw [show (m.run.run s).1 = .error e from h]
    rfl
  exact ends_of_run hrun

theorem resolves_bind_iff (h : result m s = .ok a) :
    Resolves (m >>= k) s ↔ Resolves (k a) (state m s) := by
  unfold Resolves
  rw [(bind_of_ok h).1]

theorem resolves_bind (hm : Resolves m s) (hk : ∀ a, Resolves (k a) (state m s)) :
    Resolves (m >>= k) s := by
  obtain ⟨a, ha⟩ := hm
  exact (resolves_bind_iff ha).mpr (hk a)

theorem not_resolves_bind (h : result m s = .error e) : ¬ Resolves (m >>= k) s := by
  rintro ⟨b, hb⟩
  cases hb.symm.trans (bind_of_error h).1

theorem catch_of_ok (h : result body s = .ok a) :
    result (tryCatch body handler) s = .ok a ∧ state (tryCatch body handler) s = state body s := by
  have hrun : (tryCatch body handler : Effect σ ε α).run.run s = (.ok a, state body s) := by
    change (match (body.run.run s).1 with
      | .ok a => (pure (.ok a) : StateM σ (Except ε α))
      | .error e => (handler e).run).run (body.run.run s).2 = _
    rw [show (body.run.run s).1 = .ok a from h]
    rfl
  exact ends_of_run hrun

theorem catch_of_error (h : result body s = .error e) :
    result (tryCatch body handler) s = result (handler e) (state body s) ∧
      state (tryCatch body handler) s = state (handler e) (state body s) := by
  have hrun : (tryCatch body handler : Effect σ ε α).run.run s =
      (handler e).run.run (state body s) := by
    change (match (body.run.run s).1 with
      | .ok a => (pure (.ok a) : StateM σ (Except ε α))
      | .error e => (handler e).run).run (body.run.run s).2 = _
    rw [show (body.run.run s).1 = .error e from h]
    rfl
  exact ends_of_run hrun

theorem attempt_resolves (h : ∀ e s, Resolves (handler e) s) :
    Resolves (attempt body handler last) s := by
  change Resolves (tryCatch body handler) s
  cases hbody : result body s with
  | ok a => exact ⟨a, (catch_of_ok hbody).1⟩
  | error e =>
    obtain ⟨a, ha⟩ := h e (state body s)
    exact ⟨a, (catch_of_error hbody).1.trans ha⟩

theorem state_attempt :
    state (attempt body handler last) s = last (state (tryCatch body handler) s) := rfl

/-! ## What a computation keeps -/

theorem keeps_pure : Keeps f (pure a : Effect σ ε α) := fun _ => rfl

theorem keeps_throw : Keeps f (throw e : Effect σ ε α) := fun _ => rfl

theorem keeps_get : Keeps f (get : Effect σ ε σ) := fun _ => rfl

theorem keeps_modify {g : σ → σ} (h : ∀ s, f (g s) = f s) :
    Keeps f (modify g : Effect σ ε PUnit) := h

theorem Keeps.bind (hm : Keeps f m) (hk : ∀ a, Keeps f (k a)) : Keeps f (m >>= k) := by
  intro s
  cases hresult : result m s with
  | ok a => rw [(bind_of_ok hresult).2, hk a, hm]
  | error e => rw [(bind_of_error hresult).2, hm]

theorem Keeps.catch (hbody : Keeps f body) (hhandler : ∀ e, Keeps f (handler e)) :
    Keeps f (tryCatch body handler) := by
  intro s
  cases hresult : result body s with
  | ok a => rw [(catch_of_ok hresult).2, hbody]
  | error e => rw [(catch_of_error hresult).2, hhandler e, hbody]

end Effects
