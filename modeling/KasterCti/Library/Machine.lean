import Mathlib.Data.Sum.Basic

/-!
# Step machines and simulation

A machine is a function that takes a state to the next one or ends with a
result. `Leads` says where a run comes by, at a state or at the end. If what every
step of an abstract machine gives is what a concrete machine comes to, in one or
more steps, then the two machines end with matching results: whatever the one does,
the other does.
-/

namespace Machine

section Leads
variable {σ ρ : Type*} (step : σ → σ ⊕ ρ)

/-- One or more steps from the state give the outcome. -/
inductive Leads : σ → σ ⊕ ρ → Prop
  | one {s : σ} {o : σ ⊕ ρ} : step s = o → Leads s o
  | next {s s' : σ} {o : σ ⊕ ρ} : step s = .inl s' → Leads s' o → Leads s o

/-- The run from the state ends with the result. -/
def Ends (s : σ) (r : ρ) : Prop := Leads step s (.inr r)

variable {step}

variable {s s' : σ} {o : σ ⊕ ρ}

/-- What comes after a state is what comes after the states before it. -/
theorem Leads.trans (h : Leads step s (.inl s')) (h' : Leads step s' o) : Leads step s o := by
  generalize hm : Sum.inl s' = m at h
  induction h with
  | one hs => exact .next (hs.trans hm.symm) h'
  | next hs _ ih => exact .next hs (ih hm)

/-- What every step keeps, a run keeps. -/
theorem Leads.invariant {I : σ → Prop} {Q : ρ → Prop} (hstep : ∀ s, I s → Sum.elim I Q (step s))
    {s : σ} (hs : I s) (h : Leads step s o) : Sum.elim I Q o := by
  induction h with
  | one hone => exact hone ▸ hstep _ hs
  | next hone _ ih =>
    have hnext := hstep _ hs
    rw [hone] at hnext
    exact ih hnext

/-- No step, or one or more steps from the state give the outcome. -/
def Comes (step : σ → σ ⊕ ρ) (s : σ) (o : σ ⊕ ρ) : Prop := o = .inl s ∨ Leads step s o

theorem Comes.next (hs : step s = .inl s') (h : Comes step s' o) : Comes step s o := by
  rcases h with rfl | h
  · exact .inr (.one hs)
  · exact .inr (.next hs h)

theorem Comes.invariant {I : σ → Prop} {Q : ρ → Prop} (hstep : ∀ s, I s → Sum.elim I Q (step s))
    {s : σ} (hs : I s) (h : Comes step s o) : Sum.elim I Q o := by
  rcases h with rfl | h
  · exact hs
  · exact h.invariant hstep hs

/-- The state after `n` steps. -/
def stateAfter (step : σ → σ ⊕ ρ) : Nat → σ → Option σ
  | 0, s => some s
  | n + 1, s =>
    match step s with
    | .inl s' => stateAfter step n s'
    | .inr _ => none

theorem comes_of_stateAfter {n : Nat} (h : stateAfter step n s = some s') :
    Comes step s (.inl s') := by
  induction n generalizing s with
  | zero => exact .inl (congrArg Sum.inl (Option.some.inj h).symm)
  | succ n ih =>
    rw [stateAfter] at h
    split at h
    · rename_i s₁ hs
      exact (ih h).next hs
    · cases h

theorem Comes.trans (h : Comes step s (.inl s')) (h' : Comes step s' o) : Comes step s o := by
  rcases h with h | h
  · obtain rfl := Sum.inl.inj h
    exact h'
  · rcases h' with rfl | h'
    · exact .inr h
    · exact .inr (h.trans h')

theorem Ends.unique {s : σ} {r r' : ρ} (h : Ends step s r) (h' : Ends step s r') : r = r' := by
  unfold Ends at h
  generalize hm : Sum.inr r = m at h
  induction h with
  | one hs =>
    cases h' with
    | one hs' => exact Sum.inr.inj ((hm.trans hs.symm).trans hs')
    | next hs' _ => cases (hm.trans hs.symm).trans hs'
  | next hs _ ih =>
    cases h' with
    | one hs' => cases hs.symm.trans hs'
    | next hs' h' =>
      obtain rfl := Sum.inl.inj (hs.symm.trans hs')
      exact ih h' hm

/-- The run ends with the result after exactly `n` steps and the last one. -/
inductive EndsIn (step : σ → σ ⊕ ρ) : Nat → σ → ρ → Prop
  | done {s : σ} {r : ρ} : step s = .inr r → EndsIn step 0 s r
  | next {n : Nat} {s s' : σ} {r : ρ} :
      step s = .inl s' → EndsIn step n s' r → EndsIn step (n + 1) s r

theorem Ends.endsIn {s : σ} {r : ρ} (h : Ends step s r) : ∃ n, EndsIn step n s r := by
  unfold Ends at h
  generalize hm : Sum.inr r = m at h
  induction h with
  | one hs => exact ⟨0, .done (hs.trans hm.symm)⟩
  | next hs _ ih =>
    obtain ⟨n, hn⟩ := ih hm
    exact ⟨n + 1, .next hs hn⟩

theorem EndsIn.ends {n : Nat} {s : σ} {r : ρ} (h : EndsIn step n s r) : Ends step s r := by
  induction h with
  | done hs => exact .one hs
  | next hs _ ih => exact .next hs ih

/-- Steps already taken shorten the run. -/
theorem EndsIn.after {n : Nat} {r : ρ} (hs : Leads step s (.inl s')) (h : EndsIn step n s r) :
    ∃ m < n, EndsIn step m s' r := by
  generalize hm : Sum.inl s' = m at hs
  induction hs generalizing n with
  | one hstep =>
    cases h with
    | done hend => cases (hm.trans hstep.symm).trans hend
    | next hnext h =>
      obtain rfl := Sum.inl.inj ((hm.trans hstep.symm).trans hnext)
      exact ⟨_, Nat.lt_succ_self _, h⟩
  | next hstep _ ih =>
    cases h with
    | done hend => cases hstep.symm.trans hend
    | next hnext h =>
      obtain rfl := Sum.inl.inj (hstep.symm.trans hnext)
      obtain ⟨k, hk, h⟩ := ih h hm
      exact ⟨k, Nat.lt_succ_of_lt hk, h⟩

end Leads

section Simulation
variable {σ₁ ρ₁ σ₂ ρ₂ : Type*} {step₁ : σ₁ → σ₁ ⊕ ρ₁} {step₂ : σ₂ → σ₂ ⊕ ρ₂}

/-- The second machine comes from the state to something that matches `x`. -/
def Meets (step₂ : σ₂ → σ₂ ⊕ ρ₂) (R : σ₁ → σ₂ → Prop) (Q : ρ₁ → ρ₂ → Prop) (x : σ₁ ⊕ ρ₁)
    (b : σ₂) : Prop :=
  ∃ o, Leads step₂ b o ∧ Sum.LiftRel R Q x o

/-- `R` relates states of the two machines, `Q` their results: from related states
the second machine meets what the first one does. -/
def Simulation (step₁ : σ₁ → σ₁ ⊕ ρ₁) (step₂ : σ₂ → σ₂ ⊕ ρ₂) (R : σ₁ → σ₂ → Prop)
    (Q : ρ₁ → ρ₂ → Prop) : Prop :=
  ∀ a b, R a b → Meets step₂ R Q (step₁ a) b

variable {R : σ₁ → σ₂ → Prop} {Q : ρ₁ → ρ₂ → Prop}

theorem Simulation.forward (sim : Simulation step₁ step₂ R Q) {a : σ₁} {b : σ₂} {r : ρ₁}
    (hR : R a b) (h : Ends step₁ a r) : ∃ r', Ends step₂ b r' ∧ Q r r' := by
  unfold Ends at h
  generalize hm : Sum.inr r = m at h
  induction h generalizing b with
  | one hs =>
    obtain ⟨o, ho, hx⟩ := sim _ _ hR
    rw [hs, ← hm] at hx
    cases hx with
    | inr hQ => exact ⟨_, ho, hQ⟩
  | next hs _ ih =>
    obtain ⟨o, ho, hx⟩ := sim _ _ hR
    rw [hs] at hx
    cases hx with
    | inl hR' =>
      obtain ⟨r', hr, hQ⟩ := ih hR' hm
      exact ⟨r', ho.trans hr, hQ⟩

/-- Where the first machine comes by, the second one comes by. -/
theorem Simulation.comes (sim : Simulation step₁ step₂ R Q) {a a' : σ₁} {b : σ₂} (hR : R a b)
    (h : Comes step₁ a (.inl a')) : ∃ b', Comes step₂ b (.inl b') ∧ R a' b' := by
  rcases h with h | h
  · obtain rfl := Sum.inl.inj h
    exact ⟨b, .inl rfl, hR⟩
  · generalize hm : Sum.inl a' = m at h
    induction h generalizing b with
    | one hs =>
      obtain ⟨o, ho, hx⟩ := sim _ _ hR
      rw [hs, ← hm] at hx
      cases hx with
      | inl hR' => exact ⟨_, .inr ho, hR'⟩
    | next hs _ ih =>
      obtain ⟨o, ho, hx⟩ := sim _ _ hR
      rw [hs] at hx
      cases hx with
      | inl hR' =>
        obtain ⟨b', hb, hR''⟩ := ih hR' hm
        exact ⟨b', .trans (.inr ho) hb, hR''⟩

theorem Simulation.backward (sim : Simulation step₁ step₂ R Q) {a : σ₁} {b : σ₂} {r' : ρ₂}
    (hR : R a b) (hends : Ends step₂ b r') : ∃ r, Ends step₁ a r ∧ Q r r' := by
  obtain ⟨n, h⟩ := hends.endsIn
  clear hends
  induction n using Nat.strongRecOn generalizing a b with
  | ind n ih =>
    obtain ⟨o, ho, hx⟩ := sim a b hR
    cases hs : step₁ a with
    | inr r =>
      rw [hs] at hx
      cases hx with
      | inr hQ =>
        obtain rfl := Ends.unique ho h.ends
        exact ⟨r, .one hs, hQ⟩
    | inl a' =>
      rw [hs] at hx
      cases hx with
      | inl hR' =>
        obtain ⟨m, hm, h⟩ := h.after ho
        obtain ⟨r, hr, hQ⟩ := ih m hm hR' h
        exact ⟨r, .next hs hr, hQ⟩

end Simulation

/-! ## What holds on the way -/

section Via
variable {σ ρ : Type*} {step : σ → σ ⊕ ρ} {P : σ → Prop}

/-- One or more steps from the state give the outcome, and each of them starts in a
state with the property. -/
inductive LeadsVia (step : σ → σ ⊕ ρ) (P : σ → Prop) : σ → σ ⊕ ρ → Prop
  | one {s : σ} {o : σ ⊕ ρ} : P s → step s = o → LeadsVia step P s o
  | next {s s' : σ} {o : σ ⊕ ρ} :
      P s → step s = .inl s' → LeadsVia step P s' o → LeadsVia step P s o

theorem LeadsVia.leads {s : σ} {o : σ ⊕ ρ} (h : LeadsVia step P s o) : Leads step s o := by
  induction h with
  | one _ hs => exact .one hs
  | next _ hs _ ih => exact .next hs ih

/-- What the steps from states with the property keep holds where they lead. -/
theorem LeadsVia.invariant {I : σ → Prop}
    (hstep : ∀ s s', I s → P s → step s = .inl s' → I s') {s t : σ} (hs : I s)
    (h : LeadsVia step P s (.inl t)) : I t := by
  generalize hm : Sum.inl t = m at h
  induction h with
  | one hP hone => exact hstep _ _ hs hP (hone.trans hm.symm)
  | next hP hone _ ih => exact ih (hstep _ _ hs hP hone) hm

/-- The states that a run comes by in `n` steps. -/
inductive ComesIn (step : σ → σ ⊕ ρ) : Nat → σ → σ → Prop
  | here {s : σ} : ComesIn step 0 s s
  | next {n : Nat} {s s' t : σ} : step s = .inl s' → ComesIn step n s' t → ComesIn step (n + 1) s t

theorem Comes.comesIn {s t : σ} (h : Comes step s (.inl t)) : ∃ n, ComesIn step n s t := by
  rcases h with h | h
  · obtain rfl := Sum.inl.inj h
    exact ⟨0, .here⟩
  · generalize hm : Sum.inl t = m at h
    induction h with
    | one hs => exact ⟨1, .next (hs.trans hm.symm) .here⟩
    | next hs _ ih =>
      obtain ⟨n, hn⟩ := ih hm
      exact ⟨n + 1, .next hs hn⟩

/-- A state that a run comes by is on the way to what the run leads to, or behind it. -/
theorem LeadsVia.reached {s t : σ} {o : σ ⊕ ρ} (h : LeadsVia step P s o) {n : Nat}
    (ht : ComesIn step n s t) :
    P t ∨ ∃ s' m, o = .inl s' ∧ m < n ∧ ComesIn step m s' t := by
  induction h generalizing n with
  | one hP hs =>
    cases ht with
    | here => exact .inl hP
    | next hs' ht => exact .inr ⟨_, _, hs.symm.trans hs', Nat.lt_succ_self _, ht⟩
  | next hP hs _ ih =>
    cases ht with
    | here => exact .inl hP
    | next hs' ht =>
      obtain rfl := Sum.inl.inj (hs.symm.trans hs')
      exact (ih ht).imp_right (fun ⟨s', m, ho, hm, hc⟩ => ⟨s', m, ho, Nat.lt_succ_of_lt hm, hc⟩)

end Via

section SimulationVia
variable {σ₁ ρ₁ σ₂ ρ₂ : Type*} {step₁ : σ₁ → σ₁ ⊕ ρ₁} {step₂ : σ₂ → σ₂ ⊕ ρ₂}

/-- The second machine comes from the state to something that matches `x`, over states
with the property. -/
def MeetsVia (step₂ : σ₂ → σ₂ ⊕ ρ₂) (R : σ₁ → σ₂ → Prop) (Q : ρ₁ → ρ₂ → Prop) (P : σ₂ → Prop)
    (x : σ₁ ⊕ ρ₁) (b : σ₂) : Prop :=
  ∃ o, LeadsVia step₂ P b o ∧ Sum.LiftRel R Q x o

/-- A simulation in which every state on the way has the property. -/
def SimulationVia (step₁ : σ₁ → σ₁ ⊕ ρ₁) (step₂ : σ₂ → σ₂ ⊕ ρ₂) (R : σ₁ → σ₂ → Prop)
    (Q : ρ₁ → ρ₂ → Prop) (P : σ₂ → Prop) : Prop :=
  ∀ a b, R a b → MeetsVia step₂ R Q P (step₁ a) b

variable {R : σ₁ → σ₂ → Prop} {Q : ρ₁ → ρ₂ → Prop} {P : σ₂ → Prop}

theorem MeetsVia.of_step {x : σ₁ ⊕ ρ₁} {b b' : σ₂} (hP : P b) (hs : step₂ b = .inl b')
    (h : MeetsVia step₂ R Q P x b') : MeetsVia step₂ R Q P x b := by
  obtain ⟨o, ho, hx⟩ := h
  exact ⟨o, .next hP hs ho, hx⟩

theorem MeetsVia.result {r : ρ₁} {b : σ₂} {r' : ρ₂} (hP : P b) (hs : step₂ b = .inr r')
    (h : Q r r') : MeetsVia step₂ R Q P (.inr r) b :=
  ⟨.inr r', .one hP hs, .inr h⟩

theorem SimulationVia.simulation (sim : SimulationVia step₁ step₂ R Q P) :
    Simulation step₁ step₂ R Q := by
  intro a b hR
  obtain ⟨o, ho, hx⟩ := sim a b hR
  exact ⟨o, ho.leads, hx⟩

/-- Every state that a run of the second machine comes by has the property. -/
theorem SimulationVia.reachedIn (sim : SimulationVia step₁ step₂ R Q P) {a : σ₁} {b t : σ₂}
    (hR : R a b) {n : Nat} (hn : ComesIn step₂ n b t) : P t := by
  induction n using Nat.strongRecOn generalizing a b with
  | ind n ih =>
    obtain ⟨o, ho, hx⟩ := sim a b hR
    rcases ho.reached hn with hP | ⟨b', m, rfl, hm, hc⟩
    · exact hP
    · cases hstep : step₁ a with
      | inr r =>
        rw [hstep] at hx
        cases hx
      | inl a' =>
        rw [hstep] at hx
        cases hx with
        | inl hR' => exact ih m hm hR' hc

/-- On the way to what matches, and behind it. -/
theorem MeetsVia.reached (sim : SimulationVia step₁ step₂ R Q P) {x : σ₁ ⊕ ρ₁} {b t : σ₂}
    (h : MeetsVia step₂ R Q P x b) (ht : Comes step₂ b (.inl t)) : P t := by
  obtain ⟨o, ho, hx⟩ := h
  obtain ⟨n, hn⟩ := ht.comesIn
  rcases ho.reached hn with hP | ⟨b', m, rfl, -, hc⟩
  · exact hP
  · cases hx with
    | inl hR => exact sim.reachedIn hR hc

end SimulationVia

end Machine
