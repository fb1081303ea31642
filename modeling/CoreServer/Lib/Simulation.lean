import CoreServer.Lib.StepMachine

/-!
# Simulation of one machine by another

A machine `F` is simulated by a machine `M` when what a step of `F` does to a state of `M` that it
is related to is what some steps of `M` do: none (the step is not seen), one, or several.  Which
steps of `M` these are may depend on the state of `F`.  A run of `F` is then seen as a run of `M`.

`Refines` is the case in which every state of `F` stands for one state of `M`.
-/

namespace StepMachine

variable {σ α σ' α' : Type*}

/-- The steps of `M` that a run of `F` is seen as. -/
def seen (F : StepMachine σ α) (see : σ → α → List α') : σ → List α → List α'
  | _, [] => []
  | s, a :: as =>
    see s a ++
      match F.step s a with
      | some s' => seen F see s' as
      | none => []

lemma seen_cons_of_step {F : StepMachine σ α} {see : σ → α → List α'} {s s' : σ} {a : α}
    (h : F.step s a = some s') (as : List α) :
    F.seen see s (a :: as) = see s a ++ F.seen see s' as := by
  rw [seen, h]

lemma seen_append {F : StepMachine σ α} {see : σ → α → List α'} {s t : σ} {as : List α}
    (h : F.exec s as = some t) (bs : List α) :
    F.seen see s (as ++ bs) = F.seen see s as ++ F.seen see t bs := by
  induction as generalizing s with
  | nil =>
    obtain rfl : s = t := Option.some.inj h
    rfl
  | cons a as ih =>
    obtain ⟨s', hstep, hrest⟩ := exec_cons_eq_some.1 h
    rw [List.cons_append, seen_cons_of_step hstep, ih hrest, seen_cons_of_step hstep,
      List.append_assoc]

/-- `M` simulates `F`: a step of `F` is, for a state of `M` that its state is related to, the
steps `see s a` of `M`. -/
structure Simulates (M : StepMachine σ' α') (F : StepMachine σ α) (R : σ → σ' → Prop)
    (see : σ → α → List α') : Prop where
  simulates : ∀ {s r a s'}, R s r → F.step s a = some s' → ∃ r', M.exec r (see s a) = some r' ∧
    R s' r'

namespace Simulates

variable {F : StepMachine σ α} {M : StepMachine σ' α'} {R : σ → σ' → Prop}
  {see : σ → α → List α'} {s t : σ} {r : σ'} {as : List α}

/-- **Forward simulation.**  The run of `M` that a run of `F` is seen as can be taken, and ends
in a state that the last state of `F` is related to. -/
theorem exec (h : M.Simulates F R see) (hR : R s r) (hexec : F.exec s as = some t) :
    ∃ r', M.exec r (F.seen see s as) = some r' ∧ R t r' := by
  induction as generalizing s r with
  | nil =>
    obtain rfl : s = t := Option.some.inj hexec
    exact ⟨r, rfl, hR⟩
  | cons a as ih =>
    obtain ⟨s', hstep, hrest⟩ := exec_cons_eq_some.1 hexec
    obtain ⟨r', hseen, hR'⟩ := h.simulates hR hstep
    rw [seen_cons_of_step hstep, exec_append hseen]
    exact ih hR' hrest

/-- If the steps that a step of `F` is seen as satisfy `G` whenever it satisfies `G'`, then a run
of `F` whose steps all satisfy `G'` is seen as a run whose steps all satisfy `G`. -/
theorem along (h : M.Simulates F R see) {G' : σ → α → Prop} {G : σ' → α' → Prop}
    (hG : ∀ s r a, R s r → G' s a → M.Along G r (see s a)) (hR : R s r) (hrun : F.Along G' s as) :
    M.Along G r (F.seen see s as) := by
  induction as generalizing s r with
  | nil => trivial
  | cons a as ih =>
    have hfirst := hG s r a hR hrun.1
    rw [seen]
    cases hstep : F.step s a with
    | none => simpa using hfirst
    | some s' =>
      obtain ⟨r', hseen, hR'⟩ := h.simulates hR hstep
      exact (along_append hseen _).2 ⟨hfirst, ih hR' (hrun.2 s' hstep)⟩

end Simulates

/-! ## States that stand for states -/

/-- `F` refines `M`: under the invariant `I` of `F`, a step from `s` is, for the states that
the states of `F` stand for, the steps `see s a` of `M`. -/
structure Refines (F : StepMachine σ α) (M : StepMachine σ' α') (I : σ → Prop) (abs : σ → σ')
    (see : σ → α → List α') : Prop where
  keeps : ∀ {s a s'}, I s → F.step s a = some s' → I s'
  simulates : ∀ {s a s'}, I s → F.step s a = some s' → M.exec (abs s) (see s a) = some (abs s')

/-- A step from `s` to `s'` that keeps `I` and, for the states that the states stand for, is the
steps `bs` of `M`. -/
def SeenAs (M : StepMachine σ' α') (I : σ → Prop) (abs : σ → σ') (s s' : σ) (bs : List α') :
    Prop :=
  I s' ∧ M.exec (abs s) bs = some (abs s')

section SeenAs

variable {M : StepMachine σ' α'} {I : σ → Prop} {abs : σ → σ'} {s s' : σ} {b : α'}

lemma SeenAs.nothing (hs' : I s') (h : abs s' = abs s) : SeenAs M I abs s s' [] :=
  ⟨hs', congrArg some h.symm⟩

lemma SeenAs.one (hs' : I s') (h : M.step (abs s) b = some (abs s')) : SeenAs M I abs s s' [b] :=
  ⟨hs', exec_cons_of_step h⟩

end SeenAs

namespace Refines

variable {F : StepMachine σ α} {M : StepMachine σ' α'} {I : σ → Prop} {abs : σ → σ'}
  {see : σ → α → List α'} {s t : σ} {as : List α}

/-- A refinement is a simulation by the state that a state stands for. -/
lemma toSimulates (h : F.Refines M I abs see) :
    M.Simulates F (fun s r => I s ∧ r = abs s) see where
  simulates := by
    rintro s r a s' ⟨hs, rfl⟩ hstep
    exact ⟨abs s', h.simulates hs hstep, h.keeps hs hstep, rfl⟩

/-- **Refinement.**  The run of `M` that a run of `F` is seen as can be taken, and ends in the
state that the last state of `F` stands for. -/
theorem exec (h : F.Refines M I abs see) (hs : I s) (hexec : F.exec s as = some t) :
    M.exec (abs s) (F.seen see s as) = some (abs t) := by
  obtain ⟨r, hseen, -, rfl⟩ := h.toSimulates.exec ⟨hs, rfl⟩ hexec
  exact hseen

/-- The invariant holds wherever a run ends. -/
lemma invariant (h : F.Refines M I abs see) (hs : I s) (hexec : F.exec s as = some t) : I t :=
  exec_invariant (fun _ _ _ hs hstep => h.keeps hs hstep) hs hexec

/-- What `Simulates.along` says of a refinement. -/
lemma along (h : F.Refines M I abs see) {G' : σ → α → Prop} {G : σ' → α' → Prop}
    (hG : ∀ s a, I s → G' s a → M.Along G (abs s) (see s a)) (hs : I s) (hrun : F.Along G' s as) :
    M.Along G (abs s) (F.seen see s as) := by
  refine h.toSimulates.along ?_ ⟨hs, rfl⟩ hrun
  rintro s r a ⟨hs, rfl⟩ ha
  exact hG s a hs ha

end Refines

end StepMachine
