import Mathlib.Data.List.Infix

/-!
# Machines with labelled, deterministic steps

Every choice that a running system cannot make for itself (which thread moves next, what a
system call returns) is carried by the label of the step, so a step is a partial function
of the state and the label, and a run is a list of labels.  A label whose step is `none` is
not enabled, or has no defined behaviour.

The file gives the rules by which facts about one step become facts about whole runs:

* `StepMachine.exec_invariant`: a predicate kept by every step holds wherever a run ends;
* `StepMachine.Along`: what holds of every step a run attempts;
* `StepMachine.Always`: what holds in every state a run passes through;
* `StepMachine.always_of_along`: an invariant that only the steps satisfying a side
  condition keep, along the runs all of whose steps satisfy it;
* `StepMachine.along_of_along`: the same for what holds of the steps;
* `StepMachine.always_of_invariant` and `StepMachine.along_of_invariant`: the same for what every
  step keeps;
* `StepMachine.withHistory`: a machine with a history variable.
-/

/-- A machine with states `σ` and labels `α`. -/
structure StepMachine (σ α : Type*) where
  /-- The state after the step labelled `a`, if that step can be taken. -/
  step : σ → α → Option σ

namespace StepMachine

variable {σ α : Type*} (M : StepMachine σ α)

/-- The state in which the run labelled `as` ends, if all its steps can be taken. -/
def exec : σ → List α → Option σ
  | s, [] => some s
  | s, a :: as => (M.step s a).bind fun s' => exec s' as

@[simp] lemma exec_nil (s : σ) : M.exec s [] = some s := rfl

lemma exec_cons (s : σ) (a : α) (as : List α) :
    M.exec s (a :: as) = (M.step s a).bind fun s' => M.exec s' as := rfl

variable {M}

lemma exec_cons_eq_some {s t : σ} {a : α} {as : List α} :
    M.exec s (a :: as) = some t ↔ ∃ s', M.step s a = some s' ∧ M.exec s' as = some t := by
  rw [exec_cons, Option.bind_eq_some_iff]

/-- **The invariant rule.**  A predicate kept by every step holds wherever a run that
starts in it ends. -/
theorem exec_invariant {I : σ → Prop} (hstep : ∀ s a s', I s → M.step s a = some s' → I s')
    {s t : σ} {as : List α} (hs : I s) (h : M.exec s as = some t) : I t := by
  induction as generalizing s with
  | nil =>
    obtain rfl : s = t := Option.some.inj h
    exact hs
  | cons a as ih =>
    obtain ⟨s', h₁, h₂⟩ := exec_cons_eq_some.1 h
    exact ih (hstep s a s' hs h₁) h₂

/-- What follows from a test that the last state of a run passes. -/
lemma exists_exec_and {P : σ → Prop} (p : σ → Prop) {s : σ} {as : List α}
    (h : ∃ t ∈ M.exec s as, p t) (hP : ∀ t, M.exec s as = some t → p t → P t) :
    ∃ t, M.exec s as = some t ∧ P t :=
  h.imp fun t ht => ⟨ht.1, hP t ht.1 ht.2⟩

/-- The invariant rule for a machine that never gets stuck under the invariant: every run
can be taken to its end. -/
theorem exec_total {I : σ → Prop} (hstep : ∀ s a, I s → ∃ s', M.step s a = some s' ∧ I s')
    {s : σ} (hs : I s) (as : List α) : ∃ t, M.exec s as = some t ∧ I t := by
  induction as generalizing s with
  | nil => exact ⟨s, rfl, hs⟩
  | cons a as ih =>
    obtain ⟨s', h₁, hs'⟩ := hstep s a hs
    obtain ⟨t, h₂, ht⟩ := ih hs'
    exact ⟨t, exec_cons_eq_some.2 ⟨s', h₁, h₂⟩, ht⟩

/-! ## What holds along a run -/

variable (M)

/-- `P` holds of every step that the run `as` from `s` attempts, in the state in which it
is attempted.  The run ends at the first step that cannot be taken; that step counts. -/
def Along (P : σ → α → Prop) : σ → List α → Prop
  | _, [] => True
  | s, a :: as => P s a ∧ ∀ s', M.step s a = some s' → Along P s' as

/-- `P` holds in every state that the run `as` from `s` passes through, its first and its
last included. -/
def Always (P : σ → Prop) (s : σ) (as : List α) : Prop :=
  ∀ bs t, bs <+: as → M.exec s bs = some t → P t

variable {M}

@[simp] lemma along_nil (P : σ → α → Prop) (s : σ) : M.Along P s [] := trivial

lemma along_cons {P : σ → α → Prop} {s : σ} {a : α} {as : List α} :
    M.Along P s (a :: as) ↔ P s a ∧ ∀ s', M.step s a = some s' → M.Along P s' as := Iff.rfl

lemma along_cons_of_step {P : σ → α → Prop} {s s' : σ} {a : α} (h : M.step s a = some s')
    {as : List α} : M.Along P s (a :: as) ↔ P s a ∧ M.Along P s' as := by
  rw [along_cons, h]
  simp

lemma exec_cons_of_step {s s' : σ} {a : α} (h : M.step s a = some s') {as : List α} :
    M.exec s (a :: as) = M.exec s' as := by
  rw [exec_cons, h, Option.bind_some]

/-- A run goes on where its beginning has ended. -/
lemma exec_append {s t : σ} {as : List α} (h : M.exec s as = some t) (bs : List α) :
    M.exec s (as ++ bs) = M.exec t bs := by
  induction as generalizing s with
  | nil =>
    obtain rfl : s = t := Option.some.inj h
    rfl
  | cons a as ih =>
    obtain ⟨s', h₁, h₂⟩ := exec_cons_eq_some.1 h
    rw [List.cons_append, exec_cons_of_step h₁, ih h₂]

lemma exec_append_eq_some {s t : σ} {as bs : List α} :
    M.exec s (as ++ bs) = some t ↔ ∃ u, M.exec s as = some u ∧ M.exec u bs = some t := by
  induction as generalizing s with
  | nil => simp
  | cons a as ih =>
    rw [List.cons_append, exec_cons_eq_some]
    simp only [ih, exec_cons_eq_some]
    constructor
    · rintro ⟨s', h, u, hu, ht⟩
      exact ⟨u, ⟨s', h, hu⟩, ht⟩
    · rintro ⟨u, ⟨s', h, hu⟩, ht⟩
      exact ⟨s', h, u, hu, ht⟩

lemma along_append {P : σ → α → Prop} {s t : σ} {as : List α} (h : M.exec s as = some t)
    (bs : List α) : M.Along P s (as ++ bs) ↔ M.Along P s as ∧ M.Along P t bs := by
  induction as generalizing s with
  | nil =>
    obtain rfl : s = t := Option.some.inj h
    simp
  | cons a as ih =>
    obtain ⟨s', h₁, h₂⟩ := exec_cons_eq_some.1 h
    rw [List.cons_append, along_cons_of_step h₁, along_cons_of_step h₁, ih h₂, and_assoc]

/-- What holds of every step holds along every run. -/
lemma along_of_forall {P : σ → α → Prop} (h : ∀ s a, P s a) (s : σ) (as : List α) :
    M.Along P s as := by
  induction as generalizing s with
  | nil => trivial
  | cons a as ih => exact ⟨h s a, fun s' _ => ih s'⟩

/-- A property of the steps that can be evaluated can be evaluated along a run. -/
instance decidableAlong (P : σ → α → Prop) [∀ s a, Decidable (P s a)] :
    ∀ s as, Decidable (M.Along P s as)
  | _, [] => inferInstanceAs (Decidable True)
  | s, a :: as =>
    have : DecidablePred fun s' => M.Along P s' as := fun s' => decidableAlong P s' as
    inferInstanceAs (Decidable (P s a ∧ ∀ s' ∈ M.step s a, M.Along P s' as))

/-- A run whose steps satisfy `P` has prefixes whose steps satisfy `P`. -/
lemma Along.of_prefix {P : σ → α → Prop} {s : σ} {as bs : List α} (h : M.Along P s as)
    (hpre : bs <+: as) : M.Along P s bs := by
  induction bs generalizing s as with
  | nil => trivial
  | cons b bs ih =>
    obtain ⟨cs, rfl⟩ := hpre
    rw [List.cons_append, along_cons] at h
    exact ⟨h.1, fun s' hs' => ih (h.2 s' hs') (List.prefix_append _ _)⟩

lemma Along.and {P Q : σ → α → Prop} {s : σ} {as : List α} (hP : M.Along P s as)
    (hQ : M.Along Q s as) : M.Along (fun s a => P s a ∧ Q s a) s as := by
  induction as generalizing s with
  | nil => trivial
  | cons a as ih => exact ⟨⟨hP.1, hQ.1⟩, fun s' hs' => ih (hP.2 s' hs') (hQ.2 s' hs')⟩

/-- Two properties of a step that agree under an invariant agree along the runs whose steps
all satisfy the side condition that keeps the invariant. -/
theorem along_congr {I : σ → Prop} {G P Q : σ → α → Prop}
    (hstep : ∀ s a s', I s → G s a → M.step s a = some s' → I s')
    (hPQ : ∀ s a, I s → G s a → (P s a ↔ Q s a)) {s : σ} {as : List α}
    (hs : I s) (hG : M.Along G s as) : M.Along P s as ↔ M.Along Q s as := by
  induction as generalizing s with
  | nil => simp
  | cons a as ih =>
    rw [along_cons, along_cons, hPQ s a hs hG.1]
    exact and_congr_right fun _ => forall_congr' fun s' => forall_congr' fun h =>
      ih (hstep s a s' hs hG.1 h) (hG.2 s' h)

/-- The invariant rule for the runs whose steps all satisfy a side condition. -/
theorem exec_invariant_along {I : σ → Prop} {G : σ → α → Prop}
    (hstep : ∀ s a s', I s → G s a → M.step s a = some s' → I s') {s t : σ} {as : List α}
    (hs : I s) (hG : M.Along G s as) (h : M.exec s as = some t) : I t := by
  induction as generalizing s with
  | nil =>
    obtain rfl : s = t := Option.some.inj h
    exact hs
  | cons a as ih =>
    obtain ⟨s', h₁, h₂⟩ := exec_cons_eq_some.1 h
    exact ih (hstep s a s' hs hG.1 h₁) (hG.2 s' h₁) h₂

/-- **Safety under a side condition.**  If every step that satisfies `G` keeps `I`, and `I`
implies `P`, then `P` holds throughout every run whose steps all satisfy `G`. -/
theorem always_of_along {I P : σ → Prop} {G : σ → α → Prop}
    (hstep : ∀ s a s', I s → G s a → M.step s a = some s' → I s') (hIP : ∀ s, I s → P s)
    {s : σ} {as : List α} (hs : I s) (hG : M.Along G s as) : M.Always P s as :=
  fun _ _ hpre h => hIP _ (exec_invariant_along hstep hs (hG.of_prefix hpre) h)

/-- **Safety.**  If every step keeps `I`, and `I` implies `P`, then `P` holds throughout every
run. -/
theorem always_of_invariant {I P : σ → Prop} (hstep : ∀ s a s', I s → M.step s a = some s' → I s')
    (hIP : ∀ s, I s → P s) {s : σ} (hs : I s) (as : List α) : M.Always P s as :=
  fun _ _ _ h => hIP _ (exec_invariant hstep hs h)

/-- **Steps under a side condition.**  What an invariant and the side condition that keeps it
imply of a step holds of every step of a run whose steps all satisfy the side condition. -/
theorem along_of_along {I : σ → Prop} {G P : σ → α → Prop}
    (hstep : ∀ s a s', I s → G s a → M.step s a = some s' → I s')
    (hIP : ∀ s a, I s → G s a → P s a) {s : σ} {as : List α} (hs : I s) (hG : M.Along G s as) :
    M.Along P s as := by
  induction as generalizing s with
  | nil => trivial
  | cons a as ih =>
    exact ⟨hIP s a hs hG.1, fun s' hs' => ih (hstep s a s' hs hG.1 hs') (hG.2 s' hs')⟩

/-- If every step keeps `I`, then what `I` implies of a step holds of every step of a run. -/
theorem along_of_invariant {I : σ → Prop} {P : σ → α → Prop}
    (hstep : ∀ s a s', I s → M.step s a = some s' → I s') (hIP : ∀ s a, I s → P s a) {s : σ}
    (hs : I s) (as : List α) : M.Along P s as :=
  along_of_along (G := fun _ _ => True) (fun s a s' hs _ h => hstep s a s' hs h)
    (fun s a hs _ => hIP s a hs) hs (along_of_forall (fun _ _ => trivial) s as)

lemma Always.tail {P : σ → Prop} {s s' : σ} {a : α} {as : List α}
    (h : M.Always P s (a :: as)) (hs' : M.step s a = some s') : M.Always P s' as :=
  fun bs t hpre ht => h (a :: bs) t (List.cons_prefix_cons.2 ⟨rfl, hpre⟩)
    (exec_cons_eq_some.2 ⟨s', hs', ht⟩)

/-- **The converse rule.**  If, under an invariant, every step between two states
satisfying `P` satisfies `G`, then along the runs that stay in `P` every step does; `hstuck`
covers a last step that cannot be taken. -/
theorem along_of_always {I P : σ → Prop} {G : σ → α → Prop}
    (hstep : ∀ s a s', I s → M.step s a = some s' → I s')
    (hG : ∀ s a s', I s → M.step s a = some s' → P s' → G s a)
    (hstuck : ∀ s a, M.step s a = none → G s a) {s : σ} {as : List α} (hs : I s)
    (h : M.Always P s as) : M.Along G s as := by
  induction as generalizing s with
  | nil => trivial
  | cons a as ih =>
    refine ⟨?_, fun s' hs' => ih (hstep s a s' hs hs') (h.tail hs')⟩
    cases hs' : M.step s a with
    | none => exact hstuck s a hs'
    | some s' =>
      have hone : M.exec s [a] = some s' := exec_cons_eq_some.2 ⟨s', hs', rfl⟩
      exact hG s a s' hs hs' (h [a] s' (List.cons_prefix_cons.2 ⟨rfl, List.nil_prefix⟩) hone)

/-- The converse rule for a run that can be taken to its end. -/
theorem along_of_always_of_exec {I P : σ → Prop} {G : σ → α → Prop}
    (hstep : ∀ s a s', I s → M.step s a = some s' → I s')
    (hG : ∀ s a s', I s → P s → M.step s a = some s' → P s' → G s a) {s t : σ} {as : List α}
    (hs : I s)
    (hexec : M.exec s as = some t) (h : M.Always P s as) : M.Along G s as := by
  induction as generalizing s with
  | nil => trivial
  | cons a as ih =>
    obtain ⟨s', hs', hrest⟩ := exec_cons_eq_some.1 hexec
    refine (along_cons_of_step hs').2 ⟨?_, ih (hstep s a s' hs hs') hrest (h.tail hs')⟩
    exact hG s a s' hs (h [] s List.nil_prefix rfl) hs'
      (h [a] s' (List.cons_prefix_cons.2 ⟨rfl, List.nil_prefix⟩)
        (exec_cons_eq_some.2 ⟨s', hs', rfl⟩))

/-! ## History variables -/

/-- The machine that carries a record of its steps along with its state. -/
def withHistory {η : Type*} (M : StepMachine σ α) (record : σ → α → η → η) :
    StepMachine (σ × η) α :=
  ⟨fun s a => (M.step s.1 a).map fun s' => (s', record s.1 a s.2)⟩

section History

variable {η : Type*} {record : σ → α → η → η}

lemma withHistory_step_eq_some {s s' : σ × η} {a : α} :
    (M.withHistory record).step s a = some s' ↔
      M.step s.1 a = some s'.1 ∧ s'.2 = record s.1 a s.2 := by
  simp only [withHistory, Option.map_eq_some_iff, Prod.ext_iff]
  constructor
  · rintro ⟨t, ht, rfl, hrecord⟩
    exact ⟨ht, hrecord.symm⟩
  · rintro ⟨hstep, hrecord⟩
    exact ⟨s'.1, hstep, rfl, hrecord.symm⟩

/-- A run with a history is a run. -/
lemma exec_of_withHistory {s t : σ × η} {as : List α}
    (h : (M.withHistory record).exec s as = some t) : M.exec s.1 as = some t.1 := by
  induction as generalizing s with
  | nil =>
    obtain rfl : s = t := Option.some.inj h
    rfl
  | cons a as ih =>
    obtain ⟨s', hstep, hrest⟩ := exec_cons_eq_some.1 h
    rw [exec_cons_of_step (withHistory_step_eq_some.1 hstep).1]
    exact ih hrest

/-- The record does not influence the steps. -/
lemma along_withHistory {P : σ → α → Prop} {s : σ} {h : η} {as : List α} :
    (M.withHistory record).Along (fun s a => P s.1 a) (s, h) as ↔ M.Along P s as := by
  induction as generalizing s h with
  | nil => exact Iff.rfl
  | cons a as ih =>
    rw [along_cons, along_cons]
    refine and_congr_right fun _ => ⟨fun hrest s' hs' => ?_, fun hrest s' hs' => ?_⟩
    · exact ih.1 (hrest (s', record s a h) (withHistory_step_eq_some.2 ⟨hs', rfl⟩))
    · exact ih.2 (hrest s'.1 (withHistory_step_eq_some.1 hs').1)

end History

end StepMachine
