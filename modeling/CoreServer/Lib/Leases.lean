import Mathlib.Data.List.Nodup

/-!
# Numbers that are leased

A system gives out numbers and takes them back, and may give out again a number that it has got
back, as a kernel does with descriptors.  Whoever holds a number may pass it on or forget it, but
only the holder gives it back.  `Leased` says that what is held is in use, and that no number has
two holders.

As a number comes back, its leases are told apart by serials, which are counted when numbers are
given out.  `Serials` says that no lease has been given back twice, and none that is still held.
-/

/-- Every number that is held is in use, and has one holder. -/
structure Leased {ι ν : Type*} (holds : ι → ν → Prop) (inUse : List ν) : Prop where
  mem : ∀ ⦃i v⦄, holds i v → v ∈ inUse
  unique : ∀ ⦃i j v⦄, holds i v → holds j v → i = j

namespace Leased

variable {ι ν : Type*} {holds holds' : ι → ν → Prop} {inUse : List ν} {i j : ι} {v : ν}

/-- Numbers are forgotten. -/
lemma mono (h : Leased holds inUse) (hsub : ∀ k u, holds' k u → holds k u) :
    Leased holds' inUse where
  mem _ _ hk := h.mem (hsub _ _ hk)
  unique _ _ _ hk hk' := h.unique (hsub _ _ hk) (hsub _ _ hk')

/-- A number that is not in use is given to `j`. -/
lemma acquire (h : Leased holds inUse) (hnew : v ∉ inUse)
    (hsub : ∀ k u, holds' k u → holds k u ∨ (k = j ∧ u = v)) : Leased holds' (v :: inUse) where
  mem k u hk := by
    rcases hsub k u hk with hold | ⟨-, rfl⟩
    · exact List.mem_cons_of_mem _ (h.mem hold)
    · exact List.mem_cons_self
  unique k k' u hk hk' := by
    rcases hsub k u hk with hold | ⟨hkj, rfl⟩
    · rcases hsub k' u hk' with hold' | ⟨-, rfl⟩
      · exact h.unique hold hold'
      · exact absurd (h.mem hold) hnew
    · rcases hsub k' u hk' with hold' | ⟨hkj', -⟩
      · exact absurd (h.mem hold') hnew
      · exact hkj.trans hkj'.symm

/-- `i` passes its number on to `j`. -/
lemma pass (h : Leased holds inUse) (hi : holds i v) (hi' : ¬ holds' i v)
    (hsub : ∀ k u, holds' k u → holds k u ∨ (k = j ∧ u = v)) : Leased holds' inUse where
  mem k u hk := by
    rcases hsub k u hk with hold | ⟨-, rfl⟩
    · exact h.mem hold
    · exact h.mem hi
  unique k k' u hk hk' := by
    -- the old holder of the number does not hold it any more
    have hnot : ∀ {k}, holds k v → ¬ holds' k v := fun hold => h.unique hold hi ▸ hi'
    rcases hsub k u hk with hold | ⟨hkj, rfl⟩
    · rcases hsub k' u hk' with hold' | ⟨-, rfl⟩
      · exact h.unique hold hold'
      · exact absurd hk (hnot hold)
    · rcases hsub k' u hk' with hold' | ⟨hkj', -⟩
      · exact absurd hk' (hnot hold')
      · exact hkj.trans hkj'.symm

/-- `i` gives its number back. -/
lemma release [DecidableEq ν] (h : Leased holds inUse) (hi : holds i v) (hi' : ¬ holds' i v)
    (hsub : ∀ k u, holds' k u → holds k u) : Leased holds' (inUse.erase v) where
  mem k u hk := by
    refine (List.mem_erase_of_ne ?_).2 (h.mem (hsub k u hk))
    rintro rfl
    exact hi' (h.unique (hsub k u hk) hi ▸ hk)
  unique := (h.mono hsub).unique

end Leased

/-- Every number that is held has a serial of its own, and no serial has been given back twice, or
while its number is held. -/
structure Serials {ι ν : Type*} (holds : ι → ν → Prop) (serial : ν → ℕ) (next : ℕ)
    (returned : List ℕ) : Prop where
  lt : ∀ ⦃i v⦄, holds i v → serial v < next
  inj : ∀ ⦃i j v w⦄, holds i v → holds j w → serial v = serial w → v = w
  notReturned : ∀ ⦃i v⦄, holds i v → serial v ∉ returned
  returned_lt : ∀ ⦃c⦄, c ∈ returned → c < next
  nodup : returned.Nodup

namespace Serials

variable {ι ν : Type*} {holds holds' : ι → ν → Prop} {serial : ν → ℕ} {next : ℕ}
  {returned : List ℕ} {i : ι} {v : ν}

/-- Numbers are passed on and forgotten. -/
lemma mono (h : Serials holds serial next returned)
    (hsub : ∀ k u, holds' k u → ∃ j, holds j u) : Serials holds' serial next returned where
  lt k u hk := by
    obtain ⟨j, hj⟩ := hsub k u hk
    exact h.lt hj
  inj k k' u u' hk hk' := by
    obtain ⟨j, hj⟩ := hsub k u hk
    obtain ⟨j', hj'⟩ := hsub k' u' hk'
    exact h.inj hj hj'
  notReturned k u hk := by
    obtain ⟨j, hj⟩ := hsub k u hk
    exact h.notReturned hj
  returned_lt := h.returned_lt
  nodup := h.nodup

/-- A number that nobody holds is given out. -/
lemma acquire [DecidableEq ν] (h : Serials holds serial next returned)
    (hnew : ∀ k, ¬ holds k v) (hsub : ∀ k u, holds' k u → (∃ j, holds j u) ∨ u = v) :
    Serials holds' (Function.update serial v next) (next + 1) returned := by
  -- a number that was held keeps its serial, and the new one has the next
  have hcases : ∀ k u, holds' k u → (u = v ∧ Function.update serial v next u = next) ∨
      (u ≠ v ∧ (∃ j, holds j u) ∧ Function.update serial v next u = serial u) := by
    intro k u hk
    rcases hsub k u hk with ⟨j, hj⟩ | rfl
    · have hne : u ≠ v := fun heq => hnew j (heq ▸ hj)
      exact Or.inr ⟨hne, ⟨j, hj⟩, Function.update_of_ne hne ..⟩
    · exact Or.inl ⟨rfl, Function.update_self ..⟩
  refine ⟨fun k u hk => ?_, fun k k' u u' hk hk' heq => ?_, fun k u hk => ?_, fun c hc => ?_,
    h.nodup⟩
  · rcases hcases k u hk with ⟨-, heq⟩ | ⟨-, ⟨j, hj⟩, heq⟩
    · omega
    · have := h.lt hj
      omega
  · rcases hcases k u hk with ⟨hu, hs⟩ | ⟨-, ⟨j, hj⟩, hs⟩ <;>
      rcases hcases k' u' hk' with ⟨hu', hs'⟩ | ⟨-, ⟨j', hj'⟩, hs'⟩
    · exact hu.trans hu'.symm
    · have := h.lt hj'
      omega
    · have := h.lt hj
      omega
    · exact h.inj hj hj' (hs.symm.trans (heq.trans hs'))
  · rcases hcases k u hk with ⟨-, heq⟩ | ⟨-, ⟨j, hj⟩, heq⟩
    · intro hmem
      have := h.returned_lt hmem
      omega
    · exact heq ▸ h.notReturned hj
  · have := h.returned_lt hc
    omega

/-- A number that is held is given back, and nobody holds it any more. -/
lemma giveBack (h : Serials holds serial next returned) (hv : holds i v)
    (hsub : ∀ k u, holds' k u → (∃ j, holds j u) ∧ u ≠ v) :
    Serials holds' serial next (returned ++ [serial v]) where
  lt k u hk := by
    obtain ⟨⟨j, hj⟩, -⟩ := hsub k u hk
    exact h.lt hj
  inj k k' u u' hk hk' := by
    obtain ⟨⟨j, hj⟩, -⟩ := hsub k u hk
    obtain ⟨⟨j', hj'⟩, -⟩ := hsub k' u' hk'
    exact h.inj hj hj'
  notReturned k u hk hmem := by
    obtain ⟨⟨j, hj⟩, hne⟩ := hsub k u hk
    rcases List.mem_append.1 hmem with hold | hlast
    · exact h.notReturned hj hold
    · exact hne (h.inj hj hv (List.mem_singleton.1 hlast))
  returned_lt c hc := by
    rcases List.mem_append.1 hc with hold | hlast
    · exact h.returned_lt hold
    · exact List.mem_singleton.1 hlast ▸ h.lt hv
  nodup := List.nodup_append.2 ⟨h.nodup, List.nodup_singleton _, fun c hc c' hc' heq => by
    obtain rfl := List.mem_singleton.1 hc'
    exact h.notReturned hv (heq ▸ hc)⟩

end Serials
