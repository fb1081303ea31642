import Mathlib.Data.List.AList

/-!
# Maps that are updated in place

Two operations on association lists that imperative maps have: an update that leaves the order of
the entries as it is (`AList.replace`), and an insert that does nothing if the key is there
(`AList.insertNew`).  If inserts are counted, the count is the number of entries exactly if all the
keys were new (`AList.length_keys_insertAll_eq_iff`).
-/

namespace List

variable {α : Type*} {β : α → Type*} [DecidableEq α]

lemma kreplace_cons_self (a : α) (b b' : β a) (l : List (Sigma β)) :
    kreplace a b (⟨a, b'⟩ :: l) = ⟨a, b⟩ :: l :=
  lookmap_cons_some _ _ (if_pos rfl)

lemma kreplace_cons_of_ne {a : α} {s : Sigma β} (h : a ≠ s.1) (b : β a) (l : List (Sigma β)) :
    kreplace a b (s :: l) = s :: kreplace a b l :=
  lookmap_cons_none _ _ (if_neg h)

lemma dlookup_kreplace_self {a : α} {l : List (Sigma β)} (h : a ∈ l.keys) (b : β a) :
    dlookup a (kreplace a b l) = some b := by
  induction l with
  | nil => nomatch h
  | cons s l ih =>
    obtain ⟨k, v⟩ := s
    by_cases heq : a = k
    · subst heq
      rw [kreplace_cons_self, dlookup_cons_eq]
    · rw [kreplace_cons_of_ne heq, dlookup_cons_ne _ _ heq]
      exact ih ((mem_cons.1 h).resolve_left heq)

lemma dlookup_kreplace_of_ne {a a' : α} (h : a' ≠ a) (b : β a) (l : List (Sigma β)) :
    dlookup a' (kreplace a b l) = dlookup a' l := by
  induction l with
  | nil => rfl
  | cons s l ih =>
    obtain ⟨k, v⟩ := s
    by_cases heq : a = k
    · subst heq
      rw [kreplace_cons_self, dlookup_cons_ne _ _ h, dlookup_cons_ne _ _ h]
    · rw [kreplace_cons_of_ne heq]
      by_cases heq' : a' = k
      · subst heq'
        rw [dlookup_cons_eq, dlookup_cons_eq]
      · rw [dlookup_cons_ne _ _ heq', dlookup_cons_ne _ _ heq', ih]

end List

namespace AList

variable {α : Type*} {β : α → Type*} [DecidableEq α] {a a' : α} {m : AList β}

lemma lookup_replace_self (h : a ∈ m) (b : β a) : (m.replace a b).lookup a = some b :=
  List.dlookup_kreplace_self h b

lemma lookup_replace_of_ne (h : a' ≠ a) (b : β a) (m : AList β) :
    (m.replace a b).lookup a' = m.lookup a' :=
  List.dlookup_kreplace_of_ne h b m.entries

/-! ## Inserts of new keys -/

/-- The insert of a map that keeps the entry that it has. -/
def insertNew (a : α) (b : β a) (m : AList β) : AList β :=
  if a ∈ m then m else m.insert a b

lemma mem_insertNew {b : β a} : a' ∈ m.insertNew a b ↔ a' = a ∨ a' ∈ m := by
  unfold insertNew
  split
  · rename_i hmem
    refine (or_iff_right_of_imp ?_).symm
    rintro rfl
    exact hmem
  · rw [mem_insert]

/-- Every entry is the new one or an old one. -/
lemma lookup_insertNew {b : β a} {b' : β a'} (h : (m.insertNew a b).lookup a' = some b') :
    (⟨a', b'⟩ : Sigma β) = ⟨a, b⟩ ∨ m.lookup a' = some b' := by
  unfold insertNew at h
  split at h
  · exact Or.inr h
  · by_cases heq : a' = a
    · subst heq
      rw [lookup_insert] at h
      exact Or.inl (Option.some.inj h ▸ rfl)
    · rw [lookup_insert_ne heq] at h
      exact Or.inr h

lemma length_keys_insertNew {b : β a} :
    (m.insertNew a b).keys.length = m.keys.length + if a ∈ m then 0 else 1 := by
  unfold insertNew
  split
  · rfl
  · rename_i hnew
    rw [keys_insert, List.erase_of_not_mem (mt mem_keys.2 hnew), List.length_cons]

/-- Entries are inserted one after the other. -/
def insertAll (entries : List (Sigma β)) (m : AList β) : AList β :=
  entries.foldl (fun m entry => m.insertNew entry.1 entry.2) m

lemma insertAll_cons (entry : Sigma β) (entries : List (Sigma β)) (m : AList β) :
    m.insertAll (entry :: entries) = (m.insertNew entry.1 entry.2).insertAll entries := rfl

lemma insertAll_append (entries entries' : List (Sigma β)) (m : AList β) :
    m.insertAll (entries ++ entries') = (m.insertAll entries).insertAll entries' :=
  List.foldl_append

/-- Every entry is one that has been inserted or an old one. -/
lemma lookup_insertAll {entries : List (Sigma β)} {b : β a}
    (h : (m.insertAll entries).lookup a = some b) :
    (⟨a, b⟩ : Sigma β) ∈ entries ∨ m.lookup a = some b := by
  induction entries generalizing m with
  | nil => exact Or.inr h
  | cons entry entries ih =>
    rcases ih h with hmem | hold
    · exact Or.inl (List.mem_cons_of_mem _ hmem)
    · refine (lookup_insertNew hold).imp_left fun heq => ?_
      rw [heq]
      exact List.mem_cons_self

lemma length_keys_insertAll_le (entries : List (Sigma β)) (m : AList β) :
    (m.insertAll entries).keys.length ≤ m.keys.length + entries.length := by
  induction entries generalizing m with
  | nil => exact le_rfl
  | cons entry entries ih =>
    have hle := ih (m.insertNew entry.1 entry.2)
    rw [length_keys_insertNew] at hle
    rw [insertAll_cons, List.length_cons]
    split at hle <;> omega

/-- **When inserts can be counted.**  As many entries are added as are inserted exactly if the keys
are new and distinct. -/
theorem length_keys_insertAll_eq_iff (entries : List (Sigma β)) (m : AList β) :
    (m.insertAll entries).keys.length = m.keys.length + entries.length ↔
      entries.NodupKeys ∧ ∀ a ∈ entries.keys, a ∉ m := by
  induction entries generalizing m with
  | nil => simp [insertAll]
  | cons entry entries ih =>
    have hle := length_keys_insertAll_le entries (m.insertNew entry.1 entry.2)
    have ih := ih (m.insertNew entry.1 entry.2)
    rw [length_keys_insertNew] at hle ih
    rw [insertAll_cons, List.length_cons, List.nodupKeys_cons, List.keys_cons, List.forall_mem_cons]
    by_cases hmem : entry.1 ∈ m
    · rw [if_pos hmem] at hle
      exact iff_of_false (by omega) fun h => h.2.1 hmem
    · rw [if_neg hmem, Nat.add_right_comm, Nat.add_assoc] at ih
      rw [ih]
      simp only [mem_insertNew, not_or]
      constructor
      · rintro ⟨hnodup, hnew⟩
        exact ⟨⟨fun h => (hnew _ h).1 rfl, hnodup⟩, hmem, fun a ha => (hnew a ha).2⟩
      · rintro ⟨⟨hnotMem, hnodup⟩, -, hnew⟩
        exact ⟨hnodup, fun a ha => ⟨fun heq => hnotMem (heq ▸ ha), hnew a ha⟩⟩

end AList
