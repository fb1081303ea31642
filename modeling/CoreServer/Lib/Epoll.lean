import Mathlib.Data.List.Count
import Mathlib.Data.List.Nodup
import Mathlib.Tactic.Common

/-!
# One-shot epoll sets

The registrations of an epoll instance whose events are all one-shot: a registration yields
one event and then stays disarmed until it is modified.  Descriptors have type `F` and the
user data of a registration has type `P`.

`EpollSet.armed p` counts the armed registrations with the data `p`.  A call adds at most one
of them, with the data it is given, and an event takes one away.  `EpollSet.data fd` is the data
of the descriptor `fd`, armed or not; only a call for this descriptor changes it.
-/

/-- A registered descriptor. -/
structure Registration (F P : Type*) where
  fd : F
  ptr : P
  armed : Bool

/-- The registrations of an epoll instance; a descriptor is registered at most once. -/
structure EpollSet (F P : Type*) where
  registrations : List (Registration F P)
  nodup : (registrations.map Registration.fd).Nodup

namespace EpollSet

variable {F P : Type*} [DecidableEq F]

/-- An epoll instance that has just been created. -/
def empty : EpollSet F P := ⟨[], List.nodup_nil⟩

/-- `EPOLL_CTL_ADD`, which fails if the descriptor is registered. -/
def add (e : EpollSet F P) (fd : F) (ptr : P) : Option (EpollSet F P) :=
  if h : fd ∈ e.registrations.map Registration.fd then none
  else some ⟨⟨fd, ptr, true⟩ :: e.registrations, List.nodup_cons.2 ⟨h, e.nodup⟩⟩

/-- What `EPOLL_CTL_MOD` makes of a registration. -/
def modified (fd : F) (ptr : P) (r : Registration F P) : Registration F P :=
  if r.fd = fd then ⟨fd, ptr, true⟩ else r

/-- What the event of a descriptor makes of a registration. -/
def disarmed (fd : F) (r : Registration F P) : Registration F P :=
  if r.fd = fd then { r with armed := false } else r

omit [DecidableEq F] in
lemma map_fd_map {g : Registration F P → Registration F P} (hg : ∀ r, (g r).fd = r.fd)
    (rs : List (Registration F P)) :
    (rs.map g).map Registration.fd = rs.map Registration.fd := by
  rw [List.map_map]
  exact List.map_congr_left fun r _ => hg r

lemma modified_fd (fd : F) (ptr : P) (r : Registration F P) :
    (modified fd ptr r).fd = r.fd := by
  unfold modified
  split
  · rename_i h
    exact h.symm
  · rfl

lemma disarmed_fd (fd : F) (r : Registration F P) : (disarmed fd r).fd = r.fd := by
  unfold disarmed
  split <;> rfl

/-- `EPOLL_CTL_MOD`, which fails if the descriptor is not registered. -/
def mod (e : EpollSet F P) (fd : F) (ptr : P) : Option (EpollSet F P) :=
  if fd ∈ e.registrations.map Registration.fd then
    some ⟨e.registrations.map (modified fd ptr),
      (map_fd_map (modified_fd fd ptr) e.registrations).symm ▸ e.nodup⟩
  else none

/-- `EPOLL_CTL_DEL`, and what the close of a descriptor does. -/
def del (e : EpollSet F P) (fd : F) : EpollSet F P :=
  ⟨e.registrations.filter fun r => r.fd ≠ fd, (List.filter_sublist.map _).nodup e.nodup⟩

/-- The event of one descriptor: the data of its registration, which is disarmed. -/
def event (e : EpollSet F P) (fd : F) : Option (P × EpollSet F P) :=
  match e.registrations.find? fun r => r.fd = fd && r.armed with
  | none => none
  | some r => some (r.ptr, ⟨e.registrations.map (disarmed fd),
      (map_fd_map (disarmed_fd fd) e.registrations).symm ▸ e.nodup⟩)

/-- `epoll_wait` returning the events of the descriptors `fds`. -/
def wait (e : EpollSet F P) : List F → Option (List P × EpollSet F P)
  | [] => some ([], e)
  | fd :: fds => do
    let (ptr, e) ← e.event fd
    let (ptrs, e) ← wait e fds
    return (ptr :: ptrs, e)

/-- The data of the event that a descriptor can have. -/
def waiting (e : EpollSet F P) (fd : F) : Option P :=
  (e.registrations.find? fun r => r.fd = fd && r.armed).map Registration.ptr

/-! ## The data of a descriptor -/

variable {e e' : EpollSet F P} {fd : F} {ptr : P}

/-- The data with which a descriptor is registered. -/
def data (e : EpollSet F P) (fd : F) : Option P :=
  (e.registrations.find? fun r => r.fd = fd).map Registration.ptr

@[simp] lemma data_empty (fd : F) : (empty : EpollSet F P).data fd = none := rfl

lemma data_add (h : e.add fd ptr = some e') (fd' : F) :
    e'.data fd' = if fd' = fd then some ptr else e.data fd' := by
  unfold add at h
  split at h
  · cases h
  · obtain rfl := Option.some.inj h
    rw [data, List.find?_cons]
    by_cases hfd : fd' = fd
    · simp [hfd]
    · simp [hfd, Ne.symm hfd, data]

/-- A change that keeps the descriptors of the registrations, seen from one of them. -/
lemma find?_map {g : Registration F P → Registration F P} (hg : ∀ r, (g r).fd = r.fd) (fd : F)
    (rs : List (Registration F P)) :
    (rs.map g).find? (fun r => r.fd = fd) = (rs.find? fun r => r.fd = fd).map g := by
  simp only [List.find?_map, Function.comp_def, hg]

lemma data_mod (h : e.mod fd ptr = some e') (fd' : F) :
    e'.data fd' = if fd' = fd then some ptr else e.data fd' := by
  unfold mod at h
  split at h
  · rename_i hmem
    obtain rfl := Option.some.inj h
    obtain ⟨r, hr, rfl⟩ := List.mem_map.1 hmem
    rw [data, find?_map (modified_fd r.fd ptr), data]
    cases hfind : e.registrations.find? fun r' => r'.fd = fd' with
    | none =>
      rw [if_neg]
      · rfl
      · rintro rfl
        simpa using List.find?_eq_none.1 hfind r hr
    | some r' =>
      have hfd := List.find?_some hfind
      simp only [decide_eq_true_eq] at hfd
      subst hfd
      simp only [Option.map_some, modified]
      split <;> rfl
  · cases h

/-- `EPOLL_CTL_MOD` fails for a descriptor that is not registered. -/
lemma mod_of_data_eq_none (h : e.data fd = none) (ptr : P) : e.mod fd ptr = none := by
  refine if_neg fun hmem => ?_
  obtain ⟨r, hr, hfd⟩ := List.mem_map.1 hmem
  rw [data, Option.map_eq_none_iff] at h
  simpa [hfd] using List.find?_eq_none.1 h r hr

lemma data_del (fd fd' : F) : (e.del fd).data fd' = if fd' = fd then none else e.data fd' := by
  simp only [data, del, List.find?_filter]
  by_cases hfd : fd' = fd
  · subst hfd
    rw [if_pos rfl, List.find?_eq_none.2 fun r _ => by simp]
    rfl
  · rw [if_neg hfd]
    congr 2
    ext r
    by_cases hr : r.fd = fd' <;> simp [hr, hfd]

/-- An event changes the data of no descriptor. -/
lemma data_event (h : e.event fd = some (ptr, e')) (fd' : F) : e'.data fd' = e.data fd' := by
  unfold event at h
  split at h
  · cases h
  · obtain ⟨-, rfl⟩ := Prod.mk.inj (Option.some.inj h)
    rw [data, find?_map (disarmed_fd fd), Option.map_map, data]
    congr 1
    funext r
    rw [Function.comp_apply, disarmed]
    split <;> rfl

lemma data_wait {fds : List F} {ptrs : List P} (h : e.wait fds = some (ptrs, e')) (fd' : F) :
    e'.data fd' = e.data fd' := by
  induction fds generalizing e ptrs with
  | nil =>
    obtain ⟨-, rfl⟩ := Prod.mk.inj (Option.some.inj h)
    rfl
  | cons fd fds ih =>
    obtain ⟨⟨ptr, e₁⟩, hevent, h⟩ := Option.bind_eq_some_iff.1 h
    obtain ⟨⟨ptrs', e₂⟩, hwait, h⟩ := Option.bind_eq_some_iff.1 h
    obtain ⟨-, rfl⟩ := Prod.mk.inj (Option.some.inj h)
    rw [ih hwait, data_event hevent]

/-- A descriptor is registered at most once. -/
lemma find?_fd_of_mem {r : Registration F P} (hr : r ∈ e.registrations) :
    e.registrations.find? (fun r' => r'.fd = r.fd) = some r := by
  have hnodup := e.nodup
  generalize e.registrations = rs at hr hnodup
  induction rs with
  | nil => cases hr
  | cons r' rs ih =>
    rw [List.map_cons, List.nodup_cons] at hnodup
    rcases List.mem_cons.1 hr with rfl | hmem
    · rw [List.find?_cons_of_pos (by simp)]
    · have hne : r'.fd ≠ r.fd := fun heq => hnodup.1 (heq ▸ List.mem_map_of_mem hmem)
      rw [List.find?_cons_of_neg (by simpa using hne), ih hmem hnodup.2]

/-! ## Counting the armed registrations -/

variable [DecidableEq P]

/-- The number of armed registrations with the data `p`. -/
def armed (e : EpollSet F P) (p : P) : ℕ :=
  e.registrations.countP fun r => r.armed && (r.ptr = p)

omit [DecidableEq F] in
@[simp] lemma armed_empty (p : P) : (empty : EpollSet F P).armed p = 0 := rfl

lemma armed_add (h : e.add fd ptr = some e') (p : P) :
    e'.armed p = e.armed p + if ptr = p then 1 else 0 := by
  unfold add at h
  split at h
  · cases h
  · obtain rfl := Option.some.inj h
    rw [armed, List.countP_cons]
    simp [armed]

omit [DecidableEq P] in
/-- The other registrations, where a descriptor is registered at most once. -/
lemma filter_ne_of_nodup {r : Registration F P} {rs : List (Registration F P)}
    (h : ((r :: rs).map Registration.fd).Nodup) :
    rs.filter (fun r' => r'.fd ≠ r.fd) = rs ∧
      rs.find? (fun r' => r'.fd = r.fd && r'.armed) = none := by
  rw [List.map_cons, List.nodup_cons] at h
  have hne : ∀ r' ∈ rs, r'.fd ≠ r.fd := fun r' hr' heq => h.1 (heq ▸ List.mem_map_of_mem hr')
  constructor
  · exact List.filter_eq_self.2 fun r' hr' => by simpa using hne r' hr'
  · exact List.find?_eq_none.2 fun r' hr' => by simp [hne r' hr']

lemma countP_eq_del (fd : F) (p : P) {rs : List (Registration F P)}
    (h : (rs.map Registration.fd).Nodup) :
    rs.countP (fun r => r.armed && (r.ptr = p)) =
      (rs.filter fun r => r.fd ≠ fd).countP (fun r => r.armed && (r.ptr = p)) +
        if (rs.find? fun r => r.fd = fd && r.armed).map Registration.ptr = some p then 1
        else 0 := by
  induction rs with
  | nil => simp
  | cons r rs ih =>
    by_cases hr : r.fd = fd
    · -- no other registration has the descriptor
      subst hr
      obtain ⟨hfilter, hfind⟩ := filter_ne_of_nodup h
      rw [List.filter_cons_of_neg (by simp), hfilter, List.countP_cons, List.find?_cons]
      cases harmed : r.armed <;> simp [hfind]
    · have hrest := ih (List.nodup_cons.1 h).2
      rw [List.filter_cons_of_pos (by simpa using hr), List.countP_cons, List.countP_cons, hrest,
        List.find?_cons_of_neg (by simp [hr])]
      omega

/-- The registration of one descriptor counted apart. -/
lemma armed_eq_del (e : EpollSet F P) (fd : F) (p : P) :
    e.armed p = (e.del fd).armed p + if e.waiting fd = some p then 1 else 0 :=
  countP_eq_del fd p e.nodup

lemma armed_del_le (e : EpollSet F P) (fd : F) (p : P) : (e.del fd).armed p ≤ e.armed p := by
  rw [armed_eq_del e fd p]
  exact Nat.le_add_right _ _

lemma armed_del (hwaiting : e.waiting fd ≠ some ptr) : (e.del fd).armed ptr = e.armed ptr := by
  rw [armed_eq_del e fd ptr, if_neg hwaiting, Nat.add_zero]

omit [DecidableEq P] in
/-- A change of the registration of one descriptor leaves the others alone. -/
lemma filter_map_of_ne {fd : F} {g : Registration F P → Registration F P}
    (hfd : ∀ r, (g r).fd = r.fd) (hg : ∀ r, r.fd ≠ fd → g r = r) (rs : List (Registration F P)) :
    (rs.map g).filter (fun r => r.fd ≠ fd) = rs.filter fun r => r.fd ≠ fd := by
  induction rs with
  | nil => rfl
  | cons r rs ih =>
    rw [List.map_cons]
    by_cases hr : r.fd = fd
    · rw [List.filter_cons_of_neg (by simp [hfd, hr]), List.filter_cons_of_neg (by simp [hr]), ih]
    · rw [hg r hr, List.filter_cons_of_pos (by simpa using hr),
        List.filter_cons_of_pos (by simpa using hr), ih]

omit [DecidableEq P] in
lemma find?_modified (fd : F) (ptr : P) {rs : List (Registration F P)}
    (h : fd ∈ rs.map Registration.fd) :
    (rs.map (modified fd ptr)).find? (fun r => r.fd = fd && r.armed) = some ⟨fd, ptr, true⟩ := by
  induction rs with
  | nil => cases h
  | cons r rs ih =>
    rw [List.map_cons]
    by_cases hr : r.fd = fd
    · rw [modified, if_pos hr, List.find?_cons_of_pos (by simp)]
    · have hmem := (List.mem_cons.1 h).resolve_left (Ne.symm hr)
      rw [modified, if_neg hr, List.find?_cons_of_neg (by simp [hr]), ih hmem]

/-- A change of the registration of a descriptor arms its new data. -/
lemma armed_mod (h : e.mod fd ptr = some e') (p : P) :
    e'.armed p = (e.del fd).armed p + if ptr = p then 1 else 0 := by
  unfold mod at h
  split at h
  · rename_i hmem
    obtain rfl := Option.some.inj h
    have hdel := filter_map_of_ne (modified_fd fd ptr) (fun r hr => if_neg hr) e.registrations
    have hfind := find?_modified fd ptr hmem
    rw [armed, countP_eq_del fd p (by rw [map_fd_map (modified_fd fd ptr)]; exact e.nodup), hdel,
      hfind, Option.map_some]
    simp only [Option.some.injEq]
    rfl
  · cases h

lemma armed_mod_le (h : e.mod fd ptr = some e') (p : P) :
    e'.armed p ≤ e.armed p + if ptr = p then 1 else 0 := by
  rw [armed_mod h]
  exact Nat.add_le_add_right (armed_del_le e fd p) _

omit [DecidableEq P] in
lemma find?_disarmed (fd : F) (rs : List (Registration F P)) :
    (rs.map (disarmed fd)).find? (fun r => r.fd = fd && r.armed) = none := by
  refine List.find?_eq_none.2 fun r hr => ?_
  obtain ⟨r', -, rfl⟩ := List.mem_map.1 hr
  by_cases hfd : r'.fd = fd <;> simp [disarmed, hfd]

/-- An event takes an armed registration with its data away. -/
lemma armed_event (h : e.event fd = some (ptr, e')) (p : P) :
    e'.armed p + (if ptr = p then 1 else 0) = e.armed p := by
  unfold event at h
  split at h
  · cases h
  · rename_i r hfind
    rw [Option.some.injEq, Prod.mk.injEq] at h
    obtain ⟨rfl, rfl⟩ := h
    have hdel := filter_map_of_ne (disarmed_fd fd) (fun r hr => if_neg hr) e.registrations
    have hwaiting : e.waiting fd = some r.ptr := by rw [waiting, hfind, Option.map_some]
    rw [armed_eq_del e fd p, hwaiting, armed,
      countP_eq_del fd p (by rw [map_fd_map (disarmed_fd fd)]; exact e.nodup), hdel,
      find?_disarmed, Option.map_none, if_neg (by simp), Nat.add_zero]
    simp only [Option.some.injEq]
    rfl

/-- `epoll_wait` takes an armed registration away for each event that it returns. -/
theorem armed_wait {fds : List F} {ptrs : List P} (h : e.wait fds = some (ptrs, e')) (p : P) :
    e'.armed p + ptrs.count p = e.armed p := by
  induction fds generalizing e ptrs with
  | nil =>
    simp only [wait, Option.some.injEq, Prod.mk.injEq] at h
    obtain ⟨rfl, rfl⟩ := h
    simp
  | cons fd fds ih =>
    simp only [wait, Option.bind_eq_bind, Option.bind_eq_some_iff, Option.pure_def,
      Option.some.injEq, Prod.mk.injEq, Prod.exists] at h
    obtain ⟨ptr, e₁, hevent, ptrs', e₂, hwait, rfl, rfl⟩ := h
    -- the first event, then the others in the set that it leaves
    have h₁ := armed_event hevent p
    have h₂ := ih hwait
    rw [List.count_cons]
    simp only [beq_iff_eq]
    omega

/-- The descriptors that are registered with the data `p`. -/
def fds (e : EpollSet F P) (p : P) : List F :=
  (e.registrations.filter fun r => r.ptr = p).map Registration.fd

lemma mem_fds {p : P} : fd ∈ e.fds p ↔ e.data fd = some p := by
  simp only [fds, List.mem_map, List.mem_filter, decide_eq_true_eq, data, Option.map_eq_some_iff]
  constructor
  · rintro ⟨r, ⟨hr, rfl⟩, rfl⟩
    exact ⟨r, find?_fd_of_mem hr, rfl⟩
  · rintro ⟨r, hfind, rfl⟩
    have hfd := List.find?_some hfind
    exact ⟨r, ⟨List.mem_of_find?_eq_some hfind, rfl⟩, by simpa using hfd⟩

end EpollSet
