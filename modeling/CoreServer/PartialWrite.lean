import CoreServer.SendThread
import Mathlib.Algebra.Order.BigOperators.Group.List

/-!
# What `DoSend` makes of the result of `writev`

After a partial `writev` the second loop of `DoSend` looks for the first packet that is longer
than the result, and leaves the result as it is from packet to packet; the offset in that packet
is what the packet has more than the result.  The entries put in `mSendJob` start therefore at
the end of what has been written only when this offset happens to be the right one.

The bytes of packets are compared in every memory, which is to compare their addresses.

The second part is about the numbers: the total and the result are `Int32`s, the lengths are not,
and the result of a failed call is compared with them as a `size_t`.
-/

namespace CoreServer

/-- Adjacent stretches of memory. -/
lemma IoVec.bytes_add {β : Type} (mem : ℤ → β) (a : ℤ) (k l : ℕ) :
    IoVec.bytes mem ⟨a, k + l⟩ = IoVec.bytes mem ⟨a, k⟩ ++ IoVec.bytes mem ⟨a + k, l⟩ := by
  simp only [IoVec.bytes_eq_map, List.range_add, List.map_append, List.map_map, Function.comp_def,
    Nat.cast_add, Int.add_assoc]

namespace SendRun

variable {packets before after : List IoVec} {v : IoVec} {result : ℤ} {n : ℕ}

/-- The addresses of the bytes of a list of packets. -/
def addresses (packets : List IoVec) : List ℤ := bytesOf id packets

lemma addresses_append (vs ws : List IoVec) :
    addresses (vs ++ ws) = addresses vs ++ addresses ws := bytesOf_append id vs ws

lemma addresses_cons (v : IoVec) (vs : List IoVec) :
    addresses (v :: vs) = v.bytes id ++ addresses vs := rfl

lemma length_addresses (packets : List IoVec) :
    (addresses packets).length = (packets.map IoVec.iov_len).sum := length_bytesOf id packets

lemma bytesOf_eq_map_addresses {β : Type} (mem : ℤ → β) (packets : List IoVec) :
    bytesOf mem packets = (addresses packets).map mem := by
  rw [addresses, bytesOf, bytesOf, List.map_flatten, List.map_map]
  refine congrArg List.flatten (List.map_congr_left fun v _ => ?_)
  simp [IoVec.bytes_eq_map]

/-- Two lists of addresses hold the same bytes in every memory only if they are equal. -/
lemma forall_map_eq_iff {as bs : List ℤ} :
    (∀ mem : ℤ → Byte, as.map mem = bs.map mem) ↔ as = bs := by
  constructor
  · intro h
    have hlen : as.length = bs.length := by
      have hmap := congrArg List.length (h fun _ => 0)
      rwa [List.length_map, List.length_map] at hmap
    refine List.ext_getElem hlen fun i hi hi' => ?_
    -- a memory that holds one only at the address in question
    have hget := List.getElem_of_eq (h fun a => if a = as[i] then 1 else 0)
      (by rwa [List.length_map])
    rw [List.getElem_map, List.getElem_map, if_pos rfl] at hget
    by_contra hne
    rw [if_neg (Ne.symm hne)] at hget
    exact absurd hget (by decide)
  · rintro rfl mem
    rfl

/-! ## The entries that are stored -/

lemma iov_len_le_sum {u : IoVec} (h : u ∈ packets) :
    u.iov_len ≤ (packets.map IoVec.iov_len).sum :=
  List.le_sum_of_mem (List.mem_map_of_mem h)

/-- The entries that `DoSend` puts in `mSendJob` when `writev` has returned `result`. -/
def remainder (packets : List IoVec) (result : ℤ) : List IoVec :=
  (addRemainder ⟨[]⟩ (cutPackets result packets).1 (cutPackets result packets).2).mSendPackets

lemma cutPackets_of_le (h : ∀ u ∈ packets, ¬ toSize result < u.iov_len) :
    cutPackets result packets = (0, []) := by
  induction packets with
  | nil => rfl
  | cons u vs ih =>
    rw [cutPackets, if_neg (h u List.mem_cons_self)]
    exact ih fun u hu => h u (List.mem_cons_of_mem _ hu)

lemma cutPackets_append (h : ∀ u ∈ before, ¬ toSize result < u.iov_len)
    (hv : toSize result < v.iov_len) :
    cutPackets result (before ++ v :: after) =
      (toInt32 (toSize (v.iov_len - toSize result)), v :: after) := by
  induction before with
  | nil => rw [List.nil_append, cutPackets, if_pos hv]
  | cons u vs ih =>
    rw [List.cons_append, cutPackets, if_neg (h u List.mem_cons_self)]
    exact ih fun u hu => h u (List.mem_cons_of_mem _ hu)

/-- Behind the first packet, the packets are stored as they are. -/
lemma addRemainder_zero (job : SendJob) (h : ∀ u ∈ packets, u.iov_len < 2 ^ 64) :
    (addRemainder job 0 packets).mSendPackets = job.mSendPackets ++ packets := by
  induction packets generalizing job with
  | nil => exact (List.append_nil _).symm
  | cons u vs ih =>
    have hlen := h u List.mem_cons_self
    have hsize : (toSize (u.iov_len - toSize 0)).toNat = u.iov_len := by
      simp only [toSize]
      omega
    have hentry : job.addPackets (u.iov_base + 0) u.iov_len = ⟨job.mSendPackets ++ [u]⟩ := by
      rw [Int.add_zero]
      rfl
    rw [addRemainder, hsize, hentry, ih _ fun u hu => h u (List.mem_cons_of_mem _ hu),
      List.append_assoc]
    rfl

/-- The offset is at most what the packet has more than the result. -/
lemma startOffset_le {x : ℤ} (h : 0 < x) :
    -2 ^ 31 ≤ toInt32 x ∧ toInt32 x < 2 ^ 31 ∧ toInt32 x ≤ x := by
  simp only [toInt32, Int.bmod]
  split <;> omega

/-- The entries, when `v` is the first packet longer than the result. -/
lemma remainder_append (hresult : 0 ≤ result) (h : ∀ u ∈ before, (u.iov_len : ℤ) ≤ result)
    (hv : result < v.iov_len) (hlen : v.iov_len < 2 ^ 63)
    (hafter : ∀ u ∈ after, u.iov_len < 2 ^ 64) :
    remainder (before ++ v :: after) result =
      ⟨v.iov_base + toInt32 (v.iov_len - result),
        (v.iov_len - toInt32 (v.iov_len - result)).toNat⟩ :: after := by
  have hsize : toSize result = result := Int.emod_eq_of_lt hresult (by omega)
  have hrest : toSize (v.iov_len - result) = v.iov_len - result :=
    Int.emod_eq_of_lt (by omega) (by omega)
  obtain ⟨hge, hlt, hle⟩ := startOffset_le (x := v.iov_len - result) (by omega)
  rw [remainder, cutPackets_append (by simpa only [hsize, not_lt] using h) (by rwa [hsize]), hsize,
    hrest, addRemainder, addRemainder_zero _ hafter]
  have hentry : (toSize (v.iov_len - toSize (toInt32 (v.iov_len - result)))).toNat =
      (v.iov_len - toInt32 (v.iov_len - result)).toNat := by
    simp only [toSize]
    omega
  rw [hentry]
  rfl

/-- Entries that start `offset` bytes behind the base of `v` are the bytes from the `n`th on
exactly if the offset is right; an offset that points before `v` is right if the packets before
it happen to end there. -/
lemma addresses_remainder_iff {offset : ℤ} (hoffset : offset ≤ v.iov_len)
    (hn : n < ((before ++ v :: after).map IoVec.iov_len).sum) :
    addresses (⟨v.iov_base + offset, (v.iov_len - offset).toNat⟩ :: after) =
        (addresses (before ++ v :: after)).drop n ↔
      offset = n - (before.map IoVec.iov_len).sum ∧
        (addresses before).drop n =
          IoVec.bytes id ⟨v.iov_base - ((before.map IoVec.iov_len).sum - n : ℕ),
            (before.map IoVec.iov_len).sum - n⟩ := by
  have hbefore := length_addresses before
  rw [List.map_append, List.sum_append, List.map_cons, List.sum_cons] at hn
  generalize htotal : (before.map IoVec.iov_len).sum = total at hbefore hn ⊢
  have hkey : offset = n - total →
      (addresses (⟨v.iov_base + offset, (v.iov_len - offset).toNat⟩ :: after) =
          (addresses (before ++ v :: after)).drop n ↔
        (addresses before).drop n =
          IoVec.bytes id ⟨v.iov_base - (total - n : ℕ), total - n⟩) := by
    rintro rfl
    rw [addresses_append, addresses_cons, addresses_cons]
    rcases Nat.le_total total n with hle | hle
    · -- the packets before `v` have been written
      obtain ⟨d, rfl⟩ := Nat.exists_eq_add_of_le hle
      have hsplit : v.bytes id =
          IoVec.bytes id ⟨v.iov_base, d⟩ ++ IoVec.bytes id ⟨v.iov_base + d, v.iov_len - d⟩ := by
        rw [← IoVec.bytes_add, Nat.add_sub_cancel' (by omega)]
      have hoff : ((total + d : ℕ) - total : ℤ) = d := by omega
      have hsize : (v.iov_len - d : ℤ).toNat = v.iov_len - d := by omega
      have hnone : total - (total + d) = 0 := by omega
      have hwritten : (addresses before).drop (total + d) = [] :=
        List.drop_of_length_le (hbefore ▸ hle)
      rw [hoff, hsize, List.drop_append, hwritten, hbefore, Nat.add_sub_cancel_left, hsplit,
        List.append_assoc, List.nil_append, List.drop_left' (IoVec.length_bytes id ⟨_, d⟩), hnone]
      exact iff_of_true rfl rfl
    · obtain ⟨d, rfl⟩ := Nat.exists_eq_add_of_le hle
      have hsplit : IoVec.bytes id ⟨v.iov_base - d, d + v.iov_len⟩ =
          IoVec.bytes id ⟨v.iov_base - d, d⟩ ++ v.bytes id := by
        rw [IoVec.bytes_add, Int.sub_add_cancel]
      have hoff : (n - (n + d : ℕ) : ℤ) = -d := by omega
      have hsize : (v.iov_len - -(d : ℤ)).toNat = d + v.iov_len := by omega
      rw [hoff, hsize, ← Int.sub_eq_add_neg, hsplit, List.drop_append_of_le_length (by omega),
        Nat.add_sub_cancel_left, List.append_assoc, List.append_left_inj, eq_comm]
  constructor
  · intro h
    have hlen := congrArg List.length h
    rw [List.length_drop, length_addresses, length_addresses, List.map_append, List.sum_append,
      List.map_cons, List.sum_cons, List.map_cons, List.sum_cons] at hlen
    have hoff : offset = n - total := by
      rw [htotal] at hlen
      dsimp only at hlen
      omega
    exact ⟨hoff, (hkey hoff).1 h⟩
  · rintro ⟨hoff, h⟩
    exact (hkey hoff).2 h

/-! ## When the rest is stored -/

/-- After `writev` has returned with the outcome `w`, `DoSend` puts in `mSendJob` entries that
are the packets without the bytes that have been written, whatever the memory holds. -/
def StoresRest (packets : List IoVec) (w : WritevResult) : Prop :=
  ∃ result, DoSendPC.afterWritev packets w = .addPackets packets result ∧
    ∀ mem : ℤ → Byte, bytesOf mem (remainder packets result) = (bytesOf mem packets).drop w.count

/-- As an `Int32` the count is not negative and not the total, and the first packet longer than
it is longer by as many bytes as have been written of it.  (With a packet so long that this
difference is negative as an `Int32`, what is unsent of the packets before it must end where it
starts.) -/
def CutFits (packets : List IoVec) (n : ℕ) : Prop :=
  n % 2 ^ 32 < 2 ^ 31 ∧ ¬ 2 ^ 32 ∣ (packets.map IoVec.iov_len).sum - n ∧
    ∃ before v after, packets = before ++ v :: after ∧
      (∀ u ∈ before, u.iov_len ≤ n % 2 ^ 32) ∧ n % 2 ^ 32 < v.iov_len ∧
      toInt32 ((v.iov_len - n % 2 ^ 32 : ℕ) : ℤ) = n - (before.map IoVec.iov_len).sum ∧
      (addresses before).drop n =
        IoVec.bytes id ⟨v.iov_base - ((before.map IoVec.iov_len).sum - n : ℕ),
          (before.map IoVec.iov_len).sum - n⟩

lemma toInt32_eq_toInt32_iff {x y : ℤ} : toInt32 x = toInt32 y ↔ (2 ^ 32 : ℤ) ∣ x - y := by
  simp only [toInt32, Int.bmod]
  omega

/-- The count is taken for the total if it is the sum of the lengths up to a multiple of
`2 ^ 32`. -/
lemma toInt32_eq_totalSendBytes_iff (hn : n ≤ (packets.map IoVec.iov_len).sum) :
    toInt32 n = totalSendBytes packets ↔ 2 ^ 32 ∣ (packets.map IoVec.iov_len).sum - n := by
  rw [totalSendBytes_eq, toInt32_eq_toInt32_iff]
  omega

lemma toInt32_nonneg_iff : 0 ≤ toInt32 n ↔ n % 2 ^ 32 < 2 ^ 31 := by
  simp only [toInt32, Int.bmod]
  omega

lemma toInt32_of_nonneg (h : n % 2 ^ 32 < 2 ^ 31) : toInt32 n = (n % 2 ^ 32 : ℕ) := by
  simp only [toInt32, Int.bmod]
  omega

/-- With less than `2 ^ 31` bytes in all, the cut fits if the packet that holds the first unsent
byte is longer than the count and ends at twice the count. -/
lemma cutFits_iff_of_lt (hn : n < (packets.map IoVec.iov_len).sum)
    (hsum : (packets.map IoVec.iov_len).sum < 2 ^ 31) :
    CutFits packets n ↔ ∃ before v after, packets = before ++ v :: after ∧ n < v.iov_len ∧
      (before.map IoVec.iov_len).sum + v.iov_len = 2 * n := by
  have hmod : n % 2 ^ 32 = n := Nat.mod_eq_of_lt (by omega)
  have hoffset : ∀ {k : ℕ}, k < 2 ^ 31 → toInt32 k = k := fun hk =>
    Int.bmod_eq_of_le (by omega) (by omega)
  rw [CutFits, hmod]
  constructor
  · rintro ⟨-, -, before, v, after, rfl, -, hv, hcut, -⟩
    have hmem : v ∈ before ++ v :: after := by simp
    have hvsum := iov_len_le_sum hmem
    rw [hoffset (by omega)] at hcut
    exact ⟨before, v, after, rfl, hv, by omega⟩
  · rintro ⟨before, v, after, rfl, hv, hends⟩
    have hmem : v ∈ before ++ v :: after := by simp
    have hvsum := iov_len_le_sum hmem
    refine ⟨by omega, by omega, before, v, after, rfl, fun u hu => ?_, hv, ?_, ?_⟩
    · have husum := iov_len_le_sum hu
      omega
    · rw [hoffset (by omega)]
      omega
    · have hnone : (before.map IoVec.iov_len).sum - n = 0 := by omega
      rw [hnone, List.drop_of_length_le (by rw [length_addresses]; omega)]
      rfl

/-- `DoSend` comes to the third loop with a result that is not negative and is not the total,
unless it comes there behind `Disconnect`. -/
lemma afterWritev_eq_addPackets_iff {w : WritevResult} :
    DoSendPC.afterWritev packets w = .addPackets packets result ↔
      0 ≤ toInt32 w.value ∧ toInt32 w.value ≠ totalSendBytes packets ∧
        result = toInt32 w.value := by
  simp only [DoSendPC.afterWritev]
  by_cases hneg : toInt32 w.value < 0
  · rw [if_pos hneg]
    refine iff_of_false ?_ fun h => absurd h.1 (not_le.2 hneg)
    split <;> simp
  · rw [if_neg hneg]
    by_cases htotal : toInt32 w.value = totalSendBytes packets
    · rw [if_pos htotal]
      exact iff_of_false (by simp) fun h => h.2.1 htotal
    · rw [if_neg htotal]
      simp [htotal, not_lt.1 hneg, eq_comm]

/-- The first packet longer than the result is found, or every packet is skipped. -/
lemma exists_longer (packets : List IoVec) (result : ℤ) :
    (∀ u ∈ packets, (u.iov_len : ℤ) ≤ result) ∨
      ∃ before v after, packets = before ++ v :: after ∧
        (∀ u ∈ before, (u.iov_len : ℤ) ≤ result) ∧ result < v.iov_len := by
  induction packets with
  | nil => exact Or.inl fun u hu => absurd hu List.not_mem_nil
  | cons u vs ih =>
    by_cases hu : result < u.iov_len
    · exact Or.inr ⟨[], u, vs, rfl, fun _ h => absurd h List.not_mem_nil, hu⟩
    · rcases ih with hall | ⟨before, v, after, rfl, hbefore, hv⟩
      · exact Or.inl (List.forall_mem_cons.2 ⟨not_lt.1 hu, hall⟩)
      · exact Or.inr ⟨u :: before, v, after, rfl, List.forall_mem_cons.2 ⟨not_lt.1 hu, hbefore⟩, hv⟩

/-- The two splits at the first packet longer than the result are the same. -/
lemma longer_unique {before' after' : List IoVec} {v' : IoVec}
    (h : before ++ v :: after = before' ++ v' :: after')
    (hbefore : ∀ u ∈ before, (u.iov_len : ℤ) ≤ result) (hv : result < v.iov_len)
    (hbefore' : ∀ u ∈ before', (u.iov_len : ℤ) ≤ result) (hv' : result < v'.iov_len) :
    before = before' ∧ v = v' ∧ after = after' := by
  induction before generalizing before' with
  | nil =>
    cases before' with
    | nil => simpa using h
    | cons u vs =>
      obtain ⟨rfl, -⟩ := List.cons.inj h
      exact absurd (hbefore' v List.mem_cons_self) (not_le.2 hv)
  | cons u vs ih =>
    cases before' with
    | nil =>
      obtain ⟨rfl, -⟩ := List.cons.inj h
      exact absurd (hbefore u List.mem_cons_self) (not_le.2 hv')
    | cons u' vs' =>
      obtain ⟨rfl, htail⟩ := List.cons.inj h
      obtain ⟨rfl, hrest⟩ := ih htail (fun w hw => hbefore w (List.mem_cons_of_mem _ hw))
        fun w hw => hbefore' w (List.mem_cons_of_mem _ hw)
      exact ⟨rfl, hrest⟩

/-- The bytes stored are the right ones in every memory if their addresses are. -/
lemma storesRest_iff {errno : Errno} : StoresRest packets (.accepted n errno) ↔
    0 ≤ toInt32 n ∧ toInt32 n ≠ totalSendBytes packets ∧
      addresses (remainder packets (toInt32 n)) = (addresses packets).drop n := by
  simp only [StoresRest, afterWritev_eq_addPackets_iff, bytesOf_eq_map_addresses, ← List.map_drop,
    forall_map_eq_iff]
  constructor
  · rintro ⟨result, ⟨hresult, htotal, heq⟩, h⟩
    rw [heq] at h
    exact ⟨hresult, htotal, h⟩
  · rintro ⟨hresult, htotal, h⟩
    exact ⟨toInt32 n, ⟨hresult, htotal, rfl⟩, h⟩

/-! ## The total and the comparisons -/

/-- `DoSend` comes to the comparison `result == totalSendBytes`. -/
def Compares (w : WritevResult) : Prop :=
  ¬ (toInt32 w.value < 0 ∧ (w.errno = .EAGAIN ∨ w.errno = .EINTR))

instance (w : WritevResult) : Decidable (Compares w) := inferInstanceAs (Decidable (¬ _))

/-- `DoSend` takes the packets for sent. -/
def TakenForWhole (packets : List IoVec) (w : WritevResult) : Prop :=
  Compares w ∧ toInt32 w.value = totalSendBytes packets

/-- The packets with whose lengths the second loop of `DoSend` compares the result. -/
def comparedPackets (result : ℤ) : List IoVec → List IoVec
  | [] => []
  | v :: vs => if toSize result < v.iov_len then [v] else v :: comparedPackets result vs

/-- In `DoSend`, the send is taken for complete exactly if `writev` has accepted all bytes, every
comparison of the result with a length is right, and the counter of the loops is an `Int32`. -/
structure ExactAccounting (packets : List IoVec) (w : WritevResult) : Prop where
  counter : packets.length < 2 ^ 31
  complete : TakenForWhole packets w ↔ w.value = (packets.map IoVec.iov_len).sum
  compared : Compares w → ¬ TakenForWhole packets w →
    ∀ v ∈ comparedPackets (toInt32 w.value) packets,
      toSize (toInt32 w.value) < v.iov_len ↔ w.value < v.iov_len

/-- The outcomes of `writev`: it accepts at most the bytes offered, and nothing if their number
is not an `ssize_t`. -/
def Offered (packets : List IoVec) : WritevResult → Prop
  | .accepted n _ => n ≤ (packets.map IoVec.iov_len).sum ∧
      (packets.map IoVec.iov_len).sum < 2 ^ 63
  | .failed _ => True

instance (packets : List IoVec) : ∀ w, Decidable (Offered packets w)
  | .accepted _ _ => inferInstanceAs (Decidable (_ ∧ _))
  | .failed _ => inferInstanceAs (Decidable True)

/-- The condition on the outcome of `writev`.  A failure is one after which `DoSend` does not go
on.  A count that is less than `2 ^ 31` is the number of all bytes, or differs from it by no
multiple of `2 ^ 32`; a larger one must in addition not be separated from its `Int32` by the
length of a packet. -/
def CountsExactly (packets : List IoVec) : WritevResult → Prop
  | .failed errno => errno = .EAGAIN ∨ errno = .EINTR
  | .accepted n errno =>
    if n % 2 ^ 32 < 2 ^ 31 then
      n = (packets.map IoVec.iov_len).sum ∨
        ¬ 2 ^ 32 ∣ (packets.map IoVec.iov_len).sum - n ∧
          ∀ v ∈ packets.find? fun v => n % 2 ^ 32 < v.iov_len, n < v.iov_len
    else if errno = .EAGAIN ∨ errno = .EINTR then n ≠ (packets.map IoVec.iov_len).sum
    else
      n = (packets.map IoVec.iov_len).sum ∨
        ¬ 2 ^ 32 ∣ (packets.map IoVec.iov_len).sum - n ∧ ∀ v ∈ packets, v.iov_len ≤ n

/-- In the model of the threads, the send is taken for complete after `writev`, or after the
`Disconnect` that follows a failure. -/
lemma takenForWhole_iff {w : WritevResult} (h : toInt32 w.value < 0 → toInt32 w.value = -1) :
    TakenForWhole packets w ↔ DoSendPC.afterWritev packets w = .clear ∨
      DoSendPC.afterWritev packets w = .giveUp (some packets) ∧
        DoSendPC.afterDisconnect (some packets) = some .clear := by
  simp only [TakenForWhole, Compares, DoSendPC.afterWritev, DoSendPC.afterDisconnect]
  by_cases hneg : toInt32 w.value < 0
  · have hlt : (-1 : ℤ) < 0 := by decide
    simp only [h hneg, hlt, if_true, true_and]
    cases w.errno <;> simp
  · simp only [hneg, if_false, false_and, not_false_eq_true, true_and]
    split <;> simp [*]

lemma comparedPackets_of_le (h : ∀ u ∈ packets, ¬ toSize result < u.iov_len) :
    comparedPackets result packets = packets := by
  induction packets with
  | nil => rfl
  | cons u vs ih =>
    rw [comparedPackets, if_neg (h u List.mem_cons_self),
      ih fun u hu => h u (List.mem_cons_of_mem _ hu)]

/-- The comparisons with a result that is at most the count are right if the first packet that
passes is longer than the count. -/
lemma compared_iff {r : ℕ} (hsize : toSize result = r) (hle : r ≤ n) :
    (∀ v ∈ comparedPackets result packets, toSize result < v.iov_len ↔ (n : ℤ) < v.iov_len) ↔
      ∀ v ∈ packets.find? fun v => r < v.iov_len, n < v.iov_len := by
  induction packets with
  | nil => simp [comparedPackets]
  | cons u vs ih =>
    by_cases hu : r < u.iov_len
    · have hfound : (u :: vs).find? (fun v => r < v.iov_len) = some u :=
        List.find?_cons_of_pos (by simpa using hu)
      rw [comparedPackets, if_pos (by omega), hfound]
      simp [hsize, hu]
    · have hnext : (u :: vs).find? (fun v => r < v.iov_len) = vs.find? fun v => r < v.iov_len :=
        List.find?_cons_of_neg (by simpa using hu)
      have hskip : toSize result < u.iov_len ↔ (n : ℤ) < u.iov_len :=
        iff_of_false (by omega) (by omega)
      rw [comparedPackets, if_neg (by omega), hnext, List.forall_mem_cons, ih]
      exact and_iff_right hskip

/-- After a failure with which `DoSend` goes on, the first comparison is wrong. -/
lemma not_exactAccounting_failed {errno : Errno} (hne : packets ≠ [])
    (hlen : ∀ v ∈ packets, v.iov_len < 2 ^ 64) (hcompares : Compares (.failed errno)) :
    ¬ ExactAccounting packets (.failed errno) := by
  rintro ⟨-, hcomplete, hcompared⟩
  obtain ⟨v, vs, rfl⟩ := List.exists_cons_of_ne_nil hne
  have hwhole : ¬ TakenForWhole (v :: vs) (.failed errno) := by
    rw [hcomplete]
    change ¬ (-1 : ℤ) = _
    omega
  have hlast : ¬ toSize (toInt32 (-1)) < v.iov_len := by
    have hmax : toSize (toInt32 (-1)) = 2 ^ 64 - 1 := by decide
    have hv := hlen v List.mem_cons_self
    rw [hmax]
    omega
  have hfirst : v ∈ comparedPackets (toInt32 (-1)) (v :: vs) := by
    rw [comparedPackets, if_neg hlast]
    exact List.mem_cons_self
  refine hlast ((hcompared hcompares hwhole v hfirst).2 ?_)
  change (-1 : ℤ) < v.iov_len
  omega

/-- After a success, the accounting is exact if the total and the comparisons are. -/
lemma exactAccounting_accepted_iff {errno : Errno} (hn : n ≤ (packets.map IoVec.iov_len).sum)
    (hcompares : Compares (.accepted n errno)) {Q : Prop}
    (hcompared : (∀ v ∈ comparedPackets (toInt32 n) packets,
      toSize (toInt32 n) < v.iov_len ↔ (n : ℤ) < v.iov_len) ↔ Q) :
    ExactAccounting packets (.accepted n errno) ↔ packets.length < 2 ^ 31 ∧
      (n = (packets.map IoVec.iov_len).sum ∨
        ¬ 2 ^ 32 ∣ (packets.map IoVec.iov_len).sum - n ∧ Q) := by
  have hwhole : TakenForWhole packets (.accepted n errno) ↔
      2 ^ 32 ∣ (packets.map IoVec.iov_len).sum - n :=
    (and_iff_right hcompares).trans (toInt32_eq_totalSendBytes_iff hn)
  have hvalue : (WritevResult.accepted n errno).value = (packets.map IoVec.iov_len).sum ↔
      n = (packets.map IoVec.iov_len).sum := Int.ofNat_inj
  constructor
  · rintro ⟨hcounter, hcomplete, hrest⟩
    rw [hwhole, hvalue] at hcomplete
    refine ⟨hcounter, or_iff_not_imp_left.2 fun hpart => ⟨mt hcomplete.1 hpart, hcompared.1 ?_⟩⟩
    exact hrest hcompares (mt (hcomplete.1 ∘ hwhole.1) hpart)
  · rintro ⟨hcounter, hcond⟩
    refine ⟨hcounter, ?_, fun _ hpart => ?_⟩
    · rw [hwhole, hvalue]
      refine ⟨fun hdvd => hcond.resolve_right fun h => h.1 hdvd, fun hall => ?_⟩
      rw [← hall, Nat.sub_self]
      exact dvd_zero _
    · refine hcompared.2 (hcond.resolve_left fun hall => hpart (hwhole.2 ?_)).2
      rw [← hall, Nat.sub_self]
      exact dvd_zero _

end SendRun

open SendRun

/-- **When the accounting is exact.**  For every list of packets and every outcome of `writev`,
`DoSend` takes the send for complete exactly if all bytes have been accepted, and compares right,
exactly if the outcome satisfies the condition. -/
theorem doSend_exactAccounting_iff {packets : List IoVec} {w : WritevResult} (hne : packets ≠ [])
    (hlen : ∀ v ∈ packets, v.iov_len < 2 ^ 64) (hw : Offered packets w) :
    ExactAccounting packets w ↔ packets.length < 2 ^ 31 ∧ CountsExactly packets w := by
  cases w with
  | failed errno =>
    by_cases herrno : errno = .EAGAIN ∨ errno = .EINTR
    · have hreturns : ¬ Compares (.failed errno) := fun h =>
        h ⟨show toInt32 (-1) < 0 by decide, herrno⟩
      refine ⟨fun h => ⟨h.counter, herrno⟩, fun h => ⟨h.1, ?_, fun hcompares => ?_⟩⟩
      · refine iff_of_false (fun hwhole => hreturns hwhole.1) ?_
        change ¬ (-1 : ℤ) = _
        omega
      · exact absurd hcompares hreturns
    · have hcompares : Compares (.failed errno) := fun h => herrno h.2
      exact iff_of_false (not_exactAccounting_failed hne hlen hcompares) fun h => herrno h.2
  | accepted n errno =>
    obtain ⟨hn, hsum⟩ := hw
    simp only [CountsExactly]
    split_ifs with hresult herrno
    · -- the `Int32` is what is left of the count
      have hvalue := toInt32_of_nonneg hresult
      refine exactAccounting_accepted_iff hn (fun h => ?_) (compared_iff ?_ (Nat.mod_le _ _))
      · exact absurd (hvalue ▸ h.1) (not_lt.2 (Int.natCast_nonneg _))
      · rw [hvalue]
        exact Int.emod_eq_of_lt (by omega) (by omega)
    · -- the count is taken for an error, after which `DoSend` returns or tries again
      have hneg : toInt32 n < 0 := not_le.1 (mt toInt32_nonneg_iff.1 hresult)
      have hreturns : ¬ Compares (.accepted n errno) := fun h => h ⟨hneg, herrno⟩
      refine ⟨fun h => ⟨h.counter, fun hall => ?_⟩, fun h => ⟨h.1, ?_, fun hcompares => ?_⟩⟩
      · exact hreturns (h.complete.2 (congrArg Nat.cast hall)).1
      · exact iff_of_false (fun hwhole => hreturns hwhole.1) fun hall => h.2 (Int.ofNat_inj.1 hall)
      · exact absurd hcompares hreturns
    · -- as a `size_t`, the result is larger than every length
      refine exactAccounting_accepted_iff hn (fun h => herrno h.2) ?_
      have hmax : ∀ v ∈ packets, ¬ toSize (toInt32 n) < v.iov_len := by
        intro v hv
        have hvlen := iov_len_le_sum hv
        have hbound : 2 ^ 63 ≤ toSize (toInt32 n) := by
          simp only [toSize, toInt32, Int.bmod]
          omega
        omega
      rw [comparedPackets_of_le hmax]
      refine forall₂_congr fun v hv => ?_
      rw [iff_false_left (hmax v hv), not_lt, Int.ofNat_le]

/-- A packet of ten bytes of which three have been accepted. -/
theorem doSend_exactAccounting_partial : ExactAccounting [⟨100, 10⟩] (.accepted 3 .EAGAIN) := by
  refine (doSend_exactAccounting_iff (by decide) (by decide) (by decide)).2 ⟨by decide, ?_⟩
  rw [CountsExactly, if_pos (by decide)]
  exact Or.inr ⟨by decide, by decide⟩

/-- After an error the result -1 is larger than the length of the packet; and five bytes of a
packet of more than 4 GiB are taken for all of it. -/
theorem doSend_accounting_inexact :
    ¬ ExactAccounting [⟨100, 10⟩] (.failed .ECONNRESET) ∧
      ¬ ExactAccounting [⟨100, 2 ^ 32 + 5⟩] (.accepted 5 .EAGAIN) := by
  constructor
  · exact not_exactAccounting_failed (by decide) (by decide) (by decide)
  · rintro ⟨-, hcomplete, -⟩
    exact absurd (hcomplete.1 ⟨by decide, by decide⟩) (by decide)

/-- **When the rest is stored.**  For every list of packets and every count that `writev` reports
for a part of them, `DoSend` stores exactly the rest if the cut fits, and only then. -/
theorem doSend_storesRest_iff {packets : List IoVec} {n : ℕ} (errno : Errno)
    (hn : n < (packets.map IoVec.iov_len).sum)
    (hsum : (packets.map IoVec.iov_len).sum < 2 ^ 63) :
    StoresRest packets (.accepted n errno) ↔ CutFits packets n := by
  rw [storesRest_iff, CutFits, toInt32_nonneg_iff, Ne, toInt32_eq_totalSendBytes_iff hn.le]
  refine and_congr_right fun hresult => and_congr_right fun _ => ?_
  rw [toInt32_of_nonneg hresult]
  rcases exists_longer packets (n % 2 ^ 32 : ℕ) with hall | ⟨before, v, after, rfl, hbefore, hv⟩
  · -- every packet is skipped, and nothing is stored
    constructor
    · intro h
      have hsize : toSize (n % 2 ^ 32 : ℕ) = (n % 2 ^ 32 : ℕ) :=
        Int.emod_eq_of_lt (by omega) (by omega)
      have hnil : remainder packets (n % 2 ^ 32 : ℕ) = [] := by
        rw [remainder, cutPackets_of_le (by simpa only [hsize, not_lt] using hall)]
        rfl
      have hlen := congrArg List.length h
      rw [hnil, List.length_drop, length_addresses, length_addresses, List.map_nil,
        List.sum_nil] at hlen
      omega
    · rintro ⟨before, v, after, rfl, -, hv, -⟩
      exact absurd (Int.ofNat_le.1 (hall v (by simp))) (not_le.2 hv)
  · have hlen : ∀ u ∈ before ++ v :: after, u.iov_len < 2 ^ 63 := fun u hu =>
      lt_of_le_of_lt (iov_len_le_sum hu) hsum
    have hvlen := hlen v (by simp)
    have hsub : (v.iov_len - (n % 2 ^ 32 : ℕ) : ℤ) = (v.iov_len - n % 2 ^ 32 : ℕ) := by omega
    obtain ⟨-, -, hle⟩ := startOffset_le (x := (v.iov_len - n % 2 ^ 32 : ℕ)) (by omega)
    rw [remainder_append (by omega) hbefore hv hvlen fun u hu =>
      lt_trans (hlen u (by simp [hu])) (by decide), hsub, addresses_remainder_iff (by omega) hn]
    constructor
    · rintro ⟨hoffset, hends⟩
      exact ⟨before, v, after, rfl, fun u hu => Int.ofNat_le.1 (hbefore u hu), Int.ofNat_lt.1 hv,
        hoffset, hends⟩
    · rintro ⟨before', v', after', heq, hbefore', hv', hcut⟩
      obtain ⟨rfl, rfl, rfl⟩ := longer_unique heq hbefore hv
        (fun u hu => Int.ofNat_le.2 (hbefore' u hu)) (Int.ofNat_lt.2 hv')
      exact hcut

/-- Two packets of which one and the first half of the other have been written. -/
theorem doSend_storesRest_half : StoresRest [⟨100, 2⟩, ⟨200, 6⟩] (.accepted 4 .EAGAIN) :=
  (doSend_storesRest_iff .EAGAIN (by decide) (by decide)).2
    ⟨by decide, by decide, [⟨100, 2⟩], ⟨200, 6⟩, [], rfl, by decide, by decide, by decide,
      by decide⟩

/-- A packet of ten bytes of which three have been written: its last three are stored. -/
theorem doSend_stores_wrong_rest : ¬ StoresRest [⟨100, 10⟩] (.accepted 3 .EAGAIN) := by
  rw [storesRest_iff]
  decide

end CoreServer
