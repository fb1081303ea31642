import CoreServer.Types
import CoreServer.Lib.LittleEndian
import CoreServer.Lib.Stores

/-!
# `Endpoint`

`Network/Endpoint.cpp`: an IPv4 or an IPv6 address with a port, kept in a `sockaddr_storage` that
both constructors write only in part, and the bytes that `CreateListenSocket` hands to `bind`.  The
structures are laid out as on Linux, on a little-endian machine.  In a release build `ASSERT` is
empty.

The memory of an object is a function of the offset; no more than the first 28 of the 128 bytes of a
`sockaddr_storage` are written or read.
-/

namespace CoreServer

open Circular

/-- `AF_INET` on Linux. -/
def AF_INET : ℕ := 2

/-- `AF_INET6` on Linux. -/
def AF_INET6 : ℕ := 10

/-- `sizeof(sockaddr_in)`: 2 bytes of `sin_family`, 2 of `sin_port`, 4 of `sin_addr` and 8 of
`sin_zero`. -/
def sizeofSockaddrIn : ℕ := 16

/-- `sizeof(sockaddr_in6)`: 2 bytes of `sin6_family`, 2 of `sin6_port`, 4 of `sin6_flowinfo`, 16 of
`sin6_addr` and 4 of `sin6_scope_id`. -/
def sizeofSockaddrIn6 : ℕ := 28

/-- The number with the two bytes of `x` exchanged. -/
def swapBytes (x : UInt16) : UInt16 := UInt16.ofNat (x.toNat % 256 * 256 + x.toNat / 256)

/-- `htons`. -/
def htons (x : UInt16) : UInt16 := swapBytes x

/-- `ntohs`. -/
def ntohs (x : UInt16) : UInt16 := swapBytes x

/-- The family that `sa_family`, `ss_family`, `sin_family` and `sin6_family` read. -/
def saFamily (addr : ℕ → Byte) : ℕ := LittleEndian.decode (slice addr 0 2)

/-- The port that `sin_port` and `sin6_port` read. -/
def sinPort (addr : ℕ → Byte) : UInt16 := UInt16.ofNat (LittleEndian.decode (slice addr 2 2))

/-- Where `sin_addr` or `sin6_addr` begins. -/
def addrOffset (addressFamily : ℕ) : ℕ := if addressFamily = AF_INET then 4 else 8

/-- `inet_pton`: the bytes that it writes for a family and a text if it returns 1. -/
structure InetPton where
  write : ℕ → String → Option (List Byte)
  length_inet : ∀ {text bytes}, write AF_INET text = some bytes → bytes.length = 4
  length_inet6 : ∀ {text bytes}, write AF_INET6 text = some bytes → bytes.length = 16

/-- `Endpoint::eIPVersion`. -/
inductive IPVersion where
  | NONE
  | IPv4
  | IPv6
deriving DecidableEq, Repr

namespace IPVersion

/-- The `addressFamily` of the constructor, which returns at once for `NONE`. -/
def addressFamily : IPVersion → Option ℕ
  | NONE => none
  | IPv4 => some AF_INET
  | IPv6 => some AF_INET6

/-- `inet_pton` accepts the text as an address of this version. -/
def Accepts (ipVersion : IPVersion) (inetPton : InetPton) (ipAddress : String) : Prop :=
  ∃ family ∈ ipVersion.addressFamily, (inetPton.write family ipAddress).isSome

/-- The bytes that neither `inet_pton` nor the constructor writes: `sin_zero`, or `sin6_flowinfo`
and `sin6_scope_id`. -/
def Unwritten : IPVersion → ℕ → Prop
  | NONE, _ => False
  | IPv4, i => 8 ≤ i ∧ i < 16
  | IPv6, i => 4 ≤ i ∧ i < 8 ∨ 24 ≤ i ∧ i < 28

lemma addressFamily_eq_some {ipVersion : IPVersion} {family : ℕ}
    (h : ipVersion.addressFamily = some family) :
    ipVersion = IPv4 ∧ family = AF_INET ∨ ipVersion = IPv6 ∧ family = AF_INET6 := by
  cases ipVersion with
  | NONE => nomatch h
  | IPv4 => exact Or.inl ⟨rfl, (Option.some.inj h).symm⟩
  | IPv6 => exact Or.inr ⟨rfl, (Option.some.inj h).symm⟩

end IPVersion

/-- The member of `Endpoint`. -/
structure Endpoint where
  mAddress : ℕ → Byte

namespace Endpoint

/-- `Endpoint::Endpoint(const sockaddr*)`, for an object in `memory`. -/
def ofSockaddr (memory addr : ℕ → Byte) : Endpoint :=
  if saFamily addr = AF_INET then ⟨blit memory 0 (slice addr 0 sizeofSockaddrIn)⟩
  else if saFamily addr = AF_INET6 then ⟨blit memory 0 (slice addr 0 sizeofSockaddrIn6)⟩
  else ⟨memory⟩

/-- `Endpoint::Endpoint(eIPVersion, const String&, UInt16)`, for an object in `memory`. -/
def construct (inetPton : InetPton) (memory : ℕ → Byte) (ipVersion : IPVersion)
    (ipAddress : String) (port : UInt16) : Endpoint :=
  match ipVersion.addressFamily with
  | none => ⟨memory⟩
  | some addressFamily =>
    match inetPton.write addressFamily ipAddress with
    | none => ⟨memory⟩
    | some address =>
      let mAddress := blit memory (addrOffset addressFamily) address
      if addressFamily = AF_INET then
        let mAddress := blit mAddress 0 (LittleEndian.encode 2 AF_INET)
        ⟨blit mAddress 2 (LittleEndian.encode 2 (htons port).toNat)⟩
      else if addressFamily = AF_INET6 then
        let mAddress := blit mAddress 0 (LittleEndian.encode 2 AF_INET6)
        ⟨blit mAddress 2 (LittleEndian.encode 2 (htons port).toNat)⟩
      else ⟨mAddress⟩

/-- `GetAddress`: the memory that the pointer points at. -/
def getAddress (e : Endpoint) : ℕ → Byte := e.mAddress

/-- `GetIPVersion`. -/
def getIPVersion (e : Endpoint) : IPVersion :=
  if saFamily e.mAddress = AF_INET then .IPv4
  else if saFamily e.mAddress = AF_INET6 then .IPv6
  else .NONE

/-- `GetPort`. -/
def getPort (e : Endpoint) : UInt16 :=
  if saFamily e.mAddress = AF_INET then ntohs (sinPort e.mAddress)
  else if saFamily e.mAddress = AF_INET6 then ntohs (sinPort e.mAddress)
  else 0

/-- The length that `CreateListenSocket` passes to `bind`. -/
def bindLength (e : Endpoint) : ℕ :=
  if e.getIPVersion = .IPv4 then sizeofSockaddrIn else sizeofSockaddrIn6

/-- The bytes that `CreateListenSocket` hands to `bind`. -/
def bindAddress (e : Endpoint) : List Byte := slice e.getAddress 0 e.bindLength

/-- Whatever the memory of the new object holds, an endpoint constructed from `GetAddress()` has the
same version, the same port and the same bytes for `bind`. -/
def Rebuilds (e : Endpoint) : Prop :=
  ∀ memory, (ofSockaddr memory e.getAddress).getIPVersion = e.getIPVersion ∧
    (ofSockaddr memory e.getAddress).getPort = e.getPort ∧
    (ofSockaddr memory e.getAddress).bindAddress = e.bindAddress

end Endpoint

/-! ## Numbers in memory -/

lemma toNat_swapBytes (x : UInt16) :
    (swapBytes x).toNat = x.toNat % 256 * 256 + x.toNat / 256 := by
  have hlt : x.toNat < 65536 := x.toNat_lt
  exact UInt16.toNat_ofNat_of_lt' (by simp [UInt16.size]; omega)

@[simp] lemma ntohs_htons (x : UInt16) : ntohs (htons x) = x := by
  have hlt : x.toNat < 65536 := x.toNat_lt
  apply UInt16.toNat_inj.1
  rw [ntohs, htons, toNat_swapBytes, toNat_swapBytes]
  omega

/-- The first four bytes hold the family and the port. -/
lemma saFamily_congr {addr addr' : ℕ → Byte} (h : slice addr 0 4 = slice addr' 0 4) :
    saFamily addr = saFamily addr' := by
  have htake : slice addr 0 2 = slice addr' 0 2 := by
    have := congrArg (List.take 2) h
    simpa [take_slice] using this
  rw [saFamily, saFamily, htake]

lemma sinPort_congr {addr addr' : ℕ → Byte} (h : slice addr 0 4 = slice addr' 0 4) :
    sinPort addr = sinPort addr' := by
  have hdrop : slice addr 2 2 = slice addr' 2 2 := by
    rw [slice_eq_iff] at h ⊢
    intro i hi
    simpa using h (2 + i) (by omega)
  rw [sinPort, sinPort, hdrop]

namespace Endpoint

variable {inetPton : InetPton} {memory memory' : ℕ → Byte} {ipVersion : IPVersion}
  {ipAddress : String} {port : UInt16} {e e' : Endpoint}

lemma getIPVersion_congr (h : slice e.mAddress 0 4 = slice e'.mAddress 0 4) :
    e.getIPVersion = e'.getIPVersion := by
  rw [getIPVersion, getIPVersion, saFamily_congr h]

lemma getPort_congr (h : slice e.mAddress 0 4 = slice e'.mAddress 0 4) :
    e.getPort = e'.getPort := by
  rw [getPort, getPort, saFamily_congr h, sinPort_congr h]

/-! ## Rebuilding from `GetAddress` -/

lemma four_le_bindLength (e : Endpoint) : 4 ≤ e.bindLength := by
  rw [bindLength]
  split_ifs <;> decide

/-- As many bytes are copied as `CreateListenSocket` passes to `bind`. -/
lemma mAddress_ofSockaddr (h : e.getIPVersion ≠ .NONE) :
    (ofSockaddr memory e.getAddress).mAddress = blit memory 0 e.bindAddress := by
  rw [bindAddress, bindLength, ofSockaddr]
  simp only [getIPVersion, getAddress] at h ⊢
  split_ifs at h ⊢ <;> simp_all

/-- **Rebuilding.**  An endpoint of a known version is rebuilt. -/
theorem rebuilds (h : e.getIPVersion ≠ .NONE) : e.Rebuilds := by
  intro memory
  have hbytes : slice (ofSockaddr memory e.getAddress).mAddress 0 e.bindLength = e.bindAddress := by
    have hlen : e.bindAddress.length = e.bindLength := by simp [bindAddress]
    rw [mAddress_ofSockaddr h, ← hlen, slice_blit]
  have hhead : slice (ofSockaddr memory e.getAddress).mAddress 0 4 = slice e.mAddress 0 4 := by
    have htake := congrArg (List.take 4) hbytes
    simpa [bindAddress, take_slice, four_le_bindLength, getAddress] using htake
  have hversion := getIPVersion_congr hhead
  refine ⟨hversion, getPort_congr hhead, ?_⟩
  rw [bindAddress, bindLength, hversion]
  exact hbytes

/-! ## What the constructor writes -/

/-- The stores of `inet_pton`, of the family and of the port. -/
def stores (family : ℕ) (address : List Byte) (port : UInt16) : List (ℕ × List Byte) :=
  [(addrOffset family, address), (0, LittleEndian.encode 2 family),
    (2, LittleEndian.encode 2 (htons port).toNat)]

variable {family : ℕ} {address : List Byte}

lemma mAddress_construct (hfamily : ipVersion.addressFamily = some family)
    (haddress : inetPton.write family ipAddress = some address) :
    (construct inetPton memory ipVersion ipAddress port).mAddress =
      Stores.apply (stores family address port) memory := by
  rw [construct, hfamily]
  simp only [haddress]
  rcases IPVersion.addressFamily_eq_some hfamily with ⟨-, rfl⟩ | ⟨-, rfl⟩
  · rfl
  · rfl

lemma saFamily_stores (hfamily : family < 65536) :
    saFamily (Stores.apply (stores family address port) memory) = family := by
  have hfirst : slice (Stores.apply (stores family address port) memory) 0 2 =
      LittleEndian.encode 2 family := by
    rw [← slice_blit (blit memory (addrOffset family) address) 0 (LittleEndian.encode 2 family),
      LittleEndian.length_encode]
    exact slice_congr fun i hi => blit_of_lt (by omega)
  rw [saFamily, hfirst, LittleEndian.decode_encode hfamily]

lemma sinPort_stores :
    sinPort (Stores.apply (stores family address port) memory) = htons port := by
  have hsecond : slice (Stores.apply (stores family address port) memory) 2 2 =
      LittleEndian.encode 2 (htons port).toNat := slice_blit _ 2 _
  rw [sinPort, hsecond, LittleEndian.decode_encode (htons port).toNat_lt, UInt16.ofNat_toNat]

/-- The endpoint has the version and the port that it has been constructed with. -/
lemma getters_construct (memory : ℕ → Byte) (port : UInt16)
    (hfamily : ipVersion.addressFamily = some family)
    (haddress : inetPton.write family ipAddress = some address) :
    (construct inetPton memory ipVersion ipAddress port).getIPVersion = ipVersion ∧
      (construct inetPton memory ipVersion ipAddress port).getPort = port := by
  rw [getIPVersion, getPort, mAddress_construct hfamily haddress, sinPort_stores, ntohs_htons]
  rcases IPVersion.addressFamily_eq_some hfamily with ⟨rfl, rfl⟩ | ⟨rfl, rfl⟩
  · rw [saFamily_stores (by decide)]
    exact ⟨rfl, rfl⟩
  · rw [saFamily_stores (by decide)]
    exact ⟨rfl, rfl⟩

lemma covers_stores_iff {i : ℕ} :
    Stores.Covers (stores family address port) i ↔
      i < 4 ∨ addrOffset family ≤ i ∧ i < addrOffset family + address.length := by
  simp only [stores, Stores.covers_cons, Stores.not_covers_nil, or_false,
    LittleEndian.length_encode]
  omega

/-- What the stores leave of the bytes for `bind` is what the version says. -/
lemma unwritten_iff (memory : ℕ → Byte) (port : UInt16)
    (hfamily : ipVersion.addressFamily = some family)
    (haddress : inetPton.write family ipAddress = some address) {i : ℕ} :
    ipVersion.Unwritten i ↔
      i < (construct inetPton memory ipVersion ipAddress port).bindLength ∧
        ¬ Stores.Covers (stores family address port) i := by
  rw [bindLength, (getters_construct memory port hfamily haddress).1, covers_stores_iff]
  rcases IPVersion.addressFamily_eq_some hfamily with ⟨rfl, rfl⟩ | ⟨rfl, rfl⟩
  · have hlen := inetPton.length_inet haddress
    have hoffset : addrOffset AF_INET = 4 := rfl
    simp only [IPVersion.Unwritten, if_true, sizeofSockaddrIn, hoffset]
    omega
  · have hlen := inetPton.length_inet6 haddress
    have hoffset : addrOffset AF_INET6 = 8 := rfl
    simp only [IPVersion.Unwritten, reduceCtorEq, if_false, sizeofSockaddrIn6, hoffset]
    omega

/-- Endpoints constructed from the same arguments in two memories hand the same bytes to `bind`
exactly if the memories agree in the bytes that are not written. -/
lemma bindAddress_construct_eq_iff (hfamily : ipVersion.addressFamily = some family)
    (haddress : inetPton.write family ipAddress = some address) :
    (construct inetPton memory ipVersion ipAddress port).bindAddress =
        (construct inetPton memory' ipVersion ipAddress port).bindAddress ↔
      ∀ i, ipVersion.Unwritten i → memory i = memory' i := by
  have hlen : (construct inetPton memory' ipVersion ipAddress port).bindLength =
      (construct inetPton memory ipVersion ipAddress port).bindLength := by
    rw [bindLength, bindLength, (getters_construct _ _ hfamily haddress).1,
      (getters_construct _ _ hfamily haddress).1]
  rw [bindAddress, bindAddress, hlen, getAddress, getAddress,
    mAddress_construct hfamily haddress, mAddress_construct hfamily haddress,
    Stores.slice_apply_eq_iff]
  simp only [unwritten_iff memory port hfamily haddress, Nat.zero_add, and_imp]

end Endpoint

open Endpoint

/-- **An endpoint and its arguments.**  Endpoints that are constructed from the same accepted
arguments in two memories hand the same bytes to `bind`, and are rebuilt from `GetAddress()`,
exactly if the memories agree in `sin_zero`, or in `sin6_flowinfo` and `sin6_scope_id`. -/
theorem endpoint_determined_iff (memory memory' : ℕ → Byte) {inetPton : InetPton}
    {ipVersion : IPVersion} {ipAddress : String} (h : ipVersion.Accepts inetPton ipAddress)
    (port : UInt16) :
    (construct inetPton memory ipVersion ipAddress port).bindAddress =
        (construct inetPton memory' ipVersion ipAddress port).bindAddress ∧
      (construct inetPton memory ipVersion ipAddress port).Rebuilds ∧
      (construct inetPton memory' ipVersion ipAddress port).Rebuilds ↔
    ∀ i, ipVersion.Unwritten i → memory i = memory' i := by
  obtain ⟨family, hfamily, haccept⟩ := h
  obtain ⟨address, haddress⟩ := Option.isSome_iff_exists.1 haccept
  have hknown : ipVersion ≠ .NONE := by
    rintro rfl
    nomatch hfamily
  have hrebuilds : ∀ memory, (construct inetPton memory ipVersion ipAddress port).Rebuilds := by
    intro memory
    apply rebuilds
    rwa [(getters_construct memory port hfamily haddress).1]
  rw [bindAddress_construct_eq_iff hfamily haddress]
  exact and_iff_left ⟨hrebuilds memory, hrebuilds memory'⟩

/-- `inet_pton` on the loopback addresses. -/
def loopback : InetPton where
  write family text :=
    if family = AF_INET ∧ text = "127.0.0.1" then some [127, 0, 0, 1]
    else if family = AF_INET6 ∧ text = "::1" then some (List.replicate 15 0 ++ [1])
    else none
  length_inet h := by
    split_ifs at h <;> simp_all [AF_INET, AF_INET6]
    subst h
    rfl
  length_inet6 h := by
    split_ifs at h <;> simp_all [AF_INET, AF_INET6]
    subst h
    rfl

/-- A memory that holds `byte` in all the bytes of a `sockaddr_in` but `sin_zero`. -/
def dirtyHead (byte : Byte) : ℕ → Byte := fun i => if i < 8 then byte else 0

/-- Memories that differ in the bytes that are written give the same address. -/
theorem endpoint_determined_loopback :
    (construct loopback (dirtyHead 0) .IPv4 "127.0.0.1" 9000).bindAddress =
        (construct loopback (dirtyHead 255) .IPv4 "127.0.0.1" 9000).bindAddress ∧
      (construct loopback (dirtyHead 0) .IPv4 "127.0.0.1" 9000).Rebuilds ∧
      (construct loopback (dirtyHead 255) .IPv4 "127.0.0.1" 9000).Rebuilds := by
  refine (endpoint_determined_iff _ _ ⟨AF_INET, rfl, by decide⟩ 9000).2 fun i hi => ?_
  rw [dirtyHead, dirtyHead, if_neg (Nat.not_lt.2 hi.1), if_neg (Nat.not_lt.2 hi.1)]

/-- The flow label and the scope of an IPv6 address are what the memory has held before. -/
theorem endpoint_keeps_old_bytes :
    ¬ ∀ (inetPton : InetPton) (memory memory' : ℕ → Byte) (ipVersion : IPVersion)
      (ipAddress : String) (port : UInt16), ipVersion.Accepts inetPton ipAddress →
        (construct inetPton memory ipVersion ipAddress port).bindAddress =
            (construct inetPton memory' ipVersion ipAddress port).bindAddress ∧
          (construct inetPton memory ipVersion ipAddress port).Rebuilds ∧
          (construct inetPton memory' ipVersion ipAddress port).Rebuilds := by
  intro h
  have hsame := (h loopback (fun _ => 0) (fun _ => 255) .IPv6 "::1" 9000
    ⟨AF_INET6, rfl, by decide⟩).1
  have hold := (bindAddress_construct_eq_iff rfl rfl).1 hsame 24 (.inr ⟨le_rfl, by decide⟩)
  exact absurd hold (by decide)

end CoreServer
