import LearnForCpp.Logging.TimeText
import LearnForCpp.Reactor.TcpConnection

/-!
# Addresses as texts

`reactor/InetAddress.cc` and the conversions of `reactor/Socketops.cc`.  The fields of a
`sockaddr_in` hold their bytes in network order, so that the number that the host reads from them
depends on its own `ByteOrder`.

`inet_pton` is that of `glibc`: four decimal numbers up to 255 without superfluous zeros, and
nothing is written for any other text.  It returns 0 then, which `fromHostToPort` takes for success:
`inet_address_texts` says which address a text gives.
-/

namespace Jiangbo

/-- The order of the bytes of a number in the memory of the host. -/
inductive ByteOrder
  | little
  | big
  deriving DecidableEq

/-! ### `Socketops` -/

namespace Socketops

/-- `htons`. -/
def hostToNetwork16 : ByteOrder → BitVec 16 → BitVec 16
  | .little, v => v <<< 8 ||| v >>> 8
  | .big, v => v

/-- `ntohs`. -/
def networkToHost16 : ByteOrder → BitVec 16 → BitVec 16
  | .little, v => v <<< 8 ||| v >>> 8
  | .big, v => v

/-- The four bytes of an `in_addr` in memory. -/
def octets (order : ByteOrder) (addr : BitVec 32) : List ℕ :=
  let n := addr.toNat
  let bytes := [n % 256, n / 256 % 256, n / 65536 % 256, n / 16777216 % 256]
  match order with
  | .little => bytes
  | .big => bytes.reverse

/-- The number that the host reads from four bytes. -/
def ofOctets (order : ByteOrder) (bytes : List ℕ) : BitVec 32 :=
  let bytes := match order with
    | .little => bytes
    | .big => bytes.reverse
  BitVec.ofNat 32 (Nat.ofDigits 256 bytes)

/-- `%u` of `snprintf`. -/
def percentU (n : ℕ) : Bytes := ascii n.repr

/-- Numbers with dots between them. -/
def dotted (ns : List ℕ) : Bytes := [46].intercalate (ns.map percentU)

/-- The text of an address. -/
def Dotted (text : Bytes) : Prop :=
  ∃ ns : List ℕ, ns.length = 4 ∧ (∀ n ∈ ns, n < 256) ∧ text = dotted ns

/-- `inet_ntop(AF_INET, &addr, buf, size)`; there is no text when it does not fit. -/
def inet_ntop (order : ByteOrder) (addr : BitVec 32) (size : ℕ) : Option Bytes :=
  let text := dotted (octets order addr)
  if text.length < size then some text else none

/-- How far `inet_pton` has read: the numbers before the last dot, and the one that it is in. -/
structure Pton where
  done : List ℕ
  cur : Option ℕ

namespace Pton

def new : Pton := ⟨[], none⟩

/-- One character. -/
def read (p : Pton) (ch : UInt8) : Option Pton :=
  if 48 ≤ ch ∧ ch ≤ 57 then
    let d := ch.toNat - 48
    match p.cur with
    | none => if p.done.length < 4 then some { p with cur := some d } else none
    | some n =>
        if n = 0 ∨ 255 < n * 10 + d then none else some { p with cur := some (n * 10 + d) }
  else if ch = 46 then
    match p.cur with
    | none => none
    | some n => if p.done.length = 3 then none else some ⟨p.done ++ [n], none⟩
  else none

/-- The numbers, when there are four of them. -/
def result (p : Pton) : Option (List ℕ) :=
  match p.cur with
  | none => none
  | some n => if p.done.length = 3 then some (p.done ++ [n]) else none

end Pton

/-- `inet_pton(AF_INET, ip, &addr)`; there is no address when it returns 0. -/
def inet_pton (order : ByteOrder) (ip : Bytes) : Option (BitVec 32) :=
  ((ip.foldlM Pton.read .new).bind Pton.result).map (ofOctets order)

/-- `toHostPort(buf, size, addr)`. -/
def toHostPort (order : ByteOrder) (size : ℕ) (addr : InetAddress) : Bytes :=
  let host := (inet_ntop order addr.sinAddr 16).getD (ascii "INVALID")
  let port := networkToHost16 order addr.sinPort
  snprintf size (host ++ ascii ":" ++ percentU port.toNat)

/-- `fromHostToPort(ip, port, addr)`. -/
def fromHostToPort (order : ByteOrder) (ip : Bytes) (port : BitVec 16) (addr : InetAddress) :
    InetAddress where
  sinPort := hostToNetwork16 order port
  sinAddr := (inet_pton order ip).getD addr.sinAddr

/-- `isSelfConnect`, with what `getsockname` and `getpeername` return. -/
def isSelfConnect (localAddr peerAddr : InetAddress) : Bool :=
  localAddr.sinPort = peerAddr.sinPort ∧ localAddr.sinAddr = peerAddr.sinAddr

end Socketops

/-! ### `InetAddress` -/

namespace InetAddress

/-- `c_str()`, as a function in C reads it. -/
def cStr (s : Bytes) : Bytes := s.takeWhile (· ≠ 0)

/-- `InetAddress(port)`; `INADDR_ANY` is 0 in any order. -/
def any (order : ByteOrder) (port : BitVec 16) : InetAddress where
  sinAddr := 0
  sinPort := Socketops.hostToNetwork16 order port

/-- `InetAddress(ip, port)`. -/
def ofIp (order : ByteOrder) (ip : Bytes) (port : BitVec 16) : InetAddress :=
  Socketops.fromHostToPort order (cStr ip) port ⟨0, 0⟩

/-- `toHostPort()`. -/
def toHostPort (order : ByteOrder) (addr : InetAddress) : Bytes :=
  Socketops.toHostPort order 32 addr

end InetAddress

/-! ### Byte order -/

namespace Socketops

variable {o : ByteOrder}

theorem networkToHost16_hostToNetwork16 (v : BitVec 16) :
    networkToHost16 o (hostToNetwork16 o v) = v := by
  cases o with
  | big => rfl
  | little =>
    simp only [networkToHost16, hostToNetwork16]
    ext i hi
    simp only [BitVec.getElem_or, BitVec.getElem_shiftLeft, BitVec.getElem_ushiftRight,
      BitVec.getLsbD_or, BitVec.getLsbD_shiftLeft, BitVec.getLsbD_ushiftRight]
    grind

theorem hostToNetwork16_networkToHost16 (v : BitVec 16) :
    hostToNetwork16 o (networkToHost16 o v) = v := by
  cases o with
  | big => rfl
  | little => exact networkToHost16_hostToNetwork16 (o := .little) v

theorem length_octets (addr : BitVec 32) : (octets o addr).length = 4 := by
  cases o <;> rfl

theorem octets_lt (addr : BitVec 32) : ∀ n ∈ octets o addr, n < 256 := by
  have hmod : ∀ n, n % 256 < 256 := fun n => Nat.mod_lt n (by decide)
  cases o <;> simp [octets, hmod]

theorem ofOctets_octets (addr : BitVec 32) : ofOctets o (octets o addr) = addr := by
  have hlt := addr.isLt
  have hvalue : Nat.ofDigits 256 [addr.toNat % 256, addr.toNat / 256 % 256,
      addr.toNat / 65536 % 256, addr.toNat / 16777216 % 256] = addr.toNat := by
    simp only [Nat.ofDigits_cons, Nat.ofDigits_nil]
    omega
  cases o with
  | little =>
    simp only [ofOctets, octets]
    rw [hvalue, BitVec.ofNat_toNat, BitVec.setWidth_eq]
  | big =>
    simp only [ofOctets, octets, List.reverse_reverse]
    rw [hvalue, BitVec.ofNat_toNat, BitVec.setWidth_eq]

theorem octets_ofOctets {ns : List ℕ} (hlen : ns.length = 4) (hlt : ∀ n ∈ ns, n < 256) :
    octets o (ofOctets o ns) = ns := by
  obtain ⟨a, b, c, d, rfl⟩ := List.length_eq_four.1 hlen
  simp only [List.forall_mem_cons] at hlt
  obtain ⟨ha, hb, hc, hd, -⟩ := hlt
  cases o with
  | little =>
    simp only [ofOctets, octets, Nat.ofDigits_cons, Nat.ofDigits_nil, BitVec.toNat_ofNat,
      List.cons.injEq, and_true]
    omega
  | big =>
    simp only [ofOctets, octets, List.reverse_cons, List.reverse_nil, List.nil_append,
      List.cons_append, Nat.ofDigits_cons, Nat.ofDigits_nil, BitVec.toNat_ofNat, List.cons.injEq,
      and_true]
    omega

/-! ### Dotted numbers -/

theorem percentU_of_lt {d : ℕ} (hd : d < 10) : percentU d = [digit d] := by
  simp only [percentU, ascii, Nat.toList_repr]
  rw [Nat.toDigits_of_lt_base hd, List.map_singleton, digitChar_toUInt8 hd]

theorem percentU_add {n d : ℕ} (hn : n ≠ 0) (hd : d < 10) :
    percentU (n * 10 + d) = percentU n ++ [digit d] := by
  have hdiv : (n * 10 + d) / 10 = n := by omega
  have hmod : (n * 10 + d) % 10 = d := by omega
  simp only [percentU, ascii, Nat.toList_repr]
  rw [Nat.toDigits_of_base_le (by decide) (by omega : 10 ≤ n * 10 + d), hdiv, hmod,
    List.map_append, List.map_singleton, digitChar_toUInt8 hd]

theorem percentU_injective : Function.Injective percentU := fun _ _ h =>
  Int.ofNat_inj.1 (ascii_repr_injective h)

/-- A character between `'0'` and `'9'`. -/
theorem eq_digit {ch : UInt8} (h : 48 ≤ ch ∧ ch ≤ 57) :
    ch.toNat - 48 < 10 ∧ ch = digit (ch.toNat - 48) := by
  simp only [UInt8.le_iff_toNat_le] at h
  change 48 ≤ ch.toNat ∧ ch.toNat ≤ 57 at h
  have heq : 48 + (ch.toNat - 48) = ch.toNat := by omega
  refine ⟨by omega, ?_⟩
  rw [digit, heq, UInt8.ofNat_toNat]

theorem digit_isDigit {d : ℕ} (hd : d < 10) :
    (48 ≤ digit d ∧ digit d ≤ 57) ∧ (digit d).toNat - 48 = d := by
  have hall : ∀ d : Fin 10, (48 ≤ digit d ∧ digit d ≤ 57) ∧ (digit d).toNat - 48 = d := by decide
  exact hall ⟨d, hd⟩

namespace Pton

variable {p q : Pton} {ch : UInt8}

/-- What has been read. -/
def text (p : Pton) : Bytes :=
  (p.done.flatMap fun n => percentU n ++ [46]) ++ p.cur.elim [] percentU

/-- The numbers fit their bytes, and there are no more than four. -/
structure Valid (p : Pton) : Prop where
  done : ∀ n ∈ p.done, n < 256
  cur : ∀ n ∈ p.cur, n < 256
  length : p.done.length ≤ 3

theorem new_valid : new.Valid := ⟨by simp [new], by simp [new], by simp [new]⟩

/-- The cases of a character. -/
inductive Reads : Pton → UInt8 → Pton → Prop
  | first {done : List ℕ} {d : ℕ} (hd : d < 10) : Reads ⟨done, none⟩ (digit d) ⟨done, some d⟩
  | digit {done : List ℕ} {n d : ℕ} (hd : d < 10) (hn : n ≠ 0) (hlt : n * 10 + d < 256) :
      Reads ⟨done, some n⟩ (digit d) ⟨done, some (n * 10 + d)⟩
  | dot {done : List ℕ} {n : ℕ} (hdone : done.length ≠ 3) :
      Reads ⟨done, some n⟩ 46 ⟨done ++ [n], none⟩

theorem read_reads (h : p.read ch = some q) : Reads p ch q := by
  obtain ⟨done, cur⟩ := p
  by_cases hdigit : 48 ≤ ch ∧ ch ≤ 57
  · obtain ⟨hd, hch⟩ := eq_digit hdigit
    simp only [read, if_pos hdigit] at h
    generalize ch.toNat - 48 = d at h hd hch
    subst hch
    cases cur with
    | none =>
      obtain ⟨-, h⟩ := Option.ite_none_right_eq_some.1 h
      obtain rfl := Option.some.inj h
      exact .first hd
    | some n =>
      obtain ⟨hn, h⟩ := Option.ite_none_left_eq_some.1 h
      obtain rfl := Option.some.inj h
      rw [not_or] at hn
      exact .digit hd hn.1 (by omega)
  · simp only [read, if_neg hdigit] at h
    obtain ⟨rfl, h⟩ := Option.ite_none_right_eq_some.1 h
    cases cur with
    | none => cases h
    | some n =>
      obtain ⟨hdone, h⟩ := Option.ite_none_left_eq_some.1 h
      obtain rfl := Option.some.inj h
      exact .dot hdone

theorem Reads.text (h : Reads p ch q) : q.text = p.text ++ [ch] := by
  cases h with
  | first hd => simp [Pton.text, percentU_of_lt hd]
  | digit hd hn hlt => simp [Pton.text, percentU_add hn hd]
  | dot hdone => simp [Pton.text]

theorem Reads.valid (h : Reads p ch q) (hp : p.Valid) : q.Valid := by
  cases h with
  | first hd => exact ⟨hp.done, by simp; omega, hp.length⟩
  | digit hd hn hlt => exact ⟨hp.done, by simpa using hlt, hp.length⟩
  | @dot done n hdone =>
    have hlen := hp.length
    refine ⟨?_, by simp, ?_⟩
    · exact List.forall_mem_append.2 ⟨hp.done, by simpa using hp.cur⟩
    · change done.length ≤ 3 at hlen
      simp only [List.length_append, List.length_singleton]
      omega

/-- The state tells what has been read. -/
theorem foldlM_read {ip : Bytes} (h : ip.foldlM read p = some q) (hp : p.Valid) :
    q.Valid ∧ q.text = p.text ++ ip := by
  induction ip generalizing p with
  | nil =>
    cases h
    exact ⟨hp, (List.append_nil _).symm⟩
  | cons ch ip ih =>
    obtain ⟨r, hr, h⟩ := Option.bind_eq_some_iff.1 h
    have hreads := read_reads hr
    obtain ⟨hq, htext⟩ := ih h (hreads.valid hp)
    refine ⟨hq, ?_⟩
    rw [htext, hreads.text, List.append_assoc, List.singleton_append]

theorem read_first {done : List ℕ} {d : ℕ} (hdone : done.length < 4) (hd : d < 10) :
    read ⟨done, none⟩ (Jiangbo.digit d) = some ⟨done, some d⟩ := by
  obtain ⟨hdigit, hvalue⟩ := digit_isDigit hd
  simp only [read, if_pos hdigit, hvalue, if_pos hdone]

theorem read_digit {done : List ℕ} {n d : ℕ} (hd : d < 10) (hn : n ≠ 0) (hlt : n * 10 + d < 256) :
    read ⟨done, some n⟩ (Jiangbo.digit d) = some ⟨done, some (n * 10 + d)⟩ := by
  obtain ⟨hdigit, hvalue⟩ := digit_isDigit hd
  have hok : ¬(n = 0 ∨ 255 < n * 10 + d) := by omega
  simp only [read, if_pos hdigit, hvalue, if_neg hok]

/-- A number is read as a whole. -/
theorem foldlM_percentU {done : List ℕ} (hdone : done.length < 4) {n : ℕ} (hn : n < 256) :
    (percentU n).foldlM read ⟨done, none⟩ = some ⟨done, some n⟩ := by
  induction n using Nat.strong_induction_on with
  | _ n ih =>
    rcases lt_or_ge n 10 with hlt | hge
    · rw [percentU_of_lt hlt, List.foldlM_cons, read_first hdone hlt]
      rfl
    · have hsplit : n = n / 10 * 10 + n % 10 := by omega
      have hmod : n % 10 < 10 := Nat.mod_lt n (by decide)
      rw [hsplit, percentU_add (by omega) hmod, List.foldlM_append,
        ih (n / 10) (by omega) (by omega)]
      change List.foldlM read ⟨done, some (n / 10)⟩ [Jiangbo.digit (n % 10)] = _
      rw [List.foldlM_cons, read_digit hmod (by omega) (by omega)]
      rfl

/-- A number and the dot behind it. -/
theorem foldlM_number {done : List ℕ} (hdone : done.length < 3) {n : ℕ} (hn : n < 256)
    (ip : Bytes) : (percentU n ++ 46 :: ip).foldlM read ⟨done, none⟩ =
      ip.foldlM read ⟨done ++ [n], none⟩ := by
  have hdot : ¬((48 : UInt8) ≤ 46 ∧ (46 : UInt8) ≤ 57) := by decide
  have hread : read ⟨done, some n⟩ 46 = some ⟨done ++ [n], none⟩ := by
    simp only [read, if_neg hdot, if_true, if_neg hdone.ne]
  rw [List.foldlM_append, foldlM_percentU (by omega) hn]
  change List.foldlM read ⟨done, some n⟩ (46 :: ip) = _
  rw [List.foldlM_cons, hread]
  rfl

end Pton

theorem dotted_four (a b c d : ℕ) : dotted [a, b, c, d] =
    percentU a ++ 46 :: (percentU b ++ 46 :: (percentU c ++ 46 :: percentU d)) := by
  simp [dotted, List.intercalate, List.intersperse]

/-- The texts that `inet_pton` accepts are those that `inet_ntop` writes. -/
theorem pton_eq_some {ip : Bytes} {ns : List ℕ} :
    (ip.foldlM Pton.read .new).bind Pton.result = some ns ↔
      ns.length = 4 ∧ (∀ n ∈ ns, n < 256) ∧ ip = dotted ns := by
  constructor
  · intro h
    obtain ⟨⟨done, cur⟩, hread, hresult⟩ := Option.bind_eq_some_iff.1 h
    obtain ⟨hvalid, htext⟩ := Pton.foldlM_read hread Pton.new_valid
    unfold Pton.result at hresult
    cases cur with
    | none => cases hresult
    | some n =>
      obtain ⟨hdone, hns⟩ := Option.ite_none_right_eq_some.1 hresult
      obtain rfl := Option.some.inj hns
      obtain ⟨a, b, c, rfl⟩ := List.length_eq_three.1 hdone
      refine ⟨rfl, List.forall_mem_append.2 ⟨hvalid.done, by simpa using hvalid.cur⟩, ?_⟩
      change ([a, b, c].flatMap fun n => percentU n ++ [46]) ++ percentU n = ip at htext
      change ip = dotted [a, b, c, n]
      rw [← htext, dotted_four]
      simp
  · rintro ⟨hlen, hlt, rfl⟩
    obtain ⟨a, b, c, d, rfl⟩ := List.length_eq_four.1 hlen
    simp only [List.forall_mem_cons] at hlt
    obtain ⟨ha, hb, hc, hd, -⟩ := hlt
    rw [dotted_four, Pton.new, Pton.foldlM_number (by simp) ha, Pton.foldlM_number (by simp) hb,
      Pton.foldlM_number (by simp) hc, Pton.foldlM_percentU (by simp) hd]
    rfl

instance (text : Bytes) : Decidable (Dotted text) :=
  decidable_of_iff (((text.foldlM Pton.read .new).bind Pton.result).isSome = true) <| by
    simp only [Option.isSome_iff_exists, pton_eq_some, Dotted]

theorem dotted_injOn {ns ns' : List ℕ} (hlen : ns.length = 4) (hlt : ∀ n ∈ ns, n < 256)
    (h : dotted ns = dotted ns') (hlen' : ns'.length = 4) (hlt' : ∀ n ∈ ns', n < 256) :
    ns = ns' := by
  have hread := pton_eq_some.2 ⟨hlen, hlt, rfl⟩
  rw [h, pton_eq_some.2 ⟨hlen', hlt', rfl⟩] at hread
  exact (Option.some.inj hread).symm

theorem length_percentU_le {n k : ℕ} (hk : 0 < k) (hn : n < 10 ^ k) : (percentU n).length ≤ k := by
  rw [percentU, ascii, List.length_map, Nat.toList_repr]
  exact (Nat.length_toDigits_le_iff (by decide) hk).2 hn

theorem notMem_percentU {ch : UInt8} (hdigit : ∀ d : Fin 10, ch ≠ digit d) (n : ℕ) :
    ch ∉ percentU n := by
  intro hmem
  rw [percentU, ascii, Nat.toList_repr] at hmem
  obtain ⟨d, hd⟩ := exists_digit hmem
  exact hdigit d hd

/-- There are digits and dots only. -/
theorem notMem_dotted {ch : UInt8} (hdigit : ∀ d : Fin 10, ch ≠ digit d) (hdot : ch ≠ 46)
    {ns : List ℕ} (hlen : ns.length = 4) : ch ∉ dotted ns := by
  obtain ⟨a, b, c, d, rfl⟩ := List.length_eq_four.1 hlen
  simp [dotted_four, notMem_percentU hdigit, hdot]

theorem inet_ntop_eq (addr : BitVec 32) :
    (dotted (octets o addr)).length ≤ 15 ∧
      inet_ntop o addr 16 = some (dotted (octets o addr)) := by
  have hlen : (dotted (octets o addr)).length ≤ 15 := by
    have hlt := octets_lt (o := o) addr
    obtain ⟨a, b, c, d, hoctets⟩ := List.length_eq_four.1 (length_octets (o := o) addr)
    rw [hoctets] at hlt
    simp only [List.forall_mem_cons] at hlt
    obtain ⟨ha, hb, hc, hd, -⟩ := hlt
    have hla := length_percentU_le (k := 3) (by decide) (ha.trans (by decide))
    have hlb := length_percentU_le (k := 3) (by decide) (hb.trans (by decide))
    have hlc := length_percentU_le (k := 3) (by decide) (hc.trans (by decide))
    have hld := length_percentU_le (k := 3) (by decide) (hd.trans (by decide))
    rw [hoctets, dotted_four]
    simp only [List.length_append, List.length_cons]
    omega
  exact ⟨hlen, if_pos (by omega)⟩

/-- The text fits its buffer. -/
theorem toHostPort_eq (addr : InetAddress) : toHostPort o 32 addr =
    dotted (octets o addr.sinAddr) ++ 58 :: percentU (networkToHost16 o addr.sinPort).toNat := by
  have hcolon : ascii ":" = [58] := rfl
  obtain ⟨hlen, hntop⟩ := inet_ntop_eq (o := o) addr.sinAddr
  have hport := length_percentU_le (k := 5) (by decide)
    ((networkToHost16 o addr.sinPort).isLt.trans (by decide : 2 ^ 16 < 10 ^ 5))
  rw [toHostPort, hntop, Option.getD_some, hcolon, snprintf, List.append_assoc,
    List.singleton_append]
  refine List.take_of_length_le ?_
  rw [List.length_append, List.length_cons]
  omega

end Socketops

namespace InetAddress

open Socketops

variable {o : ByteOrder}

/-- Different addresses show different texts. -/
theorem toHostPort_injective : Function.Injective (toHostPort o) := by
  intro a b h
  have hlena := length_octets (o := o) a.sinAddr
  have hlenb := length_octets (o := o) b.sinAddr
  have hcolon : ∀ d : Fin 10, (58 : UInt8) ≠ digit d := by decide
  rw [toHostPort, toHostPort, Socketops.toHostPort_eq, Socketops.toHostPort_eq,
    List.append_cons_inj_of_notMem (notMem_dotted hcolon (by decide) hlena)
      (notMem_percentU hcolon _)] at h
  obtain ⟨haddr, -, hport⟩ := h
  have hsinAddr := dotted_injOn hlena (octets_lt _) haddr hlenb (octets_lt _)
  have hsinPort := BitVec.eq_of_toNat_eq (percentU_injective hport)
  cases a
  cases b
  rw [mk.injEq]
  exact ⟨Function.LeftInverse.injective (ofOctets_octets (o := o)) hsinAddr,
    Function.LeftInverse.injective (hostToNetwork16_networkToHost16 (o := o)) hsinPort⟩

/-- What the constructor makes of a text. -/
theorem ofIp_of_dotted {ip : Bytes} {ns : List ℕ} (hlen : ns.length = 4) (hlt : ∀ n ∈ ns, n < 256)
    (hip : cStr ip = dotted ns) (port : BitVec 16) :
    ofIp o ip port = ⟨ofOctets o ns, hostToNetwork16 o port⟩ := by
  rw [ofIp, fromHostToPort, inet_pton, pton_eq_some.2 ⟨hlen, hlt, hip⟩]
  rfl

theorem ofIp_of_not_dotted {ip : Bytes} (hip : ¬Dotted (cStr ip)) (port : BitVec 16) :
    ofIp o ip port = any o port := by
  have hnone : ((cStr ip).foldlM Pton.read .new).bind Pton.result = none := by
    rw [Option.eq_none_iff_forall_ne_some]
    exact fun ns hns => hip ⟨ns, pton_eq_some.1 hns⟩
  rw [ofIp, fromHostToPort, inet_pton, hnone]
  rfl

theorem toHostPort_ofIp {ip : Bytes} (hip : Dotted (cStr ip)) (port : BitVec 16) :
    toHostPort o (ofIp o ip port) = cStr ip ++ 58 :: percentU port.toNat := by
  obtain ⟨ns, hlen, hlt, hns⟩ := hip
  rw [ofIp_of_dotted hlen hlt hns, toHostPort, Socketops.toHostPort_eq, octets_ofOctets hlen hlt,
    networkToHost16_hostToNetwork16, hns]

/-- The constructor reads the text of an address back. -/
theorem ofIp_dotted (addr : InetAddress) : ofIp o (dotted (octets o addr.sinAddr))
    (networkToHost16 o addr.sinPort) = addr := by
  have hlen := length_octets (o := o) addr.sinAddr
  have hzero : (0 : UInt8) ∉ dotted (octets o addr.sinAddr) :=
    notMem_dotted (by decide) (by decide) hlen
  have hcStr : cStr (dotted (octets o addr.sinAddr)) = dotted (octets o addr.sinAddr) := by
    refine List.takeWhile_eq_self_iff.2 fun ch hch => ?_
    exact decide_eq_true (ne_of_mem_of_not_mem hch hzero)
  rw [ofIp_of_dotted hlen (octets_lt _) hcStr, ofOctets_octets, hostToNetwork16_networkToHost16]

end InetAddress

/-- **Addresses and their texts.** On a host of either byte order: an address that is made of a
dotted text and a port shows just these, and an address made of any other text is `INADDR_ANY` with
the port; different addresses show different texts, so that a connection is to itself exactly if
both ends show the same one; and every address is made of what it shows. -/
theorem inet_address_texts (order : ByteOrder) :
    (∀ ip port, Socketops.Dotted (InetAddress.cStr ip) →
      (InetAddress.ofIp order ip port).toHostPort order =
        InetAddress.cStr ip ++ 58 :: Socketops.percentU port.toNat) ∧
    (∀ ip port, ¬Socketops.Dotted (InetAddress.cStr ip) →
      InetAddress.ofIp order ip port = .any order port) ∧
    (∀ a b : InetAddress, Socketops.isSelfConnect a b = true ↔
      a.toHostPort order = b.toHostPort order) ∧
    ∀ a : InetAddress, ∃ ip port, a.toHostPort order = ip ++ 58 :: Socketops.percentU port.toNat ∧
      InetAddress.ofIp order ip port = a := by
  refine ⟨fun ip port hip => InetAddress.toHostPort_ofIp hip port,
    fun ip port hip => InetAddress.ofIp_of_not_dotted hip port, fun a b => ?_,
    fun a => ⟨_, _, Socketops.toHostPort_eq a, InetAddress.ofIp_dotted a⟩⟩
  rw [InetAddress.toHostPort_injective.eq_iff, InetAddress.mk.injEq, Socketops.isSelfConnect,
    decide_eq_true_iff]
  exact and_comm

/-- An address with a port, and a text that is no address. -/
theorem inet_address_texts_loopback :
    (InetAddress.ofIp .little (ascii "127.0.0.1") 2007).toHostPort .little =
        ascii "127.0.0.1:2007" ∧
      InetAddress.ofIp .little (ascii "127.0.0.01") 2007 = .any .little 2007 :=
  ⟨(inet_address_texts .little).1 (ascii "127.0.0.1") 2007 (by decide +kernel),
    (inet_address_texts .little).2.1 (ascii "127.0.0.01") 2007 (by decide +kernel)⟩

end Jiangbo
