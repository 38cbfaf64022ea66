import LearnForCpp.Lib.Transition
import LearnForCpp.Lib.AssocList
import LearnForCpp.Lib.SharedMutex
import Mathlib.Data.Fin.Basic
import Mathlib.Data.List.FinRange

/-!
# `threadsafe_lookup_table`

`thread/threadsafe_lookup_table.cc`: a hash table with a `std::shared_mutex` for each bucket.  A
call of `value_for` or `add_or_update_mapping` locks the bucket of its key, looks for the entry,
reads or writes it, and unlocks; the calls of any threads overlap.

The constructor initialises the member `hasher_` with itself, not with its argument.  The member is
`hash` here, and the argument `hasher`: for a hash object without state they are the same function,
otherwise `hash` is whatever the storage of the table held.  `adds` is for the proofs: the pairs
that were written, the latest first.
-/

namespace Jiangbo

/-- A call of one of the two functions. -/
inductive TableCall (K V : Type*)
  | valueFor (key : K) (default : V)
  | addOrUpdateMapping (key : K) (value : V)

/-- Where a thread stands in the functions of a bucket. -/
inductive TablePc (K V : Type*)
  | idle
  /-- The call asks for the lock of the bucket. -/
  | asking (c : TableCall K V)
  /-- The call has the lock, and is about to look for the entry. -/
  | finding (c : TableCall K V)
  /-- `found_entry` is set; `none` stands for `data_.end()`. -/
  | accessing (c : TableCall K V) (found : Option ℕ)
  /-- The call is about to unlock. -/
  | unlocking (c : TableCall K V)

inductive TableAction (T K V : Type*)
  | call (t : T) (c : TableCall K V)
  /-- The constructor of the `shared_lock` or the `unique_lock`. -/
  | lock (t : T)
  /-- `find_entry_for`. -/
  | find (t : T)
  /-- The entry is read, overwritten or added. -/
  | access (t : T)
  /-- The destructor of the lock. -/
  | unlock (t : T)

/-- `bucket_type`. -/
structure Bucket (T K V : Type*) where
  data : List (K × V)
  mutex : SharedMutex T

structure LookupTable (n : ℕ) (T K V : Type*) where
  /-- `buckets_`. -/
  buckets : Fin n → Bucket T K V
  pc : T → TablePc K V
  /-- What `value_for` has returned to the thread. -/
  result : T → Option V
  /-- An entry was used that is not there. -/
  failed : Bool
  adds : List (K × V)

namespace TableCall

variable {K V : Type*}

def key : TableCall K V → K
  | valueFor key _ => key
  | addOrUpdateMapping key _ => key

/-- `value_for` shares the lock. -/
def mode : TableCall K V → LockMode
  | valueFor _ _ => .shared
  | addOrUpdateMapping _ _ => .exclusive

/-- The pair that the call writes. -/
def written : TableCall K V → List (K × V)
  | valueFor _ _ => []
  | addOrUpdateMapping key value => [(key, value)]

/-- What the call does with `found_entry`: the entries afterwards, and the value that is returned.
There is no result when the position is not that of an entry. -/
def access (found : Option ℕ) (data : List (K × V)) :
    TableCall K V → Option (List (K × V) × Option V)
  | valueFor _ default =>
      match found with
      | none => some (data, some default)
      | some i => data[i]?.map fun e => (data, some e.2)
  | addOrUpdateMapping key value =>
      match found with
      | none => some (data ++ [(key, value)], none)
      | some i => data[i]?.map fun _ => (data.modify i fun e => (e.1, value), none)

end TableCall

namespace Bucket

variable {T K V : Type*} [DecidableEq K]

/-- `find_entry_for`: the position of the first entry with the key. -/
def findEntryFor (key : K) (b : Bucket T K V) : Option ℕ :=
  b.data.findIdx? fun item => item.1 = key

end Bucket

namespace LookupTable

variable {n : ℕ} {T K V : Type*}

/-- A new table. -/
def new : LookupTable n T K V :=
  ⟨fun _ => ⟨[], .free⟩, fun _ => .idle, fun _ => none, false, []⟩

/-- `get_bucket`. -/
def getBucket (n : ℕ) [NeZero n] (hash : K → UInt64) (key : K) : Fin n :=
  Fin.ofNat n (hash key).toNat

section Steps

variable [NeZero n] [DecidableEq T] [DecidableEq K] (hash : K → UInt64)

/-- The bucket of the key. -/
def bucketOf (key : K) (s : LookupTable n T K V) : Bucket T K V :=
  s.buckets (getBucket n hash key)

def setPc (t : T) (p : TablePc K V) (s : LookupTable n T K V) : LookupTable n T K V :=
  { s with pc := Function.update s.pc t p }

def setMutex (key : K) (mutex : SharedMutex T) (s : LookupTable n T K V) : LookupTable n T K V :=
  { s with
    buckets := Function.update s.buckets (getBucket n hash key)
      { s.bucketOf hash key with mutex := mutex } }

def setData (key : K) (data : List (K × V)) (s : LookupTable n T K V) : LookupTable n T K V :=
  { s with
    buckets := Function.update s.buckets (getBucket n hash key)
      { s.bucketOf hash key with data := data } }

def call (t : T) (c : TableCall K V) (s : LookupTable n T K V) : Option (LookupTable n T K V) :=
  match s.pc t with
  | .idle => some (s.setPc t (.asking c))
  | _ => none

def lock (t : T) (s : LookupTable n T K V) : Option (LookupTable n T K V) :=
  match s.pc t with
  | .asking c =>
      ((s.bucketOf hash c.key).mutex.acquire t c.mode).map fun mutex =>
        (s.setMutex hash c.key mutex).setPc t (.finding c)
  | _ => none

def find (t : T) (s : LookupTable n T K V) : Option (LookupTable n T K V) :=
  match s.pc t with
  | .finding c => some (s.setPc t (.accessing c ((s.bucketOf hash c.key).findEntryFor c.key)))
  | _ => none

def access (t : T) (s : LookupTable n T K V) : Option (LookupTable n T K V) :=
  match s.pc t with
  | .accessing c found =>
      match c.access found (s.bucketOf hash c.key).data with
      | none => some { s with failed := true }
      | some (data, value) =>
          some { (s.setData hash c.key data).setPc t (.unlocking c) with
            result := Function.update s.result t value
            adds := c.written ++ s.adds }
  | _ => none

def unlock (t : T) (s : LookupTable n T K V) : Option (LookupTable n T K V) :=
  match s.pc t with
  | .unlocking c =>
      some ((s.setMutex hash c.key ((s.bucketOf hash c.key).mutex.release t c.mode)).setPc t .idle)
  | _ => none

/-- One step. -/
def next (s : LookupTable n T K V) : TableAction T K V → Option (LookupTable n T K V)
  | .call t c => s.call t c
  | .lock t => s.lock hash t
  | .find t => s.find hash t
  | .access t => s.access hash t
  | .unlock t => s.unlock hash t

/-- What `value_for` finds in the table as it is. -/
def valueFor (key : K) (default : V) (s : LookupTable n T K V) : Option V :=
  ((TableCall.valueFor key default).access ((s.bucketOf hash key).findEntryFor key)
    (s.bucketOf hash key).data).bind Prod.snd

/-- The table is the finite map of the pairs that were written. -/
structure Refines (hasher : K → UInt64) (s : LookupTable n T K V) (a : TableAction T K V)
    (u : LookupTable n T K V) : Prop where
  ok : u.failed = false
  /-- A key has one entry at most in all buckets. -/
  once : ((List.finRange n).flatMap fun i => (u.buckets i).data.map Prod.fst).Nodup
  /-- An entry is in the bucket that the hash function selects. -/
  placed : ∀ i, ∀ e ∈ (u.buckets i).data, getBucket n hasher e.1 = i
  latest : ∀ key default, u.valueFor hash key default = some ((u.adds.lookup key).getD default)
  /-- `value_for` returns the value that was written latest. -/
  returned : ∀ t key default found, a = .access t →
    s.pc t = .accessing (.valueFor key default) found →
    u.result t = some ((s.adds.lookup key).getD default)
  /-- A write of one key is seen under no other. -/
  frame : ∀ t key value found, a = .access t →
    s.pc t = .accessing (.addOrUpdateMapping key value) found →
    ∀ other default, other ≠ key → u.valueFor hash other default = s.valueFor hash other default

/-- The two hash functions agree on the bucket of a key that is about to be written. -/
def Selects (hasher : K → UInt64) (s : LookupTable n T K V) : TableAction T K V → Prop
  | .access t =>
      match s.pc t with
      | .accessing (.addOrUpdateMapping key _) _ => getBucket n hash key = getBucket n hasher key
      | _ => True
  | _ => True

end Steps

end LookupTable

/-- The runs of threads with a table of `n` buckets, whose member `hasher_` is `hash`. -/
def lookupTables (n : ℕ) [NeZero n] (T V : Type*) {K : Type*} [DecidableEq T] [DecidableEq K]
    (hash : K → UInt64) : LTS (LookupTable n T K V) (TableAction T K V) where
  init s := s = .new
  next := LookupTable.next hash

/-! ### One call -/

namespace TableCall

variable {K V : Type*} {c : TableCall K V} {data : List (K × V)}

theorem mem_keys_written {key : K} (h : key ∈ c.written.map Prod.fst) : key = c.key := by
  cases c with
  | valueFor => simp [written] at h
  | addOrUpdateMapping k v => simpa [written, TableCall.key] using h

variable [DecidableEq K]

/-- The entries after the call. -/
def stored (data : List (K × V)) : TableCall K V → List (K × V)
  | valueFor _ _ => data
  | addOrUpdateMapping key value => AssocList.store (AssocList.find key data) key value data

/-- What the call returns. -/
def returned (data : List (K × V)) : TableCall K V → Option V
  | valueFor key default => some ((data.lookup key).getD default)
  | addOrUpdateMapping _ _ => none

/-- **The entry that was found** is used as the map wants it. -/
theorem access_find (c : TableCall K V) (data : List (K × V)) :
    c.access (AssocList.find c.key data) data = some (c.stored data, c.returned data) := by
  cases hfind : AssocList.find c.key data with
  | none =>
    have hlookup : data.lookup c.key = none := by
      refine List.lookup_eq_none_iff.2 fun e he => bne_iff_ne.2 fun hkey => ?_
      exact AssocList.find_eq_none hfind (hkey ▸ List.mem_map_of_mem he)
    cases c with
    | valueFor key default =>
      rw [TableCall.key] at hlookup
      rw [access, stored, returned, hlookup, Option.getD_none]
    | addOrUpdateMapping key value =>
      rw [TableCall.key] at hfind
      rw [access, stored, returned, hfind, AssocList.store]
  | some i =>
    obtain ⟨v, hget, hlookup⟩ := AssocList.find_eq_some hfind
    cases c with
    | valueFor key default =>
      rw [TableCall.key] at hget hlookup
      simp only [access, stored, returned, hget, hlookup, Option.map_some, Option.getD_some]
    | addOrUpdateMapping key value =>
      rw [TableCall.key] at hfind hget
      simp only [access, stored, returned, hget, hfind, Option.map_some, AssocList.store]

theorem lookup_stored (c : TableCall K V) (data : List (K × V)) (key : K) :
    (c.stored data).lookup key = (c.written.lookup key).or (data.lookup key) := by
  cases c with
  | valueFor => rfl
  | addOrUpdateMapping k v =>
    rw [stored, AssocList.lookup_store, written, AssocList.lookup_cons_eq]
    split_ifs <;> rfl

theorem nodup_stored (c : TableCall K V) (h : (data.map Prod.fst).Nodup) :
    ((c.stored data).map Prod.fst).Nodup := by
  cases c with
  | valueFor => exact h
  | addOrUpdateMapping k v => exact AssocList.nodup_keys_store k v h

theorem mem_stored {e : K × V} (h : e ∈ c.stored data) :
    e.1 ∈ data.map Prod.fst ∨ e.1 ∈ c.written.map Prod.fst := by
  cases c with
  | valueFor => exact .inl (List.mem_map_of_mem h)
  | addOrUpdateMapping k v =>
    exact (AssocList.mem_keys_store h).symm.imp_right fun hk => by simp [written, hk]

theorem lookup_written {key : K} (h : key ≠ c.key) : c.written.lookup key = none := by
  cases c with
  | valueFor => rfl
  | addOrUpdateMapping k v => exact (AssocList.lookup_cons_eq (k, v) [] key).trans (if_neg h)

end TableCall

/-! ### The entries -/

namespace LookupTable

variable {n : ℕ} {T K V : Type*} {hash : K → UInt64} {s u : LookupTable n T K V} {t : T}
  {c : TableCall K V} {hasher : K → UInt64}

/-- A hash object without state is the same before and after. -/
theorem selects_self [NeZero n] (s : LookupTable n T K V) (a : TableAction T K V) :
    s.Selects hash hash a := by
  unfold Selects
  split
  · split <;> trivial
  · trivial

/-- Two states that differ in locks and places only. -/
structure SameData (s u : LookupTable n T K V) : Prop where
  data : ∀ i, (u.buckets i).data = (s.buckets i).data
  adds : u.adds = s.adds
  failed : u.failed = s.failed

section Mutex

variable [NeZero n]

theorem setMutex_data (key : K) (mutex : SharedMutex T) (i : Fin n) :
    ((s.setMutex hash key mutex).buckets i).data = (s.buckets i).data := by
  rw [setMutex]
  dsimp only
  by_cases hi : i = getBucket n hash key
  · rw [hi, Function.update_self, bucketOf]
  · rw [Function.update_of_ne hi]

theorem setMutex_mutex (key : K) (mutex : SharedMutex T) (i : Fin n) :
    ((s.setMutex hash key mutex).buckets i).mutex =
      if i = getBucket n hash key then mutex else (s.buckets i).mutex := by
  rw [setMutex]
  dsimp only
  split_ifs with hi
  · rw [hi, Function.update_self]
  · rw [Function.update_of_ne hi]

theorem setData_data (key : K) (data : List (K × V)) (i : Fin n) :
    ((s.setData hash key data).buckets i).data =
      if i = getBucket n hash key then data else (s.buckets i).data := by
  rw [setData]
  dsimp only
  split_ifs with hi
  · rw [hi, Function.update_self]
  · rw [Function.update_of_ne hi]

theorem setData_mutex (key : K) (data : List (K × V)) (i : Fin n) :
    ((s.setData hash key data).buckets i).mutex = (s.buckets i).mutex := by
  rw [setData]
  dsimp only
  by_cases hi : i = getBucket n hash key
  · rw [hi, Function.update_self, bucketOf]
  · rw [Function.update_of_ne hi]

end Mutex

section Places

variable [DecidableEq T]

theorem setPc_pc (t : T) (p : TablePc K V) (s : LookupTable n T K V) :
    (s.setPc t p).pc = Function.update s.pc t p := rfl

theorem sameData_setPc (t : T) (p : TablePc K V) : s.SameData (s.setPc t p) :=
  ⟨fun _ => rfl, rfl, rfl⟩

theorem sameData_setMutex [NeZero n] (key : K) (mutex : SharedMutex T) (t : T) (p : TablePc K V) :
    s.SameData ((s.setMutex hash key mutex).setPc t p) :=
  ⟨fun i => setMutex_data key mutex i, rfl, rfl⟩

end Places

variable [NeZero n] [DecidableEq K]

/-- Every entry is in the bucket that the hash function selects. -/
def Placed (hash : K → UInt64) (s : LookupTable n T K V) : Prop :=
  ∀ i, ∀ e ∈ (s.buckets i).data, getBucket n hash e.1 = i

/-- The entries are those of the map `adds`. -/
structure Represents (hash : K → UInt64) (s : LookupTable n T K V) : Prop where
  ok : s.failed = false
  nodup : ∀ i, ((s.buckets i).data.map Prod.fst).Nodup
  placed : s.Placed hash
  latest : ∀ key, (s.bucketOf hash key).data.lookup key = s.adds.lookup key

theorem new_represents : (new : LookupTable n T K V).Represents hash :=
  ⟨rfl, fun _ => List.nodup_nil, fun _ _ he => absurd he List.not_mem_nil, fun _ => rfl⟩

theorem Represents.of_sameData (hs : s.Represents hash) (h : s.SameData u) :
    u.Represents hash where
  ok := h.failed.trans hs.ok
  nodup i := h.data i ▸ hs.nodup i
  placed i := h.data i ▸ hs.placed i
  latest key := by
    rw [bucketOf, h.data, h.adds]
    exact hs.latest key

/-- What `value_for` finds is what the map has. -/
theorem Represents.valueFor (hs : s.Represents hash) (key : K) (default : V) :
    s.valueFor hash key default = some ((s.adds.lookup key).getD default) := by
  rw [← hs.latest key]
  exact congrArg (fun r => r.bind Prod.snd)
    ((TableCall.valueFor key default).access_find (s.bucketOf hash key).data)

/-- A key with two entries would have them in one bucket. -/
theorem Represents.once (hs : s.Represents hash) :
    ((List.finRange n).flatMap fun i => (s.buckets i).data.map Prod.fst).Nodup := by
  refine List.nodup_flatMap.2 ⟨fun i _ => hs.nodup i, ?_⟩
  refine (List.nodup_finRange n).imp fun {i j} hij key hi hj => hij ?_
  obtain ⟨e, he, rfl⟩ := List.mem_map.1 hi
  obtain ⟨e', he', hkey⟩ := List.mem_map.1 hj
  rw [← hs.placed i e he, ← hs.placed j e' he', hkey]

variable [DecidableEq T]

/-- The state after the entry of a call was used. -/
def accessed (hash : K → UInt64) (t : T) (c : TableCall K V) (s : LookupTable n T K V) :
    LookupTable n T K V :=
  { (s.setData hash c.key (c.stored (s.bucketOf hash c.key).data)).setPc t (.unlocking c) with
    result := Function.update s.result t (c.returned (s.bucketOf hash c.key).data)
    adds := c.written ++ s.adds }

theorem accessed_data (i : Fin n) :
    ((s.accessed hash t c).buckets i).data =
      if i = getBucket n hash c.key then c.stored (s.buckets i).data else (s.buckets i).data := by
  refine (setData_data c.key _ i).trans ?_
  split_ifs with hi
  · rw [hi, bucketOf]
  · rfl

theorem placed_accessed (hs : s.Placed hasher)
    (hc : ∀ key ∈ c.written.map Prod.fst, getBucket n hash key = getBucket n hasher key) :
    (s.accessed hash t c).Placed hasher := by
  intro i e he
  rw [accessed_data] at he
  split_ifs at he with hi
  · rcases TableCall.mem_stored he with hold | hnew
    · obtain ⟨e', he', heq⟩ := List.mem_map.1 hold
      rw [← heq]
      exact hs i e' he'
    -- the entry is new: its key is the one that is written
    · rw [← hc e.1 hnew, hi, TableCall.mem_keys_written hnew]
  · exact hs i e he

theorem Represents.accessed (hs : s.Represents hash) (t : T) (c : TableCall K V) :
    (s.accessed hash t c).Represents hash where
  ok := hs.ok
  nodup i := by
    rw [accessed_data]
    split_ifs
    · exact c.nodup_stored (hs.nodup i)
    · exact hs.nodup i
  placed := placed_accessed hs.placed fun _ _ => rfl
  latest key := by
    show ((s.accessed hash t c).buckets (getBucket n hash key)).data.lookup key =
      (c.written ++ s.adds).lookup key
    rw [accessed_data, List.lookup_append, ← hs.latest key]
    split_ifs with hi
    · exact c.lookup_stored _ key
    · -- a key of another bucket is not the one that is written
      rw [TableCall.lookup_written fun hkey => hi (hkey ▸ rfl), Option.none_or]
      rfl

end LookupTable

/-! ### The locks -/

/-- The call that has the lock of its bucket. -/
def TablePc.locked {K V : Type*} : TablePc K V → Option (TableCall K V)
  | .finding c | .accessing c _ | .unlocking c => some c
  | .idle | .asking _ => none

/-- The bucket that is locked, and how. -/
def TablePc.held {K V : Type*} (n : ℕ) [NeZero n] (hash : K → UInt64) (p : TablePc K V) :
    Option (Fin n × LockMode) :=
  p.locked.map fun c => (LookupTable.getBucket n hash c.key, c.mode)

namespace LookupTable

variable {n : ℕ} [NeZero n] {T K V : Type*} [DecidableEq K] {hash : K → UInt64}
  {s u : LookupTable n T K V} {t : T} {c : TableCall K V} {p : TablePc K V}

/-- The entries are those of the map, the locks are with the calls that have them, and a position
that was found is still that of the key. -/
structure Inv (hash : K → UInt64) (s : LookupTable n T K V) : Prop extends s.Represents hash where
  owner : ∀ i v mode,
    (s.buckets i).mutex.Holds v mode ↔ (s.pc v).held n hash = some (i, mode)
  found : ∀ v c found, s.pc v = .accessing c found →
    found = AssocList.find c.key (s.bucketOf hash c.key).data

theorem new_inv : (new : LookupTable n T K V).Inv hash where
  toRepresents := new_represents
  owner _ _ _ := iff_of_false SharedMutex.not_holds_free nofun
  found _ _ _ h := by cases h

/-- No other call has the lock of a bucket that is being written. -/
theorem Inv.apart (hs : s.Inv hash) {v : T} {c' : TableCall K V} (ht : (s.pc t).locked = some c)
    (hmode : c.mode = .exclusive) (hv : (s.pc v).locked = some c') (hne : v ≠ t) :
    getBucket n hash c'.key ≠ getBucket n hash c.key := by
  intro hbucket
  -- both would have the lock of the bucket, and one of them to write
  have hwriter := (hs.owner (getBucket n hash c.key) t .exclusive).2 (by
    rw [TablePc.held, ht, Option.map_some, hmode])
  have hother := (hs.owner (getBucket n hash c.key) v c'.mode).2 (by
    rw [TablePc.held, hv, Option.map_some, hbucket])
  exact hne (hwriter.eq_of_exclusive hother).1

variable [DecidableEq T]

/-- A step of one thread that leaves the entries alone. -/
theorem Inv.moves (hs : s.Inv hash) (hdata : s.SameData u) (hpc : u.pc = Function.update s.pc t p)
    (howner : ∀ i v mode, (u.buckets i).mutex.Holds v mode ↔ (u.pc v).held n hash = some (i, mode))
    (hfound : ∀ c found, p = .accessing c found →
      found = AssocList.find c.key (s.bucketOf hash c.key).data) : u.Inv hash where
  toRepresents := hs.of_sameData hdata
  owner := howner
  found v c found h := by
    rw [bucketOf, hdata.data]
    rw [hpc] at h
    by_cases hv : v = t
    · rw [hv, Function.update_self] at h
      exact hfound c found h
    · rw [Function.update_of_ne hv] at h
      exact hs.found v c found h

/-- A thread that moves on without a lock, or with the one that it has. -/
theorem Inv.setPc (hs : s.Inv hash) (hlocked : p.locked = (s.pc t).locked)
    (hfound : ∀ c found, p = .accessing c found →
      found = AssocList.find c.key (s.bucketOf hash c.key).data) : (s.setPc t p).Inv hash := by
  refine hs.moves (sameData_setPc t p) rfl (fun i v mode => ?_) hfound
  have hheld : ((s.setPc t p).pc v).held n hash = (s.pc v).held n hash := by
    rw [setPc_pc]
    by_cases hv : v = t
    · rw [hv, Function.update_self, TablePc.held, hlocked, TablePc.held]
    · rw [Function.update_of_ne hv]
  rw [hheld]
  exact hs.owner i v mode

theorem Inv.lock (hs : s.Inv hash) (h : s.lock hash t = some u) : u.Inv hash := by
  unfold LookupTable.lock at h
  split at h
  · rename_i c hpc
    obtain ⟨mutex, hmutex, rfl⟩ := Option.map_eq_some_iff.1 h
    refine hs.moves (sameData_setMutex c.key mutex t _) rfl (fun i v mode => ?_) (by simp)
    show ((s.setMutex hash c.key mutex).buckets i).mutex.Holds v mode ↔
      (Function.update s.pc t (.finding c) v).held n hash = some (i, mode)
    have hnone : (s.pc t).held n hash = none := by rw [hpc]; rfl
    have hsome : (TablePc.finding c).held n hash = some (getBucket n hash c.key, c.mode) := rfl
    rw [setMutex_mutex]
    split_ifs with hi
    · rw [SharedMutex.acquire_holds hmutex, bucketOf, ← hi, hs.owner]
      by_cases hv : v = t
      · rw [hv, Function.update_self, hnone, hsome, ← hi]
        simp [eq_comm]
      · simp [hv]
    · rw [hs.owner]
      by_cases hv : v = t
      · rw [hv, Function.update_self, hnone, hsome]
        simp [Ne.symm hi]
      · rw [Function.update_of_ne hv]
  · cases h

theorem Inv.unlock (hs : s.Inv hash) (h : s.unlock hash t = some u) : u.Inv hash := by
  unfold LookupTable.unlock at h
  split at h
  · rename_i c hpc
    obtain rfl := Option.some.inj h
    refine hs.moves (sameData_setMutex c.key _ t _) rfl (fun i v mode => ?_) (by simp)
    have hsome : (s.pc t).held n hash = some (getBucket n hash c.key, c.mode) := by rw [hpc]; rfl
    have hholds : (s.bucketOf hash c.key).mutex.Holds t c.mode := (hs.owner _ _ _).2 hsome
    show ((s.setMutex hash c.key _).buckets i).mutex.Holds v mode ↔
      (Function.update s.pc t .idle v).held n hash = some (i, mode)
    have hnone : (TablePc.idle : TablePc K V).held n hash = none := rfl
    rw [setMutex_mutex]
    split_ifs with hi
    · rw [SharedMutex.release_holds hholds, bucketOf, ← hi, hs.owner]
      by_cases hv : v = t
      · rw [hv, Function.update_self, hnone, hsome, ← hi]
        simp [eq_comm]
      · simp [hv]
    · rw [hs.owner]
      by_cases hv : v = t
      · rw [hv, Function.update_self, hnone, hsome]
        simp [Ne.symm hi]
      · rw [Function.update_of_ne hv]
  · cases h

/-- The entry is used at the position that was found, and it is that of the key. -/
theorem Inv.access_eq (hs : s.Inv hash) (h : s.access hash t = some u) :
    ∃ c found, s.pc t = .accessing c found ∧ u = s.accessed hash t c := by
  unfold LookupTable.access at h
  split at h
  · rename_i c found hpc
    rw [hs.found t c found hpc, TableCall.access_find] at h
    exact ⟨c, found, hpc, (Option.some.inj h).symm⟩
  · cases h

theorem Inv.accessed {found : Option ℕ} (hs : s.Inv hash) (hpc : s.pc t = .accessing c found) :
    (s.accessed hash t c).Inv hash where
  toRepresents := hs.toRepresents.accessed t c
  owner i v mode := by
    have hmutex : ((s.accessed hash t c).buckets i).mutex = (s.buckets i).mutex :=
      setData_mutex c.key _ i
    have hheld : ((s.accessed hash t c).pc v).held n hash = (s.pc v).held n hash := by
      show (Function.update s.pc t (.unlocking c) v).held n hash = _
      by_cases hv : v = t
      · rw [hv, Function.update_self, hpc]
        rfl
      · rw [Function.update_of_ne hv]
    rw [hmutex, hheld]
    exact hs.owner i v mode
  found v c' found' h := by
    change Function.update s.pc t (.unlocking c) v = .accessing c' found' at h
    by_cases hv : v = t
    · rw [hv, Function.update_self] at h
      cases h
    · rw [Function.update_of_ne hv] at h
      rw [bucketOf, accessed_data]
      cases c with
      | valueFor =>
        rw [TableCall.stored, ite_self]
        exact hs.found v c' found' h
      | addOrUpdateMapping key value =>
        -- the other call has the lock of another bucket
        have hapart := hs.apart (t := t) (v := v) (by rw [hpc]; rfl) rfl (by rw [h]; rfl) hv
        rw [if_neg hapart]
        exact hs.found v c' found' h

theorem Inv.call (hs : s.Inv hash) (h : s.call t c = some u) : u.Inv hash := by
  unfold LookupTable.call at h
  split at h
  · rename_i hpc
    obtain rfl := Option.some.inj h
    exact hs.setPc (by rw [hpc]; rfl) (by simp)
  · cases h

theorem Inv.find (hs : s.Inv hash) (h : s.find hash t = some u) : u.Inv hash := by
  unfold LookupTable.find at h
  split at h
  · rename_i c hpc
    obtain rfl := Option.some.inj h
    refine hs.setPc (by rw [hpc]; rfl) fun c' found h => ?_
    obtain ⟨rfl, rfl⟩ := TablePc.accessing.inj h
    rfl
  · cases h

theorem Inv.step {a : TableAction T K V} (hs : s.Inv hash) (hn : s.next hash a = some u) :
    u.Inv hash := by
  cases a with
  | call t c => exact hs.call hn
  | lock t => exact hs.lock hn
  | find t => exact hs.find hn
  | access t =>
    obtain ⟨c, found, hpc, rfl⟩ := hs.access_eq hn
    exact hs.accessed hpc
  | unlock t => exact hs.unlock hn

/-- Only an access changes entries. -/
theorem next_sameData {a : TableAction T K V} (hn : s.next hash a = some u)
    (ha : ∀ t, a ≠ .access t) : s.SameData u := by
  cases a with
  | call t c =>
    simp only [next, LookupTable.call] at hn
    split at hn
    · exact Option.some.inj hn ▸ sameData_setPc t _
    · cases hn
  | lock t =>
    simp only [next, LookupTable.lock] at hn
    split at hn
    · obtain ⟨mutex, -, rfl⟩ := Option.map_eq_some_iff.1 hn
      exact sameData_setMutex _ mutex t _
    · cases hn
  | find t =>
    simp only [next, LookupTable.find] at hn
    split at hn
    · exact Option.some.inj hn ▸ sameData_setPc t _
    · cases hn
  | access t => exact absurd rfl (ha t)
  | unlock t =>
    simp only [next, LookupTable.unlock] at hn
    split at hn
    · exact Option.some.inj hn ▸ sameData_setMutex _ _ t _
    · cases hn

/-! ### The two hash functions -/

variable {hasher : K → UInt64} {a : TableAction T K V}

/-- An entry stays where the argument selects it, when the bucket is that of the argument. -/
theorem Inv.placed_step (hs : s.Inv hash) (hplaced : s.Placed hasher)
    (hselects : s.Selects hash hasher a) (hn : s.next hash a = some u) : u.Placed hasher := by
  by_cases ha : ∃ t, a = .access t
  · obtain ⟨t, rfl⟩ := ha
    obtain ⟨c, found, hpc, rfl⟩ := hs.access_eq hn
    refine placed_accessed hplaced fun key hkey => ?_
    rw [Selects, hpc] at hselects
    cases c with
    | valueFor => simp [TableCall.written] at hkey
    | addOrUpdateMapping k v =>
      obtain rfl : key = k := TableCall.mem_keys_written hkey
      exact hselects
  · intro i e he
    rw [(next_sameData hn fun t ht => ha ⟨t, ht⟩).data] at he
    exact hplaced i e he

/-- **One step.** It keeps the map, and it puts the entry into the bucket of the argument exactly if
the member selects the same. -/
theorem Inv.refines_iff (hs : s.Inv hash) (hplaced : s.Placed hasher)
    (hn : s.next hash a = some u) :
    s.Refines hash hasher a u ↔ s.Selects hash hasher a := by
  constructor
  · intro h
    cases a with
    | access t =>
      obtain ⟨c, found, hpc, rfl⟩ := hs.access_eq hn
      rw [Selects, hpc]
      cases c with
      | valueFor => trivial
      | addOrUpdateMapping key value =>
        refine (h.placed (getBucket n hash key) (key, value) ?_).symm
        rw [accessed_data, TableCall.key, if_pos rfl]
        exact AssocList.mem_store key value _
    | call => trivial
    | lock => trivial
    | find => trivial
    | unlock => trivial
  · intro h
    have hu : u.Represents hash := (hs.step hn).toRepresents
    refine ⟨hu.ok, hu.once, hs.placed_step hplaced h hn, hu.valueFor, ?_, ?_⟩
    · rintro t key default found rfl hpc
      obtain ⟨c, found', hpc', rfl⟩ := hs.access_eq hn
      obtain ⟨rfl, -⟩ := TablePc.accessing.inj (hpc.symm.trans hpc')
      rw [← hs.latest key]
      exact Function.update_self t _ s.result
    · rintro t key value found rfl hpc other default hne
      obtain ⟨c, found', hpc', rfl⟩ := hs.access_eq hn
      obtain ⟨rfl, -⟩ := TablePc.accessing.inj (hpc.symm.trans hpc')
      have hadds : (s.accessed hash t (.addOrUpdateMapping key value)).adds =
          (key, value) :: s.adds := rfl
      rw [hu.valueFor, hs.valueFor, hadds, AssocList.lookup_cons_eq, if_neg hne]

end LookupTable

/-- **The table is a finite map.** Whatever the hash functions, and however the calls of the threads
overlap, a run uses the table as the map of the latest values, with one entry for a key in the
bucket that the argument of the constructor selects, exactly if `hasher_` selects the same bucket
for every key that is written. -/
theorem lookup_table_refines_iff {n : ℕ} {T K V : Type*} [NeZero n] [DecidableEq T] [DecidableEq K]
    {hash hasher : K → UInt64} {s u : LookupTable n T K V}
    {run : List (Transition (LookupTable n T K V) (TableAction T K V))}
    (h0 : (lookupTables n T V hash).init s) (h : (lookupTables n T V hash).Steps s run u) :
    (∀ e ∈ run, e.source.Refines hash hasher e.action e.target) ↔
      ∀ e ∈ run, e.source.Selects hash hasher e.action := by
  refine h.forall_iff (I := fun s => s.Inv hash ∧ s.Placed hasher) ?_
    (fun s a u hs hn => hs.1.refines_iff hs.2 hn)
    fun s a u hs hselects hn => ⟨hs.1.step hn, hs.1.placed_step hs.2 hselects hn⟩
  obtain rfl : s = .new := h0
  exact ⟨LookupTable.new_inv, fun _ _ he => absurd he List.not_mem_nil⟩

/-- A hash object that adds its state to the key. -/
def seeded (seed : UInt64) (key : ℕ) : UInt64 := seed + key.toUInt64

/-- Two keys of one bucket are written by two threads, the second call waits for the first, and then
the first key is read. -/
def collidingCalls : List (TableAction Bool ℕ ℕ) :=
  [.call false (.addOrUpdateMapping 0 10), .call true (.addOrUpdateMapping 2 20), .lock false,
    .find false, .access false, .unlock false, .lock true, .call false (.valueFor 0 99),
    .find true, .access true, .unlock true, .lock false, .find false, .access false]

theorem lookup_table_refines_colliding :
    ∃ (run : List (Transition (LookupTable 2 Bool ℕ ℕ) (TableAction Bool ℕ ℕ)))
      (u : LookupTable 2 Bool ℕ ℕ),
      (lookupTables 2 Bool ℕ (seeded 0)).Steps .new run u ∧
        run.map Transition.action = collidingCalls ∧ u.result false = some 10 ∧
        ∀ e ∈ run, e.source.Refines (seeded 0) (seeded 0) e.action e.target := by
  obtain ⟨u, hu, hresult⟩ := Option.map_eq_some_iff.1 (by decide +kernel :
    ((lookupTables 2 Bool ℕ (seeded 0)).run .new collidingCalls).map (fun s => s.result false) =
      some (some 10))
  obtain ⟨run, hrun, hmap⟩ := LTS.exists_steps_of_run hu
  exact ⟨run, u, hrun, hmap, hresult,
    (lookup_table_refines_iff rfl hrun).2 fun e _ => LookupTable.selects_self e.source e.action⟩

/-- A table whose storage held zeros, constructed with a hash object of state 1: the key 0 is put
into the bucket 0, and the argument selects the bucket 1. -/
theorem lookup_table_ignores_hasher :
    ∃ (run : List (Transition (LookupTable 2 Bool ℕ ℕ) (TableAction Bool ℕ ℕ)))
      (u : LookupTable 2 Bool ℕ ℕ),
      (lookupTables 2 Bool ℕ (seeded 0)).Steps .new run u ∧ run.map Transition.action =
        [.call false (.addOrUpdateMapping 0 10), .lock false, .find false, .access false] ∧
        (u.buckets 0).data = [(0, 10)] ∧ LookupTable.getBucket 2 (seeded 1) 0 = 1 ∧
        ¬∀ e ∈ run, e.source.Refines (seeded 0) (seeded 1) e.action e.target := by
  obtain ⟨u, hu, hdata⟩ := Option.map_eq_some_iff.1 (by decide +kernel :
    ((lookupTables 2 Bool ℕ (seeded 0)).run .new [.call false (.addOrUpdateMapping 0 10),
      .lock false, .find false, .access false]).map (fun s => (s.buckets 0).data) =
      some [(0, 10)])
  obtain ⟨run, hrun, hmap⟩ := LTS.exists_steps_of_run hu
  refine ⟨run, u, hrun, hmap, hdata, by decide, fun hrefines => ?_⟩
  have hplaced : u.Placed (seeded 1) :=
    hrun.invariant (fun _ _ he => absurd he List.not_mem_nil) hrefines
      fun _ _ _ _ hstep _ => hstep.placed
  have hbucket := hplaced 0 (0, 10) (hdata ▸ List.mem_cons_self)
  exact absurd hbucket (by decide)

end Jiangbo
