import Vswitch.Clock

/-!
# An expiring cache

Text under keys of text, each entry until an instant of its own. An entry that has expired is dropped
when it is looked up, or together with all others by a purge; until then it still counts.

* `Cache.put`, `Cache.get`, `Cache.touch`, `Cache.purge`: each takes the time and gives the cache back;
* `Cache.call`, `Cache.run`, `Cache.trace`: any call, and any sequence of calls, with their answers.
-/

namespace Vswitch

/-- A value and the first instant at which it is gone. -/
structure CacheEntry where
  value : String
  expiresAt : Time
  deriving DecidableEq, Repr

/-- A cache: how long an entry lives by default, and the entries under different keys. -/
structure Cache where
  expiration : Time
  entries : List (String × CacheEntry)
  deriving DecidableEq, Repr

namespace Cache

/-- A cache without entries. -/
def empty (expiration : Time) : Cache := ⟨expiration, []⟩

/-- The entry under a key, expired or not. -/
def entry? (c : Cache) (key : String) : Option CacheEntry := c.entries.lookup key

/-- The cache without the entry under a key. -/
def erase (c : Cache) (key : String) : Cache :=
  { c with entries := c.entries.filter fun e => e.1 != key }

/-- The cache with an entry under a key, whatever was there. -/
def insert (c : Cache) (key : String) (entry : CacheEntry) : Cache :=
  { c with entries := (key, entry) :: (c.erase key).entries }

/-- Stores a value for a duration. -/
def putFor (c : Cache) (now : Time) (key value : String) (ttl : Time) : Cache :=
  c.insert key ⟨value, now + ttl⟩

/-- Stores a value for the default duration. -/
def put (c : Cache) (now : Time) (key value : String) : Cache := c.putFor now key value c.expiration

/-- The live value under a key, and the cache without the entry if it has expired. -/
def get (c : Cache) (now : Time) (key : String) : Option String × Cache :=
  match c.entry? key with
  | none => (none, c)
  | some entry =>
    if now < entry.expiresAt then (some entry.value, c) else (none, c.erase key)

/-- The live value under a key, which now lives for the default duration from here on. -/
def touch (c : Cache) (now : Time) (key : String) : Option String × Cache :=
  match c.get now key with
  | (none, c) => (none, c)
  | (some value, c) => (some value, c.put now key value)

/-- Drops every expired entry. -/
def purge (c : Cache) (now : Time) : Cache :=
  { c with entries := c.entries.filter fun e => decide (now < e.2.expiresAt) }

/-- The number of entries, expired ones that were not dropped included. -/
def size (c : Cache) : Nat := c.entries.length

/-- Drops every expired entry, and counts what was dropped. -/
def purgeCounted (c : Cache) (now : Time) : Nat × Cache := (c.size - (c.purge now).size, c.purge now)

end Cache

/-! ## Sequences of calls -/

/-- A call to a cache. -/
inductive CacheCall where
  | put (key value : String)
  | putFor (key value : String) (ttl : Time)
  | get (key : String)
  | touch (key : String)
  | purge
  deriving DecidableEq, Repr

/-- What a call answers. -/
inductive CacheAnswer where
  | stored
  | found (value : Option String)
  | purged (count : Nat)
  deriving DecidableEq, Repr

/-- A call, when it was made, and what it answered. -/
structure CacheRecord where
  now : Time
  call : CacheCall
  answer : CacheAnswer
  deriving DecidableEq, Repr

namespace Cache

/-- What a call answers, and the cache after it. -/
def call (c : Cache) (now : Time) : CacheCall → CacheAnswer × Cache
  | .put key value => (.stored, c.put now key value)
  | .putFor key value ttl => (.stored, c.putFor now key value ttl)
  | .get key => (.found (c.get now key).1, (c.get now key).2)
  | .touch key => (.found (c.touch now key).1, (c.touch now key).2)
  | .purge => (.purged (c.purgeCounted now).1, (c.purgeCounted now).2)

/-- The cache after a sequence of calls, each at its own instant. -/
def run (c : Cache) (calls : List (Time × CacheCall)) : Cache :=
  calls.foldl (fun c m => (c.call m.1 m.2).2) c

/-- A sequence of calls with what they answer. -/
def trace (c : Cache) : List (Time × CacheCall) → List CacheRecord
  | [] => []
  | (now, call) :: later => ⟨now, call, (c.call now call).1⟩ :: (c.call now call).2.trace later

end Cache

end Vswitch
