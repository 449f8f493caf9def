import LinkTemplate.Binding.Assignment

/-!
# A cache of limited size

The cache keeps what was computed for a text, the most recently used entry first. When it is
full, the entry that was not used for the longest time makes room. A cache of size zero keeps
nothing and still counts. A size that does not fit into a machine word cannot be asked for.
-/

namespace LinkTemplate

/-- Entries for texts, most recently used first, with the counts of hits and misses. -/
structure Cache (β : Type) where
  /-- The most entries it keeps, if there is a limit. -/
  capacity : Option Nat
  entries : List (Text × β) := []
  hits : Nat := 0
  misses : Nat := 0
  deriving Inhabited

namespace Cache

variable {β : Type}

/-- An empty cache for a requested size, of which a negative one counts as zero. -/
def ofSize (size : Option Int) : Cache β := { capacity := size.map Int.toNat }

/-- The least size that is too large for a cache. -/
def sizeBound : Int := Nat.pow 2 63

/-- A cache can have this size. No limit is no size. -/
def isPossible (size : Option Int) : Bool := size.all (· < sizeBound)

/-- The number of entries. -/
def size (c : Cache β) : Nat := c.entries.length

/-- The entry for a text and the cache after its use, if there is one. -/
def hit? (c : Cache β) (key : Text) : Option (β × Cache β) :=
  match Assignment.get? key c.entries with
  | none => none
  | some b =>
    some (b, { c with
      entries := (key, b) :: Assignment.unset key c.entries
      hits := c.hits + 1 })

/-- The cache after a text was not found. -/
def countMiss (c : Cache β) : Cache β := { c with misses := c.misses + 1 }

/-- At most `capacity` entries, those used last. -/
def trimmed (capacity : Option Nat) (entries : List (Text × β)) : List (Text × β) :=
  match capacity with
  | none => entries
  | some n => entries.take n

theorem trimmed_sublist (capacity : Option Nat) (entries : List (Text × β)) :
    (trimmed capacity entries).Sublist entries := by
  cases capacity with
  | none => exact List.Sublist.refl entries
  | some n => exact List.take_sublist n entries

/-- Keep an entry for a text that has none. -/
def store (c : Cache β) (key : Text) (b : β) : Cache β :=
  { c with entries := trimmed c.capacity ((key, b) :: c.entries) }

end Cache

end LinkTemplate
