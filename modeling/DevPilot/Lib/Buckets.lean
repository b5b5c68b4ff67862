import DevPilot.Lib.Tables

/-!
Buckets of items that wait under a key: they expire, the items of one bucket
are capped, and so are the items of all.
-/

namespace Tables

open PyJson

structure Bucket (α : Type) where
  updatedAt : Int
  items : List α
deriving DecidableEq, Repr

structure BucketLimits where
  ttl : Int
  perKey : Nat
  total : Nat
deriving DecidableEq, Repr

variable {α : Type}

def itemCount (t : Table (Bucket α)) : Nat := (t.values.map fun b => b.items.length).sum

/-- Deletes the buckets in turn until few enough items are left. -/
def dropBuckets (cap : Nat) : List (String × Bucket α) → Nat → Table (Bucket α) → Table (Bucket α)
  | [], _, t => t
  | (k, b) :: rest, count, t =>
      if count ≤ cap then t else dropBuckets cap rest (count - b.items.length) (t.delete k)

def liveBuckets (ttl now : Int) (t : Table (Bucket α)) : Table (Bucket α) :=
  ⟨t.entries.filter fun p => now - p.2.updatedAt ≤ ttl⟩

/-- Expired buckets go, then the oldest while there are too many items. -/
def pruneBuckets (limits : BucketLimits) (now : Int) (t : Table (Bucket α)) : Table (Bucket α) :=
  let live := liveBuckets limits.ttl now t
  dropBuckets limits.total (live.entries.insertionSort fun a b => a.2.updatedAt ≤ b.2.updatedAt)
    (itemCount live) live

def waiting (t : Table (Bucket α)) (k : String) : List α := ((t.get k).map Bucket.items).getD []

def capItems (limits : BucketLimits) (items : List α) : List α :=
  items.drop (items.length - limits.perKey)

/-- Changes the items that wait under a key, with pruning before and after. -/
def updateBucket (limits : BucketLimits) (now : Int) (k : String) (f : List α → List α)
    (t : Table (Bucket α)) : Table (Bucket α) :=
  let t := pruneBuckets limits now t
  pruneBuckets limits now (t.set k ⟨now, capItems limits (f (waiting t k))⟩)

def InTime (limits : BucketLimits) (now : Int) (t : Table (Bucket α)) : Prop :=
  ∀ e ∈ t.entries, now - e.2.updatedAt ≤ limits.ttl

instance (limits : BucketLimits) (now : Int) (t : Table (Bucket α)) : Decidable (InTime limits now t) :=
  inferInstanceAs (Decidable (∀ e ∈ t.entries, _))

variable {limits : BucketLimits} {now : Int} {k : String} {t : Table (Bucket α)}

theorem InTime.delete (h : InTime limits now t) (k : String) : InTime limits now (t.delete k) :=
  fun e he => h e (List.mem_of_mem_filter he)

theorem InTime.set (h : InTime limits now t) {b : Bucket α} (hb : now - b.updatedAt ≤ limits.ttl) (k : String) :
    InTime limits now (t.set k b) := by
  intro e he
  rcases Members.eq_or_mem_of_mem_insert he with rfl | he
  · exact hb
  · exact h e he

end Tables
