import BucketBench.Service.Dialogue

set_option autoImplicit false

/-!
# Buckets

Creating, listing and deleting buckets. A bucket that is not empty can only be deleted by force: its objects are
listed to the last page and deleted batch by batch, and the bucket is deleted when all that was answered well.
-/

namespace BucketBench.Account

def createBucket (a : Account) (bucket : String) : Dialogue String := do
  a.send "create_bucket" (.createBucket bucket)
  return bucket

/-- The names of all buckets; a bucket without a name is skipped. -/
def bucketNames (a : Account) : Dialogue (List String) := do
  return (← a.send "bucket_list" .listBuckets).filterMap id

/-- The region of a bucket that is there, if the service names it. -/
def headBucket (a : Account) (bucket : String) : Dialogue (Option String) := a.send "head_bucket" (.headBucket bucket)

/-! ## Listing -/

/-- The keys from a page on; there are never more pages than replies, since a page that is not answered is the last. -/
def keysFrom (a : Account) (bucket : String) : (pages : Nat) → (token : Option String) → Dialogue (List String)
  | 0, _ => return []
  | pages + 1, token => do
    let page ← a.send "object_list" (.listObjects bucket token)
    match page.following? with
    | some next => return page.keys ++ (← keysFrom a bucket pages (some next))
    | none => return page.keys

/-- The keys of all objects in a bucket, page after page in the order of the service. -/
def objectKeys (a : Account) (bucket : String) : Dialogue (List String) := do
  keysFrom a bucket ((← get).replies.length + 1) none

/-! ## Deleting -/

def deletionBatch : Nat := 1000

/-- A list cut into pieces of a size, the last of which may be shorter. -/
def batches {α : Type} (size : Nat) : (pieces : Nat) → List α → List (List α)
  | 0, _ => []
  | _, [] => []
  | pieces + 1, x :: rest => (x :: rest).take size :: batches size pieces ((x :: rest).drop size)

theorem flatten_batches {α : Type} {size : Nat} (h : 0 < size) (pieces : Nat) (xs : List α)
    (enough : xs.length ≤ pieces) : (batches size pieces xs).flatten = xs := by
  induction pieces generalizing xs with
  | zero => simpa [batches] using List.eq_nil_of_length_eq_zero (by omega)
  | succ pieces ih =>
    cases xs with
    | nil => rfl
    | cons x rest =>
      have shorter : ((x :: rest).drop size).length ≤ pieces := by
        simp only [List.length_drop, List.length_cons] at *
        omega
      rw [batches, List.flatten_cons, ih _ shorter, List.take_append_drop]

theorem length_of_mem_batches {α : Type} {size : Nat} (h : 0 < size) {pieces : Nat} {xs piece : List α}
    (mem : piece ∈ batches size pieces xs) : 0 < piece.length ∧ piece.length ≤ size := by
  induction pieces generalizing xs with
  | zero => simp [batches] at mem
  | succ pieces ih =>
    cases xs with
    | nil => simp [batches] at mem
    | cons x rest =>
      rw [batches, List.mem_cons] at mem
      rcases mem with rfl | mem
      · simp only [List.length_take, List.length_cons]
        omega
      · exact ih mem

def deleteBatches (a : Account) (bucket : String) : List (List String) → Dialogue Unit
  | [] => return
  | batch :: rest => do
    discard (a.send "delete_bucket" (.deleteObjects bucket batch))
    deleteBatches a bucket rest

def emptyBucket (a : Account) (bucket : String) : Dialogue Unit := do
  let keys ← a.objectKeys bucket
  deleteBatches a bucket (batches deletionBatch keys.length keys)

/-- Deletes a bucket, by force with all that is in it. -/
def deleteBucket (a : Account) (bucket : String) (force : Bool) : Dialogue Unit := do
  if force then a.emptyBucket bucket
  a.send "delete_bucket" (.deleteBucket bucket)

/-- Deletes buckets by force, one after the other. -/
def deleteBuckets (a : Account) : List String → Dialogue Unit
  | [] => return
  | bucket :: rest => do
    a.deleteBucket bucket true
    deleteBuckets a rest

/-- Deletes by force every bucket whose name begins with a text: the names that were deleted. -/
def deleteBucketsWith (a : Account) (lead : String) : Dialogue (List String) := do
  let buckets := (← a.bucketNames).filter fun b => (Text.afterLead? lead.toList b.toList).isSome
  a.deleteBuckets buckets
  return buckets

end BucketBench.Account
