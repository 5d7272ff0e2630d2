import BucketBench.Service.Objects

set_option autoImplicit false

/-!
# Uploads in parts

A large source is uploaded in parts of one size, of which only the last may be shorter. The parts are sent in
order until one fails; then the upload is aborted, whatever comes of that, and the first failure is the error.
-/

namespace BucketBench

def uploadThreshold : Nat := 8 * Files.mebibyte

def partSize : Nat := 8 * Files.mebibyte

def partCount (size : Nat) : Nat := (size + partSize - 1) / partSize

/-- The part with an index, which counts from zero while its number counts from one. -/
def stretch (size i : Nat) : Stretch := ⟨i + 1, i * partSize, min partSize (size - i * partSize)⟩

/-- The parts of a source of some size, in order. -/
def stretches (size : Nat) : List Stretch := (List.range (partCount size)).map (stretch size)

theorem partSize_pos : 0 < partSize := by decide

/-- An index belongs to a part exactly when the part begins inside the source. -/
theorem lt_partCount_iff (size i : Nat) : i < partCount size ↔ i * partSize < size := by
  unfold partCount
  rw [Nat.lt_iff_add_one_le, Nat.le_div_iff_mul_le partSize_pos]
  have := partSize_pos
  rw [Nat.add_mul]
  omega

theorem stretch_length_pos {size i : Nat} (h : i < partCount size) : 0 < (stretch size i).length := by
  have := (lt_partCount_iff size i).1 h
  have := partSize_pos
  simp only [stretch]
  omega

/-- A part ends where the next one begins, and the last one where the source ends. -/
theorem stretch_end (size i : Nat) (h : i < partCount size) :
    (stretch size i).offset + (stretch size i).length = min ((stretch size (i + 1)).offset) size := by
  have := (lt_partCount_iff size i).1 h
  simp only [stretch, Nat.add_mul, Nat.one_mul]
  omega

namespace Account

/-- Sends parts in order until one of them cannot be read or is not accepted. -/
def sendParts (a : Account) (bucket key upload : String) (source : Source) : List Stretch → Dialogue (List UploadedPart)
  | [] => return []
  | s :: rest => do
    let body ← readFor "object_upload" source s.offset s.length
    let etag ← a.send "object_upload" (.uploadPart bucket key upload s.number body)
    return ⟨s.number, etag⟩ :: (← sendParts a bucket key upload source rest)

/-- Sends parts of an upload that is open, and completes it or aborts it. -/
def finishUpload (a : Account) (bucket key upload : String) (source : Source) (parts : List Stretch) :
    Dialogue Unit := do
  match ← Dialogue.attempt (a.sendParts bucket key upload source parts) with
  | .ok uploaded => a.send "object_upload" (.completeUpload bucket key upload uploaded)
  | .error e =>
    discard (Dialogue.attempt (a.send "object_upload" (.abortUpload bucket key upload)))
    throw e

def uploadInParts (a : Account) (bucket key : String) (source : Source) (parts : List Stretch) : Dialogue Unit := do
  match ← a.send "object_upload" (.createUpload bucket key none) with
  | some upload => a.finishUpload bucket key upload source parts
  | none => throw (.client "object_upload" "missing upload id")

def upload (a : Account) (bucket key : String) (source : Source) : Dialogue Unit :=
  if source.size ≤ uploadThreshold then discard (a.putSource "put_object" bucket key source none none)
  else a.uploadInParts bucket key source (stretches source.size)

def objectUpload (a : Account) (bucket key path : String) : Dialogue Unit := do
  match (← get).files.get path with
  | .ok entry => a.upload bucket key (Source.ofEntry entry)
  | .error fault => throw (.client "object_upload" fault.message)

/-- Opens an upload with tags as they stand in a query: its identifier, if the service gives one. -/
def createUploadTagged (a : Account) (bucket key tagging : String) : Dialogue (Option String) :=
  a.send "create_multipart_upload_with_tagging" (.createUpload bucket key (some tagging))

end Account

end BucketBench
