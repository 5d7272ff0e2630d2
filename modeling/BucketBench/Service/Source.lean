import BucketBench.World.Files

set_option autoImplicit false

/-!
# Sources of object bodies

What is uploaded has a size that is known beforehand and is read in stretches. Reading a stretch may fail; of a
file that is there it gives just the bytes of the stretch.
-/

namespace BucketBench

inductive ReadFault where
  | unreadable
  | offsetBeyondEnd
  | lengthBeyondEnd
  | interrupted
deriving DecidableEq

def ReadFault.message : ReadFault → String
  | .unreadable => "IO error"
  | .offsetBeyondEnd => "offset must be less than or equal to file size but was greater than"
  | .lengthBeyondEnd => "\x60Length::Exact\x60 was larger than file size minus read offset"
  | .interrupted => "<dispatch failure>"

/-- A stretch of a source, and the number of the part that it becomes. -/
structure Stretch where
  number : Nat
  offset : Nat
  length : Nat
deriving DecidableEq

structure Source where
  size : Nat
  read : (offset length : Nat) → Except ReadFault Contents

namespace Contents

/-- The bytes from an offset on, as many as asked for. -/
def slice (c : Contents) (offset length : Nat) : Contents :=
  match c with
  | .bytes b => .bytes ((b.drop offset).take length)
  | .zeros count => .zeros (min length (count - offset))

theorem toBytes_slice (c : Contents) (offset length : Nat) :
    (c.slice offset length).toBytes = (c.toBytes.drop offset).take length := by
  cases c <;> simp [slice, toBytes]

end Contents

namespace Source

def ofContents (c : Contents) : Source where
  size := c.size
  read offset length :=
    if c.size < offset then .error .offsetBeyondEnd
    else if c.size - offset < length then .error .lengthBeyondEnd
    else .ok (c.slice offset length)

/-- How much a directory seems to hold; nothing of it can be read. -/
def directorySize : Nat := 4096

def ofEntry : FileEntry → Source
  | .file c => ofContents c
  | .directory => ⟨directorySize, fun _ _ => .error .interrupted⟩

end Source

end BucketBench
