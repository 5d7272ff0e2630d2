import BucketBench.Client.ToolFormat
import BucketBench.Proofs.Client.Template
import BucketBench.Proofs.Text.Blank

set_option autoImplicit false

namespace BucketBench

theorem Text.append_separator_cancel {separator : Char} {a b c d : List Char} (ha : separator ∉ a) (hc : separator ∉ c)
    (same : a ++ separator :: b = c ++ separator :: d) : a = c ∧ b = d := by
  have first : splitFirst? separator (a ++ separator :: b) = some (a, b) := splitFirst?_eq_some_iff.2 ⟨rfl, ha⟩
  have second : splitFirst? separator (a ++ separator :: b) = some (c, d) := splitFirst?_eq_some_iff.2 ⟨same, hc⟩
  rw [first] at second
  cases second
  exact ⟨rfl, rfl⟩

namespace ToolFormat

open Template (mark IsFirst)

variable {f : ToolFormat} {before after : List Char}

structure Around (f : ToolFormat) (before after : List Char) : Prop where
  format : f.bucketFormat.toList = before ++ mark ++ after
  first : IsFirst before after

theorem exists_around (marked : mark <:+: f.bucketFormat.toList) : ∃ before after, f.Around before after := by
  cases found : Template.splitMark? f.bucketFormat.toList with
  | none => exact absurd marked (Template.unmarked_of_splitMark? found)
  | some split =>
    obtain ⟨format, first⟩ := Template.of_splitMark? found
    exact ⟨split.1, split.2, format, first⟩

/-- The name stands where the mark stood, and marks of its own stay as they are. -/
theorem toList_bucketUrl (around : f.Around before after) (bucket : String) :
    (f.bucketUrl bucket).toList = before ++ bucket.toList ++ after := by
  rw [bucketUrl, Template.fillFirst, around.format, Template.splitMark?_of_isFirst around.first, String.toList_ofList]

theorem toList_objectUrl (around : f.Around before after) (bucket key : String) :
    (f.objectUrl bucket key).toList = before ++ (bucket.toList ++ (after ++ '/' :: key.toList)) := by
  have slash : ("/" : String).toList = ['/'] := rfl
  simp only [objectUrl, String.toList_append, toList_bucketUrl around, slash, List.append_assoc, List.singleton_append]

/-- The first slash behind the name comes from the format, or it is the one in front of the key; its place does not depend
on the key. -/
theorem exists_first_slash (after : List Char) :
    ∃ host lead, '/' ∉ host ∧ ∀ key, after ++ '/' :: key = host ++ '/' :: (lead ++ key) := by
  obtain ⟨host, lead, split, absent⟩ := List.eq_append_cons_of_mem (show '/' ∈ after ++ ['/'] by simp)
  refine ⟨host, lead, absent, fun key => ?_⟩
  calc
    after ++ '/' :: key = (after ++ ['/']) ++ key := by simp
    _ = host ++ '/' :: (lead ++ key) := by rw [split]; simp

theorem bucketUrl_injective (around : f.Around before after) : Function.Injective f.bucketUrl := by
  intro bucket bucket' same
  have chars := congrArg String.toList same
  rw [toList_bucketUrl around, toList_bucketUrl around, List.append_left_inj, List.append_right_inj] at chars
  exact String.toList_inj.1 chars

theorem eq_of_objectUrl_eq (around : f.Around before after) {bucket bucket' key key' : String}
    (plain : '/' ∉ bucket.toList) (plain' : '/' ∉ bucket'.toList)
    (same : f.objectUrl bucket key = f.objectUrl bucket' key') : bucket = bucket' ∧ key = key' := by
  obtain ⟨host, lead, absent, behind⟩ := exists_first_slash after
  have chars := congrArg String.toList same
  rw [toList_objectUrl around, toList_objectUrl around, List.append_right_inj, behind, behind, ← List.append_assoc,
    ← List.append_assoc] at chars
  have outside {name : List Char} (h : '/' ∉ name) : '/' ∉ name ++ host := by simp [h, absent]
  obtain ⟨names, keys⟩ := Text.append_separator_cancel (outside plain) (outside plain') chars
  rw [List.append_left_inj] at names
  rw [List.append_right_inj] at keys
  exact ⟨String.toList_inj.1 names, String.toList_inj.1 keys⟩

/-- A format with a mark is filled with the name of the bucket at its first mark and nowhere else. Different buckets have
different URLs, and so have different objects of buckets without a slash in their names. -/
theorem urls_tell_apart {f : ToolFormat} (marked : mark <:+: f.bucketFormat.toList) :
    (∃ before after, f.Around before after ∧ ∀ bucket, (f.bucketUrl bucket).toList = before ++ bucket.toList ++ after) ∧
      (∀ bucket bucket', f.bucketUrl bucket = f.bucketUrl bucket' → bucket = bucket') ∧
      ∀ bucket bucket' key key', '/' ∉ bucket.toList → '/' ∉ bucket'.toList →
        f.objectUrl bucket key = f.objectUrl bucket' key' → bucket = bucket' ∧ key = key' := by
  obtain ⟨before, after, around⟩ := exists_around marked
  refine ⟨⟨before, after, around, toList_bucketUrl around⟩, fun _ _ same => bucketUrl_injective around same, ?_⟩
  intro bucket bucket' key key' plain plain' same
  exact eq_of_objectUrl_eq around plain plain' same

/-- A format with two marks and a slash between them, and a bucket that is named like a mark. -/
theorem urls_tell_apart_two_marks :
    let f : ToolFormat := { bucketFormat := .ofList ("//".toList ++ mark ++ ".s3/".toList ++ mark) }
    mark <:+: f.bucketFormat.toList ∧ '/' ∉ (String.ofList mark).toList ∧
      ∀ bucket key, '/' ∉ bucket.toList → f.objectUrl bucket key = f.objectUrl (.ofList mark) "a/b" →
        bucket = .ofList mark ∧ key = "a/b" := by
  intro f
  have marked : mark <:+: f.bucketFormat.toList := ⟨"//".toList, ".s3/".toList ++ mark, by simp [f]⟩
  have plain : '/' ∉ (String.ofList mark).toList := by decide
  exact ⟨marked, plain, fun bucket key plain' same => (urls_tell_apart marked).2.2 _ _ _ _ plain' plain same⟩

end ToolFormat

end BucketBench
