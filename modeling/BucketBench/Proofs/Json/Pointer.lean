import BucketBench.Json.Pointer
import BucketBench.Proofs.Store.Path
import Mathlib.Data.List.Infix

set_option autoImplicit false

namespace BucketBench

namespace Text

theorem pieces_of_not_mem {separator : Char} {s : List Char} (h : separator ∉ s) : pieces separator s = [s] := by
  induction s with
  | nil => rfl
  | cons c rest ih =>
    rw [List.mem_cons, not_or] at h
    rw [pieces, if_neg (Ne.symm h.1), ih h.2]

theorem isPrefix_of_pieces {separator : Char} {s first : List Char} {more : List (List Char)}
    (h : pieces separator s = first :: more) : first <+: s ∧ separator ∉ first := by
  induction s generalizing first more with
  | nil =>
    cases h
    exact ⟨List.prefix_rfl, List.not_mem_nil⟩
  | cons c rest ih =>
    obtain ⟨p, ps, hp⟩ := List.exists_cons_of_ne_nil (pieces_ne_nil separator rest)
    rw [pieces] at h
    split_ifs at h with same
    · cases h
      exact ⟨List.nil_prefix, List.not_mem_nil⟩
    · rw [hp] at h
      cases h
      obtain ⟨lead, free⟩ := ih hp
      exact ⟨List.cons_prefix_cons.2 ⟨rfl, lead⟩, by simp [Ne.symm same, free]⟩

end Text

namespace Json.Pointer

structure IsPlain (name : String) : Prop where
  noSlash : '/' ∉ name.toList
  noTilde : ¬ ['~', '0'] <:+: name.toList
  noEscape : ¬ ['~', '1'] <:+: name.toList

theorem length_unescape_le (s : List Char) : (unescape s).length ≤ s.length := by
  fun_induction unescape s with
  | case1 rest ih => simp only [List.length_cons]; omega
  | case2 rest ih => simp only [List.length_cons]; omega
  | case3 c rest _ _ ih => simp only [List.length_cons]; omega
  | case4 => exact Nat.le_refl _

theorem unescape_eq_self_iff (s : List Char) : unescape s = s ↔ ¬ ['~', '0'] <:+: s ∧ ¬ ['~', '1'] <:+: s := by
  fun_induction unescape s with
  | case1 rest ih =>
    have escape : ['~', '1'] <:+: '~' :: '1' :: rest := ⟨[], rest, rfl⟩
    simp [escape]
  | case2 rest ih =>
    have escape : ['~', '0'] <:+: '~' :: '0' :: rest := ⟨[], rest, rfl⟩
    have shorter := length_unescape_le rest
    refine iff_of_false (fun same => ?_) fun free => free.1 escape
    have lengths := congrArg List.length same
    simp only [List.length_cons] at lengths
    omega
  | case3 c rest noSlash noTilde ih =>
    have tilde : ¬ ['~', '0'] <+: c :: rest := by
      rintro ⟨t, same⟩
      cases same
      exact noTilde t rfl rfl
    have slash : ¬ ['~', '1'] <+: c :: rest := by
      rintro ⟨t, same⟩
      cases same
      exact noSlash t rfl rfl
    simp only [List.infix_cons_iff, tilde, slash, false_or, List.cons.injEq, true_and, ih]
  | case4 => simp

def keysIn (s : String) : List String := (Text.pieces '/' s.toList).map fun piece => String.ofList (unescape piece)

theorem exists_keysIn (s : String) : ∃ first more, keysIn s = first :: more := by
  obtain ⟨p, ps, hp⟩ := List.exists_cons_of_ne_nil (Text.pieces_ne_nil '/' s.toList)
  exact ⟨_, _, by rw [keysIn, hp, List.map_cons]⟩

theorem keys?_slash (s : String) : keys? ("/" ++ s) = some (keysIn s) := by
  have chars : ("/" ++ s).toList = [] ++ '/' :: s.toList := by simp
  obtain ⟨p, ps, hp⟩ := List.exists_cons_of_ne_nil (Text.pieces_ne_nil '/' s.toList)
  rw [keys?, chars, Text.pieces_append, keysIn, hp]
  rfl

theorem keysIn_append (a b : String) : keysIn (a ++ "/" ++ b) = keysIn a ++ keysIn b := by
  have chars : (a ++ "/" ++ b).toList = a.toList ++ '/' :: b.toList := by simp
  rw [keysIn, chars, Text.pieces_append, List.map_append]
  rfl

theorem IsPlain.keysIn_eq {name : String} (h : IsPlain name) : keysIn name = [name] := by
  have same := (unescape_eq_self_iff name.toList).2 ⟨h.noTilde, h.noEscape⟩
  rw [keysIn, Text.pieces_of_not_mem h.noSlash, List.map_singleton, same, String.ofList_toList]

/-- Unescaping makes no text longer, so the first key is the name only when the name is its own first piece. -/
theorem isPlain_of_keysIn {name : String} {more : List String} (h : keysIn name = name :: more) : IsPlain name := by
  obtain ⟨p, ps, hp⟩ := List.exists_cons_of_ne_nil (Text.pieces_ne_nil '/' name.toList)
  obtain ⟨lead, free⟩ := Text.isPrefix_of_pieces hp
  rw [keysIn, hp, List.map_cons, List.cons.injEq] at h
  have same : unescape p = name.toList := by rw [← h.1, String.toList_ofList]
  have whole : p = name.toList := by
    have shorter := length_unescape_le p
    rw [same] at shorter
    exact lead.eq_of_length (Nat.le_antisymm lead.length_le shorter)
  rw [← whole] at same
  obtain ⟨noTilde, noEscape⟩ := (unescape_eq_self_iff p).1 same
  rw [whole] at free noTilde noEscape
  exact ⟨free, noTilde, noEscape⟩

theorem follow_object (key : String) (rest : List String) (d : Document) :
    follow (key :: rest) (.object d) = (d.get? key).bind (follow rest) := rfl

end Json.Pointer

end BucketBench
