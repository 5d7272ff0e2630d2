import BucketBench.World.Files
import BucketBench.Proofs.Outcome
import BucketBench.Proofs.Text.Utf8
import Mathlib.Data.List.Basic

set_option autoImplicit false

namespace BucketBench.Files

variable {fs after : Files} {place here target : Location} {names : List String} {path : String} {contents : Contents}

theorem replace_replace (place : Location) (e : FileEntry) (entries : List (Location × FileEntry)) :
    replace place e (replace place e entries) = replace place e entries := by
  induction entries with
  | nil => simp only [replace, if_true]
  | cons m rest ih =>
    obtain ⟨p, old⟩ := m
    by_cases same : p = place
    · simp only [replace, same, if_true]
    · simp only [replace, same, if_false, ih]

theorem put_put (fs : Files) (place : Location) (e : FileEntry) : (fs.put place e).put place e = fs.put place e := by
  simp only [put, replace_replace]

theorem walk_cons (fs : Files) (here : Location) (name : String) (rest : List String) :
    fs.walk here (name :: rest) = (fs.walk here [name] >>= fun next => fs.walk next rest) := by
  simp only [walk]
  cases fs.lookup? here with
  | none => rfl
  | some e =>
    cases e with
    | file _ => rfl
    | directory =>
      simp only
      split_ifs <;> rfl

theorem walk_append (fs : Files) (here : Location) (front back : List String) :
    fs.walk here (front ++ back) = (fs.walk here front >>= fun next => fs.walk next back) := by
  induction front generalizing here with
  | nil => rfl
  | cons name front ih =>
    rw [List.cons_append, walk_cons, walk_cons fs here name front]
    cases fs.walk here [name] with
    | error fault => rfl
    | ok next => exact ih next

/-- A way leads on only from a directory. -/
theorem lookup?_of_walk_cons {name : String} (h : fs.walk here (name :: names) = .ok target) :
    fs.lookup? here = some .directory := by
  rw [walk] at h
  split at h
  · cases h
  · cases h
  · assumption

theorem walk_put (other : fs.lookup? place ≠ some .directory) (e : FileEntry)
    (h : fs.walk here names = .ok target) : (fs.put place e).walk here names = .ok target := by
  induction names generalizing here with
  | nil => exact h
  | cons name names ih =>
    have directory := lookup?_of_walk_cons h
    have apart : place ≠ here := by
      rintro rfl
      exact other directory
    rw [walk, lookup?_put_of_ne _ _ apart, directory]
    rw [walk, directory] at h
    simp only at h ⊢
    split_ifs at h ⊢ with stays up long
    · exact ih h
    · exact ih h
    · exact ih h

theorem trimNames_concat {front : List String} {name : String} (named : name ≠ "") :
    trimNames (front ++ [name]) = (front ++ [name], false) := by
  have kept : (front ++ [name]).reverse.dropWhile (· == "") = (front ++ [name]).reverse := by
    rw [List.reverse_concat, List.dropWhile_cons_of_neg (by simpa using named)]
  rw [trimNames, kept, List.reverse_reverse, bne_self_eq_false]

theorem eq_of_trimNames {trimmed : List String} (h : trimNames names = (trimmed, false)) : trimmed = names := by
  obtain ⟨rfl, same⟩ := Prod.mk.inj h
  have lengths := bne_eq_false_iff_eq.1 same
  have reversed : names.reverse.length = names.length := List.length_reverse
  rw [List.length_reverse, ← reversed] at lengths
  rw [(List.dropWhile_suffix (· == "")).eq_of_length lengths, List.reverse_reverse]

theorem ne_of_trimNames {front : List String} {name : String}
    (h : trimNames (front ++ [name]) = (front ++ [name], false)) : name ≠ "" := by
  rintro rfl
  have trimmed := (Prod.mk.inj h).1
  have shorter := (List.dropWhile_suffix (· == "") (l := front.reverse)).length_le
  rw [List.reverse_concat, List.dropWhile_cons_of_pos (by rfl)] at trimmed
  have lengths := congrArg List.length trimmed
  simp only [List.length_reverse, List.length_append, List.length_singleton] at lengths shorter
  omega

/-- A file can be created where a path leads when its directory is there and its last name is a name. -/
theorem locateNew_eq_ok_iff :
    fs.locateNew path = .ok place ↔ checkPath path = .ok () ∧ ∃ front name folder,
      (fs.start path).2 = front ++ [name] ∧ name ≠ "" ∧ name ≠ "." ∧ name ≠ ".." ∧
      fs.walk (fs.start path).1 (front ++ ["."]) = .ok folder ∧ fs.walk folder [name] = .ok place := by
  constructor
  · intro h
    obtain ⟨_, checked, placed⟩ := bind_eq_ok_iff.1 h
    refine ⟨checked, ?_⟩
    generalize fs.start path = begun at placed ⊢
    obtain ⟨here, names⟩ := begun
    simp only at placed ⊢
    rcases trim : trimNames names with ⟨trimmed, slash⟩
    rw [trim] at placed
    obtain ⟨folder, walked, found⟩ := bind_eq_ok_iff.1 placed
    simp only at found walked
    split at found
    · cases found
    · rename_i name last
      split_ifs at found with no
      · cases found
      simp only [Bool.or_eq_true, beq_iff_eq, not_or, Bool.not_eq_true] at no
      obtain ⟨⟨rfl, single⟩, double⟩ := no
      obtain rfl := eq_of_trimNames trim
      obtain ⟨front, rfl⟩ := List.getLast?_eq_some_iff.1 last
      rw [List.dropLast_concat] at walked
      exact ⟨front, name, folder, rfl, ne_of_trimNames trim, single, double, walked, found⟩
  · rintro ⟨checked, front, name, folder, names, named, single, double, walked, last⟩
    refine bind_eq_ok_iff.2 ⟨(), checked, ?_⟩
    generalize fs.start path = begun at names walked ⊢
    obtain ⟨here, all⟩ := begun
    simp only at names walked ⊢
    rw [names, trimNames_concat named]
    simp only [List.dropLast_concat, List.getLast?_concat]
    refine bind_eq_ok_iff.2 ⟨folder, walked, ?_⟩
    rw [if_neg (by simp [single, double])]
    exact last

theorem locate_of_locateNew (h : fs.locateNew path = .ok place) : fs.locate path = .ok place := by
  obtain ⟨checked, front, name, folder, names, -, -, -, walked, last⟩ := locateNew_eq_ok_iff.1 h
  rw [walk_append] at walked
  obtain ⟨inner, inside, stays⟩ := bind_eq_ok_iff.1 walked
  have directory := lookup?_of_walk_cons stays
  obtain rfl : inner = folder := by simpa [walk, directory] using stays
  refine bind_eq_ok_iff.2 ⟨(), checked, ?_⟩
  show fs.walk (fs.start path).1 (fs.start path).2 = .ok place
  rw [names, walk_append]
  exact bind_eq_ok_iff.2 ⟨inner, inside, last⟩

theorem ne_nil_of_locateNew (h : fs.locateNew path = .ok place) : place ≠ [] := by
  obtain ⟨-, front, name, folder, -, named, single, double, -, last⟩ := locateNew_eq_ok_iff.1 h
  have directory := lookup?_of_walk_cons last
  rw [walk, directory] at last
  simp only [named, single, double, or_self, if_false] at last
  split_ifs at last
  cases last
  exact List.append_ne_nil_of_right_ne_nil _ (List.cons_ne_nil _ _)

theorem locateNew_put (other : fs.lookup? place ≠ some .directory) (e : FileEntry)
    (h : fs.locateNew path = .ok target) : (fs.put place e).locateNew path = .ok target := by
  obtain ⟨checked, front, name, folder, names, named, single, double, walked, last⟩ := locateNew_eq_ok_iff.1 h
  exact locateNew_eq_ok_iff.2
    ⟨checked, front, name, folder, names, named, single, double, walk_put other e walked, walk_put other e last⟩

theorem write_eq_ok_iff :
    fs.write path contents = .ok after ↔ ∃ place, fs.locateNew path = .ok place ∧
      fs.lookup? place ≠ some .directory ∧ after = fs.put place (.file contents) := by
  constructor
  · intro h
    obtain ⟨place, located, h⟩ := bind_eq_ok_iff.1 h
    split at h
    · cases h
    · rename_i other
      cases h
      exact ⟨place, located, other, rfl⟩
  · rintro ⟨place, located, other, rfl⟩
    refine bind_eq_ok_iff.2 ⟨place, located, ?_⟩
    split
    · contradiction
    · rfl

/-- A text that was written is read from the same path. -/
theorem readText_of_write {text : String} (h : fs.write path (.bytes (Bytes.ofText text)) = .ok after) :
    after.readText path = .ok text := by
  obtain ⟨place, located, other, rfl⟩ := write_eq_ok_iff.1 h
  have found := locate_of_locateNew (locateNew_put other (.file (.bytes (Bytes.ofText text))) located)
  have there := lookup?_put_self fs (.file (.bytes (Bytes.ofText text))) (ne_nil_of_locateNew located)
  have entry : (fs.put place (.file (.bytes (Bytes.ofText text)))).get path = .ok (.file (.bytes (Bytes.ofText text))) :=
    bind_eq_ok_iff.2 ⟨place, found, by rw [there]; rfl⟩
  have contents : (fs.put place (.file (.bytes (Bytes.ofText text)))).read path = .ok (.bytes (Bytes.ofText text)) :=
    bind_eq_ok_iff.2 ⟨_, entry, rfl⟩
  refine bind_eq_ok_iff.2 ⟨_, contents, ?_⟩
  rw [Contents.toBytes, Bytes.text?_ofText]
  rfl

/-- What was just written can be written again, and is there already. -/
theorem write_of_write (h : fs.write path contents = .ok after) : after.write path contents = .ok after := by
  obtain ⟨place, located, other, rfl⟩ := write_eq_ok_iff.1 h
  refine write_eq_ok_iff.2 ⟨place, locateNew_put other _ located, ?_, (put_put _ _ _).symm⟩
  rw [lookup?_put_self _ _ (ne_nil_of_locateNew located)]
  nofun

end BucketBench.Files
