import BucketBench.Client.Template
import Mathlib.Data.List.Infix

set_option autoImplicit false

namespace BucketBench.Template

variable {text before after : List Char}

def mark : List Char := ['{', '}']

/-- The mark between two texts begins before every other mark of the whole. -/
def IsFirst (before after : List Char) : Prop :=
  ∀ front back, before ++ mark ++ after = front ++ mark ++ back → before.length ≤ front.length

theorem IsFirst.unique {before' after' : List Char} (first : IsFirst before after) (first' : IsFirst before' after')
    (same : before ++ mark ++ after = before' ++ mark ++ after') : before = before' ∧ after = after' := by
  have lengths : before.length = before'.length :=
    Nat.le_antisymm (first before' after' same) (first' before after same.symm)
  obtain ⟨marked, later⟩ := List.append_inj same (by simp [lengths])
  exact ⟨List.append_inj_left' marked rfl, later⟩

theorem of_splitMark? (h : splitMark? text = some (before, after)) :
    text = before ++ mark ++ after ∧ IsFirst before after := by
  fun_induction splitMark? text generalizing before with
  | case1 rest =>
    cases h
    exact ⟨rfl, fun front back _ => Nat.zero_le _⟩
  | case2 c rest unmarked ih =>
    obtain ⟨⟨front, back⟩, found, same⟩ := Option.map_eq_some_iff.1 h
    cases same
    obtain ⟨rfl, first⟩ := ih found
    refine ⟨rfl, fun front' back' same => ?_⟩
    cases front' with
    | nil =>
      obtain ⟨rfl, later⟩ := List.cons.inj same
      exact absurd later (unmarked back' rfl)
    | cons c' front' =>
      obtain ⟨-, later⟩ := List.cons.inj same
      exact Nat.succ_le_succ (first front' back' later)
  | case3 => cases h

theorem unmarked_of_splitMark? (h : splitMark? text = none) : ¬ mark <:+: text := by
  fun_induction splitMark? text with
  | case1 rest => cases h
  | case2 c rest unmarked ih =>
    rintro ⟨front, back, same⟩
    cases front with
    | nil =>
      obtain ⟨rfl, later⟩ := List.cons.inj same
      exact unmarked back rfl later.symm
    | cons c' front =>
      obtain ⟨-, later⟩ := List.cons.inj same
      exact ih (Option.map_eq_none_iff.1 h) ⟨front, back, later⟩
  | case3 =>
    intro inside
    exact absurd (List.infix_nil.1 inside) (by decide)

theorem splitMark?_of_isFirst (first : IsFirst before after) :
    splitMark? (before ++ mark ++ after) = some (before, after) := by
  cases found : splitMark? (before ++ mark ++ after) with
  | none => exact absurd ⟨before, after, rfl⟩ (unmarked_of_splitMark? found)
  | some split =>
    obtain ⟨same, first'⟩ := of_splitMark? found
    obtain ⟨rfl, rfl⟩ := first.unique first' same
    rfl

theorem splitMark?_of_unmarked (unmarked : ¬ mark <:+: text) : splitMark? text = none := by
  cases found : splitMark? text with
  | none => rfl
  | some split => exact absurd ⟨split.1, split.2, (of_splitMark? found).1.symm⟩ unmarked

/-- Counting marks is splitting at the first one again and again. -/
theorem countMarks_eq (text : List Char) :
    countMarks text =
      match splitMark? text with
      | some (_, after) => countMarks after + 1
      | none => 0 := by
  fun_induction splitMark? text with
  | case1 rest => rw [countMarks]
  | case2 c rest unmarked ih =>
    rw [countMarks.eq_2 _ _ unmarked, ih]
    cases splitMark? rest <;> rfl
  | case3 => rfl

/-- The pieces of a text, the one in front of all marks and those behind each of them: the text is cut at its first mark,
what follows it again at its first one, and so on. -/
inductive CutAtMarks : List Char → List Char → List (List Char) → Prop where
  | uncut {text : List Char} (unmarked : ¬ mark <:+: text) : CutAtMarks text text []
  | cut {before after next : List Char} {rest : List (List Char)} (first : IsFirst before after)
      (further : CutAtMarks after next rest) : CutAtMarks (before ++ mark ++ after) before (next :: rest)

theorem exists_cutAtMarks (text : List Char) : ∃ first rest, CutAtMarks text first rest := by
  induction length : text.length using Nat.strong_induction_on generalizing text with
  | _ n ih =>
    cases found : splitMark? text with
    | none => exact ⟨text, [], .uncut (unmarked_of_splitMark? found)⟩
    | some split =>
      obtain ⟨before, after⟩ := split
      obtain ⟨rfl, first⟩ := of_splitMark? found
      have shorter : after.length < n := by
        rw [← length, List.length_append, List.length_append]
        simp [mark]
      obtain ⟨next, rest, further⟩ := ih after.length shorter after rfl
      exact ⟨before, next :: rest, .cut first further⟩

namespace CutAtMarks

variable {first : List Char} {rest : List (List Char)}

theorem unique {first' : List Char} {rest' : List (List Char)} (h : CutAtMarks text first rest)
    (h' : CutAtMarks text first' rest') : first' = first ∧ rest' = rest := by
  induction h generalizing first' rest' with
  | uncut unmarked =>
    cases h' with
    | uncut => exact ⟨rfl, rfl⟩
    | cut => exact absurd ⟨_, _, rfl⟩ unmarked
  | @cut before after next rest isFirst _ ih =>
    generalize same : before ++ mark ++ after = whole at h'
    cases h' with
    | uncut unmarked => exact absurd ⟨before, after, same⟩ unmarked
    | cut isFirst' further =>
      obtain ⟨rfl, rfl⟩ := isFirst.unique isFirst' same
      obtain ⟨rfl, rfl⟩ := ih further
      exact ⟨rfl, rfl⟩

theorem countMarks_eq_length (h : CutAtMarks text first rest) : countMarks text = rest.length := by
  induction h with
  | uncut unmarked => rw [countMarks_eq, splitMark?_of_unmarked unmarked, List.length_nil]
  | cut isFirst _ ih =>
    rw [countMarks_eq, splitMark?_of_isFirst isFirst, List.length_cons, ← ih]

/-- Each argument comes in front of its piece, and whatever marks it brings are not looked at. -/
theorem fillMarks_eq (h : CutAtMarks text first rest) {args : List (List Char)} (each : args.length = rest.length) :
    fillMarks args text = first ++ (List.zipWith (· ++ ·) args rest).flatten := by
  induction h generalizing args with
  | uncut unmarked =>
    obtain rfl := List.eq_nil_of_length_eq_zero each
    rw [fillMarks, List.zipWith_nil_left, List.flatten_nil, List.append_nil]
  | @cut before after next rest isFirst _ ih =>
    cases args with
    | nil => cases each
    | cons arg args =>
      have later := ih (Nat.succ.inj each)
      rw [fillMarks, splitMark?_of_isFirst isFirst]
      simp only
      rw [later, List.zipWith_cons_cons, List.flatten_cons, List.append_assoc, List.append_assoc]

end CutAtMarks

/-- A template has one cut at its marks. With an argument for each mark it is filled by putting the arguments between the
pieces, as they are; with more or fewer arguments it is refused. -/
theorem fill_between_pieces (template : String) (args : List String) :
    ∃ first rest, CutAtMarks template.toList first rest ∧
      (∀ first' rest', CutAtMarks template.toList first' rest' → first' = first ∧ rest' = rest) ∧
      fill template args =
        if args.length = rest.length then
          .ok (String.ofList (first ++ (List.zipWith (fun arg piece => arg.toList ++ piece) args rest).flatten))
        else .error (.invalidArgument ("command template '" ++ template ++ "' has " ++ toString rest.length ++
          " placeholders but " ++ toString args.length ++ " arguments were given")) := by
  obtain ⟨first, rest, cut⟩ := exists_cutAtMarks template.toList
  refine ⟨first, rest, cut, fun _ _ => cut.unique, ?_⟩
  rw [fill, cut.countMarks_eq_length]
  by_cases each : args.length = rest.length
  · have mapped : (args.map String.toList).length = rest.length := by rw [List.length_map, each]
    rw [if_pos each.symm, if_pos each, cut.fillMarks_eq mapped, List.zipWith_map_left]
  · rw [if_neg (Ne.symm each), if_neg each]
    rfl

/-- The braces of an argument meet those of the template, and nothing is filled again. -/
example : fill (.ofList ('{' :: mark ++ mark)) [.ofList mark, .ofList ['}']] = .ok (.ofList ('{' :: mark ++ ['}'])) := by
  rfl

end BucketBench.Template
