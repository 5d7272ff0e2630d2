import BucketBench.Proofs.Client.Concurrent
import Mathlib.Data.List.Perm.Basic

set_option autoImplicit false

namespace BucketBench.Concurrent

open List (Forall₂)

structure RollCall (clients : List Client) (events : List Event) (inOrder : List Outcome) : Prop where
  length : inOrder.length = clients.length
  ends : ∀ i < clients.length, ∃ x, (i, x) ∈ ended events
  told : ∀ (i : Nat) (c : Client) (x : Ending), clients[i]? = some c → (i, x) ∈ ended events →
    inOrder[i]? = some (c.outcome x)

section Run

variable {clients : List Client} {events : List Event} {outcomes : List Outcome}

theorem getElem?_of_tells {credits : List (Nat × Ending)} {inOrder : List Outcome}
    (told : Forall₂ (Tells clients) credits inOrder) {k i : Nat} {x : Ending} {c : Client}
    (here : credits[k]? = some (i, x)) (client : clients[i]? = some c) : inOrder[k]? = some (c.outcome x) := by
  induction told generalizing k with
  | nil => simp at here
  | cons first _ ih =>
    cases k with
    | zero =>
      simp only [List.getElem?_cons_zero, Option.some.injEq] at here
      obtain ⟨d, client', rfl⟩ := first
      rw [here] at client' ⊢
      rw [client] at client'
      cases client'
      rfl
    | succ k => exact ih here

theorem eq_of_places {n k i : Nat} {x : Ending} {byNumber : List (Nat × Ending)}
    (places : Forall₂ (fun i (m : Nat × Ending) => m.1 = i) (List.range n) byNumber)
    (here : byNumber[k]? = some (i, x)) : k = i := by
  obtain ⟨bound, e⟩ := List.getElem?_eq_some_iff.1 here
  have within : k < (List.range n).length := places.length_eq ▸ bound
  have same := places.get within bound
  simp only [List.get_eq_getElem, List.getElem_range, e] at same
  exact same.symm

theorem exists_rollCall (h : run? clients events = some outcomes) :
    ∃ inOrder, RollCall clients events inOrder ∧ inOrder.Perm outcomes := by
  obtain ⟨r, run, settled, rfl⟩ := run?_eq_some_iff.1 h
  obtain ⟨t, credits, accounts⟩ := accounts_foldlM (tracks_start clients) (accounts_start clients) run
  -- the endings in the order of the clients, and the outcomes along with them
  have numbers : (List.range clients.length).Perm ((ended events).map Prod.fst) := (t.ended_perm settled).symm
  have numbered : Forall₂ (fun i (m : Nat × Ending) => m.1 = i) ((ended events).map Prod.fst) (ended events) :=
    List.forall₂_map_left_iff.2 (List.forall₂_same.2 fun m _ => rfl)
  obtain ⟨byNumber, places, sorted⟩ := List.perm_comp_forall₂ numbers numbered
  obtain ⟨inOrder, told, perm⟩ := List.perm_comp_forall₂ (sorted.trans (accounts.perm t settled).symm) accounts.told
  refine ⟨inOrder, ⟨?_, ?_, ?_⟩, perm⟩
  · rw [← told.length_eq, ← places.length_eq, List.length_range]
  · intro i bound
    have mem : i ∈ (ended events).map Prod.fst := numbers.mem_iff.1 (List.mem_range.2 bound)
    obtain ⟨m, hm, rfl⟩ := List.mem_map.1 mem
    exact ⟨m.2, hm⟩
  · intro i c x client mem
    obtain ⟨k, here⟩ := List.mem_iff_getElem?.1 (sorted.mem_iff.2 mem)
    have place : k = i := eq_of_places places here
    exact place ▸ getElem?_of_tells told here client

theorem RollCall.success_iff {inOrder : List Outcome} (roll : RollCall clients events inOrder) {i : Nat} {o : Outcome}
    (here : inOrder[i]? = some o) : o.success = true ↔ ∃ detail, .report i true detail ∈ events := by
  have bound : i < clients.length := roll.length ▸ (List.getElem?_eq_some_iff.1 here).1
  have client : clients[i]? = some clients[i] := List.getElem?_eq_getElem bound
  constructor
  · intro success
    obtain ⟨x, hx⟩ := roll.ends i bound
    obtain rfl : o = clients[i].outcome x := Option.some.inj (here.symm.trans (roll.told i _ x client hx))
    cases x with
    | finished succeeded detail =>
      obtain rfl : succeeded = true := success
      exact ⟨detail, report_mem_iff.1 hx⟩
    | aborted reason => cases success
  · rintro ⟨detail, mem⟩
    have told := roll.told i _ _ client (report_mem_iff.2 mem)
    obtain rfl := Option.some.inj (here.symm.trans told)
    rfl

end Run

end BucketBench.Concurrent

namespace BucketBench.Expectation

theorem allSucceed_holds_iff (outcomes : List Outcome) :
    allSucceed.holds outcomes = true ↔ outcomes ≠ [] ∧ ∀ o ∈ outcomes, o.success = true := by
  simp [holds]

theorem anySucceed_holds_iff (outcomes : List Outcome) :
    anySucceed.holds outcomes = true ↔ ∃ o ∈ outcomes, o.success = true := by
  simp only [holds, Bool.and_eq_true, Bool.not_eq_true', List.isEmpty_eq_false_iff, List.any_eq_true]
  refine and_iff_right_of_imp ?_
  rintro ⟨o, mem, -⟩
  exact List.ne_nil_of_mem mem

theorem check_eq_ok_iff (e : Expectation) (outcomes : List Outcome) :
    e.check outcomes = .ok () ↔ e.holds outcomes = true := by
  unfold check
  split
  · simp [*]
  · simp [*]

theorem of_check_eq_error {e : Expectation} {outcomes : List Outcome} {fault : Error}
    (h : e.check outcomes = .error fault) :
    fault = .assertion (e.name ++ " not met: [" ++ String.intercalate "; " (outcomes.map Outcome.text) ++ "]") := by
  unfold check at h
  split at h
  · cases h
  · cases h
    rfl

end BucketBench.Expectation

namespace BucketBench.Concurrent

section Verdict

variable {clients : List Client} {events events' : List Event} {outcomes outcomes' : List Outcome}

theorem allSucceed_iff (h : run? clients events = some outcomes) :
    Expectation.allSucceed.holds outcomes = true ↔
      clients ≠ [] ∧ ∀ i < clients.length, ∃ detail, .report i true detail ∈ events := by
  obtain ⟨inOrder, roll, perm⟩ := exists_rollCall h
  rw [Expectation.allSucceed_holds_iff]
  refine and_congr ?_ ?_
  · rw [← List.length_pos_iff, ← List.length_pos_iff, ← perm.length_eq, roll.length]
  · constructor
    · intro all i bound
      have here : inOrder[i]? = some _ := List.getElem?_eq_getElem (roll.length ▸ bound)
      exact (roll.success_iff here).1 (all _ (perm.mem_iff.1 (List.mem_of_getElem? here)))
    · intro all o mem
      obtain ⟨i, here⟩ := List.mem_iff_getElem?.1 (perm.mem_iff.2 mem)
      have bound : i < clients.length := roll.length ▸ (List.getElem?_eq_some_iff.1 here).1
      exact (roll.success_iff here).2 (all i bound)

theorem anySucceed_iff (h : run? clients events = some outcomes) :
    Expectation.anySucceed.holds outcomes = true ↔
      ∃ i < clients.length, ∃ detail, .report i true detail ∈ events := by
  obtain ⟨inOrder, roll, perm⟩ := exists_rollCall h
  rw [Expectation.anySucceed_holds_iff]
  constructor
  · rintro ⟨o, mem, success⟩
    obtain ⟨i, here⟩ := List.mem_iff_getElem?.1 (perm.mem_iff.2 mem)
    have bound : i < clients.length := roll.length ▸ (List.getElem?_eq_some_iff.1 here).1
    exact ⟨i, bound, (roll.success_iff here).1 success⟩
  · rintro ⟨i, bound, reported⟩
    have here : inOrder[i]? = some _ := List.getElem?_eq_getElem (roll.length ▸ bound)
    exact ⟨_, perm.mem_iff.1 (List.mem_of_getElem? here), (roll.success_iff here).2 reported⟩

theorem holds_congr (h : run? clients events = some outcomes) (h' : run? clients events' = some outcomes')
    (alike : ∀ i success detail, .report i success detail ∈ events ↔ .report i success detail ∈ events')
    (e : Expectation) : e.holds outcomes = e.holds outcomes' := by
  rw [Bool.eq_iff_iff]
  cases e with
  | allSucceed => simp only [allSucceed_iff h, allSucceed_iff h', alike]
  | anySucceed => simp only [anySucceed_iff h, anySucceed_iff h', alike]

/-- Two interleavings in which the same clients finish, with the same results, so that the others break off in both for
whatever reasons, get the same verdict: that all succeed when there are clients and each of them finished successfully,
that any does when one of them did. A failed check lists the outcome of every client once. -/
theorem verdict_of_endings (h : run? clients events = some outcomes) (h' : run? clients events' = some outcomes')
    (alike : ∀ i success detail, .report i success detail ∈ events ↔ .report i success detail ∈ events') :
    (∀ e : Expectation, e.holds outcomes = e.holds outcomes' ∧
      (e.check outcomes = .ok () ↔ e.holds outcomes = true) ∧
      (e.check outcomes' = .ok () ↔ e.holds outcomes = true)) ∧
    (Expectation.allSucceed.holds outcomes = true ↔
      clients ≠ [] ∧ ∀ i < clients.length, ∃ detail, .report i true detail ∈ events) ∧
    (Expectation.anySucceed.holds outcomes = true ↔
      ∃ i < clients.length, ∃ detail, .report i true detail ∈ events) ∧
    (clients = [] → ∀ e : Expectation, e.holds outcomes = false) ∧
    ∀ (e : Expectation) (fault : Error), e.check outcomes = .error fault →
      ∃ (inOrder : List Outcome) (lines : List String), RollCall clients events inOrder ∧
        lines.Perm (inOrder.map Outcome.text) ∧
        fault = .assertion (e.name ++ " not met: [" ++ String.intercalate "; " lines ++ "]") := by
  refine ⟨?_, allSucceed_iff h, anySucceed_iff h, ?_, ?_⟩
  · intro e
    have same := holds_congr h h' alike e
    exact ⟨same, e.check_eq_ok_iff outcomes, same ▸ e.check_eq_ok_iff outcomes'⟩
  · rintro rfl e
    rw [← Bool.not_eq_true]
    cases e with
    | allSucceed => simp [allSucceed_iff h]
    | anySucceed => simp [anySucceed_iff h]
  · intro e fault fails
    obtain ⟨inOrder, roll, perm⟩ := exists_rollCall h
    exact ⟨inOrder, outcomes.map Outcome.text, roll, (perm.map _).symm, Expectation.of_check_eq_error fails⟩

def sampleEventsReversed : List Event :=
  [.report 2 false "NoSuchKey", .resolve 2, .abort 1 "task 9 panicked", .report 0 true "etag", .resolve 0, .join, .join,
    .join]

theorem verdict_of_endings_sample :
    ∃ outcomes outcomes', run? sampleClients sampleEvents = some outcomes ∧
      run? sampleClients sampleEventsReversed = some outcomes' ∧ outcomes ≠ outcomes' ∧
      Expectation.anySucceed.holds outcomes = true ∧
      ∀ e : Expectation, e.holds outcomes = e.holds outcomes' := by
  have h : run? sampleClients sampleEvents = some _ := rfl
  have h' : run? sampleClients sampleEventsReversed = some _ := rfl
  have alike : ∀ i success detail, Event.report i success detail ∈ sampleEvents ↔
      .report i success detail ∈ sampleEventsReversed := by
    intro i success detail
    simp only [sampleEvents, sampleEventsReversed, List.mem_cons, Event.report.injEq, reduceCtorEq, List.not_mem_nil,
      or_false, false_or]
    exact or_comm
  obtain ⟨same, -, any, -⟩ := verdict_of_endings h h' alike
  refine ⟨_, _, h, h', by decide, any.2 ⟨0, by decide, "etag", by decide⟩, fun e => (same e).1⟩

end Verdict

end BucketBench.Concurrent
