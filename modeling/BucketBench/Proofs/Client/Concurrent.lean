import BucketBench.Client.Concurrent
import Mathlib.Data.List.Forall2
import Mathlib.Data.List.Nodup
import Mathlib.Data.List.Perm.Lattice

set_option autoImplicit false

/-!
# Outcomes of clients that work side by side

Two writers share one list: a client that finishes reports for itself, and joining a client that broke off reports for
it. Every interleaving of the two gives each client one outcome, `run?_accounts`; so what is expected of the outcomes
holds or fails whatever the interleaving was, `verdict_of_endings`.
-/

namespace BucketBench.Concurrent

open List (Forall₂)

/-! ## How clients end -/

def Ending.isFinished : Ending → Bool
  | .finished _ _ => true
  | .aborted _ => false

def Event.ending? : Event → Option (Nat × Ending)
  | .report i success detail => some (i, .finished success detail)
  | .abort i reason => some (i, .aborted reason)
  | .resolve _ => none
  | .join => none

def ended (events : List Event) : List (Nat × Ending) := events.filterMap Event.ending?

theorem ended_concat_of_some {events : List Event} {e : Event} {m : Nat × Ending} (h : e.ending? = some m) :
    ended (events ++ [e]) = ended events ++ [m] := by
  simp [ended, h]

theorem ended_concat_of_none {events : List Event} {e : Event} (h : e.ending? = none) :
    ended (events ++ [e]) = ended events := by
  simp [ended, h]

theorem report_mem_iff {events : List Event} {i : Nat} {success : Bool} {detail : String} :
    (i, Ending.finished success detail) ∈ ended events ↔ .report i success detail ∈ events := by
  rw [ended, List.mem_filterMap]
  constructor
  · rintro ⟨e, he, h⟩
    cases e <;> simp_all [Event.ending?]
  · exact fun h => ⟨_, h, rfl⟩

def Client.outcome (c : Client) : Ending → Outcome
  | .finished success detail => ⟨c.label, c.kind, success, detail⟩
  | .aborted reason => ⟨c.label, c.kind, false, "task aborted: " ++ reason⟩

/-- An outcome is that of the client with the given number, which ended in the given way. -/
def Tells (clients : List Client) (credit : Nat × Ending) (o : Outcome) : Prop :=
  ∃ c, clients[credit.1]? = some c ∧ o = c.outcome credit.2

/-! ## One event -/

namespace Run

inductive Step (clients : List Client) (r : Run) : Event → Run → Prop where
  | report {c : Client} {i : Nat} (success : Bool) (detail : String) (client : clients[i]? = some c)
      (working : r.progress[i]? = some .working) :
      Step clients r (.report i success detail)
        ⟨r.progress.set i .reported, r.outcomes ++ [c.outcome (.finished success detail)], r.joined⟩
  | resolve {i : Nat} (reported : r.progress[i]? = some .reported) :
      Step clients r (.resolve i) ⟨r.progress.set i .done, r.outcomes, r.joined⟩
  | abort {i : Nat} (reason : String) (working : r.progress[i]? = some .working) :
      Step clients r (.abort i reason) ⟨r.progress.set i (.aborted reason), r.outcomes, r.joined⟩
  | join {c : Client} (client : clients[r.joined]? = some c) (done : r.progress[r.joined]? = some .done) :
      Step clients r .join ⟨r.progress, r.outcomes, r.joined + 1⟩
  | joinAborted {c : Client} {reason : String} (client : clients[r.joined]? = some c)
      (aborted : r.progress[r.joined]? = some (.aborted reason)) :
      Step clients r .join ⟨r.progress, r.outcomes ++ [c.outcome (.aborted reason)], r.joined + 1⟩

theorem step_eq_some_iff {clients : List Client} {r r' : Run} {e : Event} :
    step clients r e = some r' ↔ Step clients r e r' := by
  constructor
  · intro h
    cases e with
    | report i success detail =>
      simp only [step] at h
      split at h
      · rename_i client working
        cases h
        exact .report success detail client working
      · cases h
    | resolve i =>
      simp only [step] at h
      split at h
      · rename_i reported
        cases h
        exact .resolve reported
      · cases h
    | abort i reason =>
      simp only [step] at h
      split at h
      · rename_i working
        cases h
        exact .abort reason working
      · cases h
    | join =>
      simp only [step] at h
      split at h
      · rename_i client done
        cases h
        exact .join client done
      · rename_i client aborted
        cases h
        exact .joinAborted client aborted
      · cases h
  · intro h
    cases h with
    | report success detail client working => simp [step, client, working, Client.outcome]
    | resolve reported => simp [step, reported]
    | abort reason working => simp [step, working]
    | join client done => simp [step, client, done]
    | joinAborted client aborted =>
      simp only [step, client, aborted]
      rfl

end Run

/-! ## What the progress of the clients shows -/

def Progress.Shows (ends : List (Nat × Ending)) (i : Nat) : Progress → Prop
  | .working => ∀ e, (i, e) ∉ ends
  | .reported => ∃ success detail, (i, .finished success detail) ∈ ends
  | .done => ∃ success detail, (i, .finished success detail) ∈ ends
  | .aborted reason => (i, .aborted reason) ∈ ends

theorem Progress.Shows.concat {ends : List (Nat × Ending)} {i : Nat} {p : Progress} (h : p.Shows ends i)
    {m : Nat × Ending} (other : m.1 ≠ i) : p.Shows (ends ++ [m]) i := by
  cases p with
  | working =>
    intro e mem
    rcases List.mem_append.1 mem with mem | mem
    · exact h e mem
    · exact other (congrArg Prod.fst (List.mem_singleton.1 mem)).symm
  | reported =>
    obtain ⟨success, detail, mem⟩ := h
    exact ⟨success, detail, List.mem_append_left _ mem⟩
  | done =>
    obtain ⟨success, detail, mem⟩ := h
    exact ⟨success, detail, List.mem_append_left _ mem⟩
  | aborted reason => exact List.mem_append_left _ h

def Progress.isOver : Progress → Bool
  | .done => true
  | .aborted _ => true
  | _ => false

structure Tracks (clients : List Client) (events : List Event) (r : Run) : Prop where
  size : r.progress.length = clients.length
  shown : ∀ (i : Nat) (p : Progress), r.progress[i]? = some p → p.Shows (ended events) i
  known : ∀ m ∈ ended events, m.1 < clients.length
  once : ((ended events).map Prod.fst).Nodup
  within : r.joined ≤ clients.length
  settled : ∀ (i : Nat) (p : Progress), i < r.joined → r.progress[i]? = some p → p.isOver = true

section Step

variable {clients : List Client} {events : List Event} {r r' : Run} {e : Event}

theorem tracks_start (clients : List Client) : Tracks clients [] (Run.start clients) where
  size := by simp [Run.start]
  shown := by
    intro i p h
    simp only [Run.start, List.getElem?_map, Option.map_eq_some_iff] at h
    obtain ⟨c, -, rfl⟩ := h
    exact fun e => List.not_mem_nil
  known := by simp [ended]
  once := by simp [ended]
  within := Nat.zero_le _
  settled := fun i p h => absurd h (Nat.not_lt_zero i)

theorem getElem?_set_cases {ps : List Progress} {i j : Nat} {p q : Progress} (h : (ps.set i q)[j]? = some p) :
    (j = i ∧ p = q) ∨ (j ≠ i ∧ ps[j]? = some p) := by
  by_cases same : i = j
  · subst same
    rw [List.getElem?_set_self'] at h
    cases at_i : ps[i]? with
    | none => simp [at_i] at h
    | some old => exact Or.inl ⟨rfl, by simpa [at_i] using h.symm⟩
  · rw [List.getElem?_set_ne same] at h
    exact Or.inr ⟨Ne.symm same, h⟩

/-- A client that was still working ends now, for the first time. -/
theorem Tracks.end_working (h : Tracks clients events r) {i : Nat} {ending : Ending} {p : Progress}
    (working : r.progress[i]? = some .working) (ends : e.ending? = some (i, ending))
    (shown : ∀ others, p.Shows (others ++ [(i, ending)]) i) (outcomes : List Outcome) :
    Tracks clients (events ++ [e]) ⟨r.progress.set i p, outcomes, r.joined⟩ := by
  have longer : ended (events ++ [e]) = ended events ++ [(i, ending)] := ended_concat_of_some ends
  have fresh : ∀ x, (i, x) ∉ ended events := h.shown i .working working
  have bound : i < clients.length := by
    rw [← h.size]
    exact (List.getElem?_eq_some_iff.1 working).1
  refine ⟨by simpa using h.size, ?_, ?_, ?_, h.within, ?_⟩
  · intro j q hq
    rw [longer]
    rcases getElem?_set_cases hq with ⟨rfl, rfl⟩ | ⟨ne, hq⟩
    · exact shown _
    · exact (h.shown j q hq).concat (Ne.symm ne)
  · intro m hm
    rw [longer] at hm
    rcases List.mem_append.1 hm with hm | hm
    · exact h.known m hm
    · rw [List.mem_singleton.1 hm]
      exact bound
  · rw [longer, List.map_append, List.nodup_append_comm, List.map_singleton, List.singleton_append, List.nodup_cons]
    refine ⟨?_, h.once⟩
    intro mem
    obtain ⟨⟨j, x⟩, hm, rfl⟩ := List.mem_map.1 mem
    exact fresh x hm
  · intro j q hj hq
    rcases getElem?_set_cases hq with ⟨rfl, rfl⟩ | ⟨-, hq⟩
    · -- what was joined is over, and this client was not
      exact absurd (h.settled j .working hj working) (by simp [Progress.isOver])
    · exact h.settled j q hj hq

theorem tracks_step (h : Tracks clients events r) (s : Run.Step clients r e r') :
    Tracks clients (events ++ [e]) r' := by
  cases s with
  | report success detail client working =>
    have now : ∀ {i : Nat} others, Progress.reported.Shows (others ++ [(i, .finished success detail)]) i :=
      fun others => ⟨success, detail, List.mem_append_right others (List.mem_singleton_self _)⟩
    exact h.end_working working rfl now _
  | abort reason working =>
    have now : ∀ {i : Nat} others, (Progress.aborted reason).Shows (others ++ [(i, .aborted reason)]) i :=
      fun others => List.mem_append_right others (List.mem_singleton_self _)
    exact h.end_working working rfl now _
  | @resolve i reported =>
    have same : ended (events ++ [.resolve i]) = ended events := ended_concat_of_none rfl
    refine ⟨by simpa using h.size, ?_, same ▸ h.known, same ▸ h.once, h.within, ?_⟩
    · intro j q hq
      rw [same]
      rcases getElem?_set_cases hq with ⟨rfl, rfl⟩ | ⟨-, hq⟩
      · exact h.shown j .reported reported
      · exact h.shown j q hq
    · intro j q hj hq
      rcases getElem?_set_cases hq with ⟨-, rfl⟩ | ⟨-, hq⟩
      · rfl
      · exact h.settled j q hj hq
  | join client done =>
    have same : ended (events ++ [.join]) = ended events := ended_concat_of_none rfl
    refine ⟨h.size, same ▸ h.shown, same ▸ h.known, same ▸ h.once, (List.getElem?_eq_some_iff.1 client).1, ?_⟩
    intro j q hj hq
    rcases Nat.lt_succ_iff_lt_or_eq.1 hj with before | rfl
    · exact h.settled j q before hq
    · cases done.symm.trans hq
      rfl
  | joinAborted client aborted =>
    have same : ended (events ++ [.join]) = ended events := ended_concat_of_none rfl
    refine ⟨h.size, same ▸ h.shown, same ▸ h.known, same ▸ h.once, (List.getElem?_eq_some_iff.1 client).1, ?_⟩
    intro j q hj hq
    rcases Nat.lt_succ_iff_lt_or_eq.1 hj with before | rfl
    · exact h.settled j q before hq
    · cases aborted.symm.trans hq
      rfl

/-! ## What the shared list holds -/

/-- The outcomes so far are, in the order of `credits`, those of the clients that finished and of the joined ones that
broke off. -/
structure Accounts (clients : List Client) (events : List Event) (r : Run) (credits : List (Nat × Ending)) : Prop where
  told : Forall₂ (Tells clients) credits r.outcomes
  distinct : credits.Nodup
  mem : ∀ m, m ∈ credits ↔ m ∈ ended events ∧ (m.2.isFinished = true ∨ m.1 < r.joined)
  order : credits.filter (fun m => m.2.isFinished) = (ended events).filter fun m => m.2.isFinished

variable {credits : List (Nat × Ending)}

theorem accounts_start (clients : List Client) : Accounts clients [] (Run.start clients) [] where
  told := .nil
  distinct := List.nodup_nil
  mem := by simp [ended]
  order := rfl

theorem Tracks.eq_of_ended (h : Tracks clients events r) {i : Nat} {x y : Ending} (hx : (i, x) ∈ ended events)
    (hy : (i, y) ∈ ended events) : x = y :=
  congrArg Prod.snd (List.inj_on_of_nodup_map h.once hx hy rfl)

theorem Tracks.not_joined (h : Tracks clients events r) {i : Nat} (working : r.progress[i]? = some .working) :
    ¬ i < r.joined := by
  intro before
  have settled := h.settled i .working before working
  cases settled

/-- The outcome of a client that finishes is added behind the others. -/
theorem Accounts.report {c : Client} {i : Nat} {success : Bool} {detail : String} (t : Tracks clients events r)
    (h : Accounts clients events r credits) (client : clients[i]? = some c)
    (working : r.progress[i]? = some .working) :
    Accounts clients (events ++ [.report i success detail])
      ⟨r.progress.set i .reported, r.outcomes ++ [c.outcome (.finished success detail)], r.joined⟩
      (credits ++ [(i, .finished success detail)]) := by
  have longer : ended (events ++ [.report i success detail]) = ended events ++ [(i, .finished success detail)] :=
    ended_concat_of_some rfl
  have fresh : (i, .finished success detail) ∉ credits := fun mem =>
    t.shown i .working working _ ((h.mem _).1 mem).1
  refine ⟨?_, ?_, ?_, ?_⟩
  · exact List.rel_append h.told (.cons ⟨c, client, rfl⟩ .nil)
  · exact List.nodup_append_comm.1 (List.nodup_cons.2 ⟨fresh, h.distinct⟩)
  · intro m
    rw [longer, List.mem_append, List.mem_append, h.mem m, List.mem_singleton, or_and_right]
    refine or_congr_right ⟨?_, And.left⟩
    rintro rfl
    exact ⟨rfl, Or.inl rfl⟩
  · rw [longer, List.filter_append, List.filter_append, h.order]

theorem Accounts.abort {i : Nat} {reason : String} (t : Tracks clients events r)
    (h : Accounts clients events r credits) (working : r.progress[i]? = some .working) :
    Accounts clients (events ++ [.abort i reason]) ⟨r.progress.set i (.aborted reason), r.outcomes, r.joined⟩
      credits := by
  have longer : ended (events ++ [.abort i reason]) = ended events ++ [(i, .aborted reason)] :=
    ended_concat_of_some rfl
  refine ⟨h.told, h.distinct, ?_, ?_⟩
  · -- this client has not been joined yet, so its outcome is still missing
    intro m
    rw [longer, List.mem_append, List.mem_singleton, h.mem m, or_and_right]
    refine (or_iff_left ?_).symm
    rintro ⟨rfl, finished | before⟩
    · cases finished
    · exact t.not_joined working before
  · rw [longer, List.filter_append, h.order]
    exact (List.append_nil _).symm

theorem Accounts.join (t : Tracks clients events r) (h : Accounts clients events r credits)
    (done : r.progress[r.joined]? = some .done) :
    Accounts clients (events ++ [.join]) ⟨r.progress, r.outcomes, r.joined + 1⟩ credits := by
  have same : ended (events ++ [.join]) = ended events := ended_concat_of_none rfl
  obtain ⟨success, detail, mine⟩ := t.shown _ _ done
  refine ⟨h.told, h.distinct, ?_, same ▸ h.order⟩
  intro m
  rw [same, h.mem m]
  refine and_congr_right fun hm => ⟨Or.imp_right Nat.lt_succ_of_lt, ?_⟩
  rintro (finished | upTo)
  · exact Or.inl finished
  · rcases Nat.lt_succ_iff_lt_or_eq.1 upTo with before | now
    · exact Or.inr before
    · obtain ⟨i, x⟩ := m
      obtain rfl : i = r.joined := now
      obtain rfl := t.eq_of_ended hm mine
      exact Or.inl rfl

/-- Joining a client that broke off adds the outcome that it did not add itself. -/
theorem Accounts.joinAborted {c : Client} {reason : String} (t : Tracks clients events r)
    (h : Accounts clients events r credits) (client : clients[r.joined]? = some c)
    (aborted : r.progress[r.joined]? = some (.aborted reason)) :
    Accounts clients (events ++ [.join]) ⟨r.progress, r.outcomes ++ [c.outcome (.aborted reason)], r.joined + 1⟩
      (credits ++ [(r.joined, .aborted reason)]) := by
  have same : ended (events ++ [.join]) = ended events := ended_concat_of_none rfl
  have mine : (r.joined, .aborted reason) ∈ ended events := t.shown _ _ aborted
  have fresh : (r.joined, .aborted reason) ∉ credits := by
    intro mem
    rcases ((h.mem _).1 mem).2 with finished | before
    · cases finished
    · exact Nat.lt_irrefl _ before
  refine ⟨?_, ?_, ?_, ?_⟩
  · exact List.rel_append h.told (.cons ⟨c, client, rfl⟩ .nil)
  · exact List.nodup_append_comm.1 (List.nodup_cons.2 ⟨fresh, h.distinct⟩)
  · rintro ⟨i, x⟩
    rw [same, List.mem_append, h.mem, List.mem_singleton]
    constructor
    · rintro (⟨hm, finished | before⟩ | now)
      · exact ⟨hm, Or.inl finished⟩
      · exact ⟨hm, Or.inr (Nat.lt_succ_of_lt before)⟩
      · rw [now]
        exact ⟨mine, Or.inr (Nat.lt_succ_self _)⟩
    · rintro ⟨hm, finished | upTo⟩
      · exact Or.inl ⟨hm, Or.inl finished⟩
      · rcases Nat.lt_succ_iff_lt_or_eq.1 upTo with before | now
        · exact Or.inl ⟨hm, Or.inr before⟩
        · obtain rfl : i = r.joined := now
          rw [t.eq_of_ended hm mine]
          exact Or.inr rfl
  · rw [same, List.filter_append, h.order]
    exact List.append_nil _

theorem accounts_step (t : Tracks clients events r) (h : Accounts clients events r credits)
    (s : Run.Step clients r e r') : ∃ credits', Accounts clients (events ++ [e]) r' credits' := by
  cases s with
  | report success detail client working => exact ⟨_, h.report t client working⟩
  | abort reason working => exact ⟨_, h.abort t working⟩
  | @resolve i reported =>
    have same : ended (events ++ [.resolve i]) = ended events := ended_concat_of_none rfl
    exact ⟨credits, h.told, h.distinct, same ▸ h.mem, same ▸ h.order⟩
  | join client done => exact ⟨_, h.join t done⟩
  | joinAborted client aborted => exact ⟨_, h.joinAborted t client aborted⟩

end Step

/-! ## Whole runs -/

section Whole

variable {clients : List Client} {events : List Event} {outcomes : List Outcome} {r : Run}

theorem accounts_foldlM {before : List Event} {credits : List (Nat × Ending)} {first : Run}
    (t : Tracks clients before first) (h : Accounts clients before first credits)
    (run : events.foldlM (Run.step clients) first = some r) :
    Tracks clients (before ++ events) r ∧ ∃ credits', Accounts clients (before ++ events) r credits' := by
  induction events generalizing before credits first with
  | nil =>
    cases run
    rw [List.append_nil]
    exact ⟨t, credits, h⟩
  | cons e rest ih =>
    rw [List.foldlM_cons, Option.bind_eq_bind, Option.bind_eq_some_iff] at run
    obtain ⟨next, first_step, later⟩ := run
    have s := Run.step_eq_some_iff.1 first_step
    obtain ⟨credits', h'⟩ := accounts_step t h s
    rw [List.append_cons]
    exact ih (tracks_step t s) h' later

theorem tracks_of_run (run : events.foldlM (Run.step clients) (Run.start clients) = some r) : Tracks clients events r :=
  (accounts_foldlM (tracks_start clients) (accounts_start clients) run).1

theorem run?_eq_some_iff :
    run? clients events = some outcomes ↔
      ∃ r, events.foldlM (Run.step clients) (Run.start clients) = some r ∧ r.joined = clients.length ∧
        r.outcomes = outcomes := by
  simp only [run?, Option.bind_eq_bind, Option.bind_eq_some_iff, Run.isOver, beq_iff_eq, Option.ite_none_right_eq_some,
    Option.some.injEq]

/-- When all clients have been joined, each of them has ended exactly once. -/
theorem Tracks.ended_perm (t : Tracks clients events r) (settled : r.joined = clients.length) :
    ((ended events).map Prod.fst).Perm (List.range clients.length) := by
  refine (List.perm_ext_iff_of_nodup t.once List.nodup_range).2 fun i => ?_
  rw [List.mem_range]
  constructor
  · intro mem
    obtain ⟨m, hm, rfl⟩ := List.mem_map.1 mem
    exact t.known m hm
  · intro bound
    obtain ⟨p, hp⟩ : ∃ p, r.progress[i]? = some p := ⟨_, List.getElem?_eq_getElem (t.size ▸ bound)⟩
    have ends : p.isOver = true := t.settled i p (settled ▸ bound) hp
    have shown := t.shown i p hp
    cases p with
    | done =>
      obtain ⟨success, detail, hm⟩ := shown
      exact List.mem_map_of_mem hm
    | aborted reason => exact List.mem_map_of_mem shown
    | working | reported => cases ends

theorem Accounts.perm {credits : List (Nat × Ending)} (t : Tracks clients events r)
    (h : Accounts clients events r credits) (settled : r.joined = clients.length) : credits.Perm (ended events) := by
  refine (List.perm_ext_iff_of_nodup h.distinct t.once.of_map).2 fun m => ?_
  rw [h.mem m]
  refine and_iff_left_of_imp fun hm => Or.inr ?_
  rw [settled]
  exact t.known m hm

theorem foldlM_cons_of_step {e : Event} {rest : List Event} {next last : Run} (s : Run.Step clients r e next)
    (later : rest.foldlM (Run.step clients) next = some last) : (e :: rest).foldlM (Run.step clients) r = some last := by
  rw [List.foldlM_cons, Run.step_eq_some_iff.2 s]
  exact later

/-- The client to be joined next can end, if it has not yet, and be joined. -/
theorem Tracks.exists_join (t : Tracks clients events r) (waits : r.joined < clients.length) :
    ∃ (more : List Event) (next : Run), more.foldlM (Run.step clients) r = some next ∧ next.joined = r.joined + 1 := by
  obtain ⟨c, client⟩ : ∃ c, clients[r.joined]? = some c := ⟨_, List.getElem?_eq_getElem waits⟩
  have bound : r.joined < r.progress.length := t.size ▸ waits
  obtain ⟨p, hp⟩ : ∃ p, r.progress[r.joined]? = some p := ⟨_, List.getElem?_eq_getElem bound⟩
  cases p with
  | working =>
    have reported : (r.progress.set r.joined .reported)[r.joined]? = some .reported := by simp [bound]
    have done : ((r.progress.set r.joined .reported).set r.joined .done)[r.joined]? = some .done := by simp [bound]
    exact ⟨[.report r.joined true "", .resolve r.joined, .join], _,
      foldlM_cons_of_step (.report true "" client hp) <| foldlM_cons_of_step (.resolve reported) <|
        foldlM_cons_of_step (.join client done) rfl, rfl⟩
  | reported =>
    have done : (r.progress.set r.joined .done)[r.joined]? = some .done := by simp [bound]
    exact ⟨[.resolve r.joined, .join], _,
      foldlM_cons_of_step (.resolve hp) <| foldlM_cons_of_step (.join client done) rfl, rfl⟩
  | done => exact ⟨[.join], _, foldlM_cons_of_step (.join client hp) rfl, rfl⟩
  | aborted reason => exact ⟨[.join], _, foldlM_cons_of_step (.joinAborted client hp) rfl, rfl⟩

theorem exists_completion (run : events.foldlM (Run.step clients) (Run.start clients) = some r) :
    ∃ more outcomes, run? clients (events ++ more) = some outcomes := by
  have t := tracks_of_run run
  -- on the number of clients that are still to be joined
  induction left : clients.length - r.joined generalizing events r with
  | zero =>
    have settled : r.joined = clients.length := Nat.le_antisymm t.within (Nat.sub_eq_zero_iff_le.1 left)
    refine ⟨[], r.outcomes, run?_eq_some_iff.2 ⟨r, ?_, settled, rfl⟩⟩
    rw [List.append_nil]
    exact run
  | succ n ih =>
    obtain ⟨more, next, goes, joined⟩ := t.exists_join (by omega)
    have further : (events ++ more).foldlM (Run.step clients) (Run.start clients) = some next := by
      rw [List.foldlM_append, run]
      exact goes
    obtain ⟨rest, outcomes, h⟩ := ih further (tracks_of_run further) (by omega)
    refine ⟨more ++ rest, outcomes, ?_⟩
    rwa [← List.append_assoc]

/-- Wherever an interleaving stands it can go on to its end. At its end each client has ended once, and the list
holds one outcome for each of them that tells of that client and of how it ended: a failure for one that broke off.
Clients that finished stand in the order in which they did. -/
theorem run?_accounts (clients : List Client) (events : List Event) :
    (∀ r, events.foldlM (Run.step clients) (Run.start clients) = some r →
      ∃ more outcomes, run? clients (events ++ more) = some outcomes) ∧
    ∀ outcomes, run? clients events = some outcomes →
      ((ended events).map Prod.fst).Perm (List.range clients.length) ∧
        ∃ credits : List (Nat × Ending), credits.Perm (ended events) ∧ Forall₂ (Tells clients) credits outcomes ∧
          credits.filter (fun m => m.2.isFinished) = (ended events).filter fun m => m.2.isFinished := by
  refine ⟨fun r run => exists_completion run, fun outcomes h => ?_⟩
  obtain ⟨r, run, settled, rfl⟩ := run?_eq_some_iff.1 h
  obtain ⟨t, credits, accounts⟩ := accounts_foldlM (tracks_start clients) (accounts_start clients) run
  exact ⟨t.ended_perm settled, credits, accounts.perm t settled, accounts.told, accounts.order⟩

end Whole

/-! ## Three clients, two of them with one label -/

section Sample

def sampleClients : List Client := [⟨"put", .sdk⟩, ⟨"put", .cli⟩, ⟨"get", .sdk⟩]

/-- The second client breaks off before the others finish, and its outcome comes last. -/
def sampleEvents : List Event :=
  [.abort 1 "task 8 panicked", .report 0 true "etag", .report 2 false "NoSuchKey", .resolve 0, .join, .join,
    .resolve 2, .join]

theorem run?_accounts_sample :
    let outcomes : List Outcome :=
      [⟨"put", .sdk, true, "etag"⟩, ⟨"get", .sdk, false, "NoSuchKey"⟩,
        ⟨"put", .cli, false, "task aborted: task 8 panicked"⟩]
    run? sampleClients sampleEvents = some outcomes ∧
      ∃ credits : List (Nat × Ending), credits.Perm (ended sampleEvents) ∧
        Forall₂ (Tells sampleClients) credits outcomes ∧
        credits.filter (fun m => m.2.isFinished) = [(0, .finished true "etag"), (2, .finished false "NoSuchKey")] := by
  intro outcomes
  have h : run? sampleClients sampleEvents = some outcomes := rfl
  obtain ⟨-, credits, perm, told, order⟩ := (run?_accounts sampleClients sampleEvents).2 outcomes h
  exact ⟨h, credits, perm, told, order⟩

end Sample

end BucketBench.Concurrent
