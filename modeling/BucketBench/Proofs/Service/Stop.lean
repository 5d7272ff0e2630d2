import BucketBench.Proofs.Service.Dialogue

set_option autoImplicit false

namespace BucketBench

/-- The exchanges of a run all of whose requests are of a kind, up to the first that fails or cannot be put. -/
inductive UpToFailure (a : Account) (asks : String → Operation → Prop) {α : Type} :
    Except Error α → List Exchange → Prop where
  | done (x : α) : UpToFailure a asks (.ok x) []
  | unsent {call : String} {op : Operation} (fault : Error) (asked : asks call op) (unreached : ¬ a.reaches op) :
      UpToFailure a asks (.error fault) []
  | failed {call : String} {op : Operation} {reply : Reply} {fault : ServiceFault} (asked : asks call op)
      (h : op.outcome reply = .error fault) : UpToFailure a asks (.error (.client call fault.message)) [⟨op, reply⟩]
  | next {call : String} {e : Exchange} {outcome : Except Error α} {sent : List Exchange}
      (asked : asks call e.operation) (success : e.isSuccess = true) (more : UpToFailure a asks outcome sent) :
      UpToFailure a asks outcome (e :: sent)

namespace UpToFailure

variable {a : Account} {asks asks' : String → Operation → Prop} {α β : Type} {outcome : Except Error α}
  {sent more : List Exchange}

theorem mono (h : UpToFailure a asks outcome sent) (wider : ∀ call op, asks call op → asks' call op) :
    UpToFailure a asks' outcome sent := by
  induction h with
  | done x => exact .done x
  | unsent fault asked unreached => exact .unsent fault (wider _ _ asked) unreached
  | failed asked h => exact .failed (wider _ _ asked) h
  | next asked success _ ih => exact .next (wider _ _ asked) success ih

theorem of_error {fault : Error} (h : UpToFailure a asks (.error fault : Except Error α) sent) :
    UpToFailure a asks (.error fault : Except Error β) sent := by
  generalize he : (.error fault : Except Error α) = failure at h
  induction h with
  | done => cases he
  | unsent fault' asked unreached => exact .unsent fault asked unreached
  | failed asked h =>
    cases he
    exact .failed asked h
  | next asked success _ ih => exact .next asked success (ih he)

theorem append {b : β} (h : UpToFailure a asks (.ok b) sent) (h' : UpToFailure a asks outcome more) :
    UpToFailure a asks outcome (sent ++ more) := by
  generalize hb : (.ok b : Except Error β) = first at h
  induction h with
  | done => exact h'
  | unsent | failed => cases hb
  | next asked success _ ih => exact .next asked success (ih hb)

theorem of_successes (x : α) (h : ∀ e ∈ sent, e.isSuccess = true ∧ ∃ call, asks call e.operation) :
    UpToFailure a asks (.ok x) sent := by
  induction sent with
  | nil => exact .done x
  | cons e rest ih =>
    obtain ⟨success, call, asked⟩ := h e List.mem_cons_self
    exact .next asked success (ih fun f hf => h f (List.mem_cons_of_mem _ hf))

theorem asked (h : UpToFailure a asks outcome sent) {e : Exchange} (he : e ∈ sent) : ∃ call, asks call e.operation := by
  induction h with
  | done | unsent => exact absurd he List.not_mem_nil
  | failed asked =>
    rw [List.mem_singleton.1 he]
    exact ⟨_, asked⟩
  | next asked _ _ ih =>
    rcases List.mem_cons.1 he with rfl | he
    · exact ⟨_, asked⟩
    · exact ih he

theorem isSuccess_of_ok {b : β} (h : UpToFailure a asks (.ok b) sent) {e : Exchange} (he : e ∈ sent) :
    e.isSuccess = true := by
  generalize hb : (.ok b : Except Error β) = first at h
  induction h with
  | done => exact absurd he List.not_mem_nil
  | unsent | failed => cases hb
  | next _ success _ ih =>
    rcases List.mem_cons.1 he with rfl | he
    · exact success
    · exact ih he hb

/-- A request that fails is the last one, and its error is that of the run. -/
theorem last (h : UpToFailure a asks outcome sent) {front back : List Exchange} {e : Exchange} {fault : ServiceFault}
    (split : sent = front ++ e :: back) (failure : e.operation.outcome e.reply = .error fault) :
    back = [] ∧ ∃ call, asks call e.operation ∧ outcome = .error (.client call fault.message) := by
  induction h generalizing front with
  | done | unsent => simp at split
  | @failed call op reply fault' asked h =>
    cases front with
    | nil =>
      cases split
      cases h.symm.trans failure
      exact ⟨rfl, call, asked, rfl⟩
    | cons _ front => simp at split
  | next _ success _ ih =>
    cases front with
    | nil =>
      obtain ⟨rfl, -⟩ := List.cons.inj split
      rw [Exchange.isSuccess, failure] at success
      cases success
    | cons _ front =>
      obtain ⟨-, split⟩ := List.cons.inj split
      exact ih split

/-- A run fails for no other reason than a request that failed or that there was no place for. -/
theorem cause (h : UpToFailure a asks outcome sent) {fault : Error} (failure : outcome = .error fault) :
    (∃ e ∈ sent, e.isSuccess = false) ∨ ∃ call op, asks call op ∧ ¬ a.reaches op := by
  induction h with
  | done => cases failure
  | @unsent call op _ asked unreached => exact .inr ⟨call, op, asked, unreached⟩
  | @failed call op reply _ asked h =>
    have unsuccessful : Exchange.isSuccess ⟨op, reply⟩ = false := by
      rw [Exchange.isSuccess, h]
      rfl
    exact .inl ⟨_, List.mem_cons_self, unsuccessful⟩
  | next _ _ _ ih =>
    exact (ih failure).imp_left fun ⟨e, he, unsuccessful⟩ => ⟨e, List.mem_cons_of_mem _ he, unsuccessful⟩

end UpToFailure

/-- Whatever the service replies, a dialogue asks only requests of a kind, and stops at the first that fails. -/
def Dialogue.StopsAtFailure (a : Account) (asks : String → Operation → Prop) {α : Type} (d : Dialogue α) : Prop :=
  ∀ c, ∃ sent, (d.run c).2.exchanges = c.exchanges ++ sent ∧ UpToFailure a asks (d.run c).1 sent

namespace Dialogue.StopsAtFailure

variable {a : Account} {asks : String → Operation → Prop} {α β : Type} {d : Dialogue α} {f : α → Dialogue β}

theorem pure (x : α) : (Pure.pure x : Dialogue α).StopsAtFailure a asks :=
  fun _ => ⟨[], (List.append_nil _).symm, .done x⟩

theorem get : (MonadState.get : Dialogue Conversation).StopsAtFailure a asks :=
  fun c => ⟨[], (List.append_nil _).symm, .done c⟩

theorem bind (hd : d.StopsAtFailure a asks) (hf : ∀ x, (f x).StopsAtFailure a asks) :
    (d >>= f).StopsAtFailure a asks := by
  intro c
  obtain ⟨sent, appended, stops⟩ := hd c
  rw [run_bind]
  rcases h : d.run c with ⟨fault | x, middle⟩
  · rw [h] at appended stops
    exact ⟨sent, appended, stops.of_error⟩
  · rw [h] at appended stops
    obtain ⟨more, further, stops'⟩ := hf x middle
    exact ⟨sent ++ more, by rw [further, appended, List.append_assoc], stops.append stops'⟩

theorem discard (hd : d.StopsAtFailure a asks) : (discard d : Dialogue PUnit).StopsAtFailure a asks :=
  hd.bind fun _ => pure _

/-- What putting an operation to the service once asks: a single exchange when there is an answer. -/
theorem send_cases (single : a.settings.maxAttempts ≤ 1) {call : String} {op : Operation}
    (h : asks call op) (c : Conversation) :
    ∃ sent, ((a.send call op).run c).2.exchanges = c.exchanges ++ sent ∧
      UpToFailure a asks ((a.send call op).run c).1 sent ∧
      ∀ answer, ((a.send call op).run c).1 = .ok answer →
        ∃ reply, sent = [⟨op, reply⟩] ∧ op.outcome reply = .ok answer := by
  obtain ⟨-, reply, after, appended, run⟩ | ⟨unreached, fault, run⟩ := a.send_cases call op c single
  · rw [run]
    cases answered : op.outcome reply with
    | ok answer =>
      have success : Exchange.isSuccess ⟨op, reply⟩ = true := by rw [Exchange.isSuccess, answered]; rfl
      refine ⟨_, appended, .next (e := ⟨op, reply⟩) h success (.done answer), fun _ same => ?_⟩
      cases same
      exact ⟨reply, rfl, answered⟩
    | error fault => exact ⟨_, appended, .failed h answered, nofun⟩
  · rw [run]
    exact ⟨[], (List.append_nil _).symm, .unsent fault h unreached, nofun⟩

theorem send (single : a.settings.maxAttempts ≤ 1) {call : String} {op : Operation} (h : asks call op) :
    (a.send call op).StopsAtFailure a asks := by
  intro c
  obtain ⟨sent, appended, stops, -⟩ := send_cases single h c
  exact ⟨sent, appended, stops⟩

end Dialogue.StopsAtFailure

end BucketBench
