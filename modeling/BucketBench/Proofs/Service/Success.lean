import BucketBench.Proofs.Service.Dialogue

set_option autoImplicit false

namespace BucketBench

def Answered (op : Operation) (answer : op.Answer) (sent : List Exchange) : Prop :=
  ∃ failed reply, sent = failed ++ [⟨op, reply⟩] ∧ (∀ e ∈ failed, e.operation = op ∧ e.isSuccess = false) ∧
    op.outcome reply = .ok answer

/-- What is counted of successful exchanges only is counted of the answer alone. -/
theorem Answered.flatMap_eq {β : Type} {op : Operation} {answer : op.Answer} {sent : List Exchange}
    (h : Answered op answer sent) {f : Exchange → List β} (none : ∀ e, e.isSuccess = false → f e = []) :
    ∃ reply, op.outcome reply = .ok answer ∧ sent.flatMap f = f ⟨op, reply⟩ := by
  obtain ⟨failed, reply, rfl, attempts, ok⟩ := h
  have before : failed.flatMap f = [] := List.flatMap_eq_nil_iff.2 fun e he => none e (attempts e he).2
  refine ⟨reply, ok, ?_⟩
  rw [List.flatMap_append, before, List.nil_append, List.flatMap_singleton]

namespace Conversation

theorem answered_of_ask {op : Operation} {more : Nat} {c after : Conversation} {answer : op.Answer}
    (h : ask op more c = (.ok answer, after)) :
    ∃ sent, after.exchanges = c.exchanges ++ sent ∧ Answered op answer sent := by
  induction more generalizing c with
  | zero =>
    rw [ask_zero] at h
    obtain ⟨ok, rfl⟩ := Prod.mk.inj h
    exact ⟨_, exchanges_exchange op c, [], _, rfl, nofun, ok⟩
  | succ more ih =>
    rw [ask_succ] at h
    cases outcome : op.outcome (exchange op c).1 with
    | ok first =>
      rw [outcome] at h
      cases h
      exact ⟨_, exchanges_exchange op c, [], _, rfl, nofun, outcome⟩
    | error fault =>
      rw [outcome] at h
      simp only at h
      split at h
      · obtain ⟨sent, further, failed, reply, rfl, attempts, ok⟩ := ih h
        have first : Exchange.isSuccess ⟨op, (exchange op c).1⟩ = false := by
          rw [Exchange.isSuccess, outcome]
          rfl
        refine ⟨⟨op, (exchange op c).1⟩ :: (failed ++ [⟨op, reply⟩]), ?_, _ :: failed, reply, rfl, ?_, ok⟩
        · rw [further, exchanges_exchange, List.append_assoc, List.singleton_append]
        · exact List.forall_mem_cons.2 ⟨⟨rfl, first⟩, attempts⟩
      · cases h

end Conversation

/-- Whenever a dialogue succeeds, what it gives and what it exchanges are related like this. -/
def Dialogue.Shows {α : Type} (d : Dialogue α) (P : α → List Exchange → Prop) : Prop :=
  ∀ c x after, d.run c = (.ok x, after) → ∃ sent, after.exchanges = c.exchanges ++ sent ∧ P x sent

namespace Dialogue.Shows

variable {α β : Type} {d : Dialogue α} {f : α → Dialogue β} {P : α → List Exchange → Prop}
  {Q : α → β → List Exchange → Prop} {R : β → List Exchange → Prop}

theorem pure (x : α) : (Pure.pure x : Dialogue α).Shows fun y sent => y = x ∧ sent = [] := by
  intro c y after h
  cases h
  exact ⟨[], (List.append_nil _).symm, rfl, rfl⟩

theorem get : (MonadState.get : Dialogue Conversation).Shows fun _ sent => sent = [] := by
  intro c y after h
  cases h
  exact ⟨[], (List.append_nil _).symm, rfl⟩

theorem bind (hd : d.Shows P) (hf : ∀ x, (f x).Shows (Q x))
    (both : ∀ x y first second, P x first → Q x y second → R y (first ++ second)) : (d >>= f).Shows R := by
  intro c y after h
  rw [run_bind] at h
  rcases ran : d.run c with ⟨fault | x, middle⟩
  · rw [ran] at h
    cases h
  · rw [ran] at h
    obtain ⟨first, appended, p⟩ := hd c x middle ran
    obtain ⟨second, further, q⟩ := hf x middle y after h
    refine ⟨first ++ second, ?_, both x y first second p q⟩
    rw [further, appended, List.append_assoc]

theorem send (a : Account) (call : String) (op : Operation) : (a.send call op).Shows (Answered op) := by
  intro c answer after h
  by_cases reached : a.reaches op
  · rw [Account.run_send_of_reaches call c reached] at h
    obtain ⟨ok, rfl⟩ := Prod.mk.inj h
    refine Conversation.answered_of_ask (Prod.ext ?_ rfl)
    generalize (Conversation.ask op (a.settings.maxAttempts - 1) c).1 = result at ok ⊢
    cases result with
    | error fault => cases ok
    | ok _ =>
      cases ok
      rfl
  · obtain ⟨fault, run⟩ := Account.run_send_of_not_reaches call c reached
    rw [run] at h
    cases h

end Dialogue.Shows

end BucketBench
