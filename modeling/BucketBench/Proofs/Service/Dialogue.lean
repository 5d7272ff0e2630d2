import BucketBench.Proofs.Outcome
import BucketBench.Service.Objects

set_option autoImplicit false

namespace BucketBench

namespace Dialogue

variable {α : Type}

theorem run_attempt (d : Dialogue α) (c : Conversation) : (attempt d).run c = (.ok (d.run c).1, (d.run c).2) := rfl

theorem run_discard (d : Dialogue α) (c : Conversation) :
    (discard d : Dialogue PUnit).run c = ((d.run c).1.map fun _ => ⟨⟩, (d.run c).2) := by
  have unfolded : (discard d : Dialogue PUnit) = d >>= fun _ => pure ⟨⟩ := rfl
  rw [unfolded, run_bind]
  rcases d.run c with ⟨r, c'⟩
  cases r <;> rfl

end Dialogue

/-- What a document means is settled by its root; its text need not be read again. -/
theorem Operation.outcome_of_root {op : Operation} {text : String} {root : Xml.Element} {answer : op.Answer}
    (read : Xml.Element.root? text = some root) (fine : root.name.isPlain "Error" = false)
    (accepted : op.accept? ⟨200, [], text⟩ = some answer) : op.outcome (.answered ⟨200, [], text⟩) = .ok answer := by
  have success : Response.isSuccess ⟨200, [], text⟩ = true := rfl
  have noError : Response.isErrorDocument ⟨200, [], text⟩ = false := by
    rw [Response.isErrorDocument, Xml.Element.expect?, read, Option.filter_some_neg (by simp [fine])]
    rfl
  simp only [Operation.outcome, Operation.judge, success, noError, accepted, Bool.not_true, Bool.and_false, Bool.or_false,
    Bool.false_eq_true, if_false]

namespace Account

theorem run_readFor (call : String) (source : Source) (offset length : Nat) (c : Conversation) :
    (readFor call source offset length).run c =
      ((source.read offset length).mapError fun fault => .client call fault.message, c) := by
  unfold readFor
  cases source.read offset length <;> rfl

def unsentFault (op : Operation) : ServiceFault := if op.isComplete then .unreachable else .incomplete

theorem run_send_unsent {a : Account} (call : String) {op : Operation} (c : Conversation) (h : ¬ a.reaches op) :
    (a.send call op).run c = (.error (.client call (unsentFault op).message), c) := by
  unfold send unsentFault
  cases complete : op.isComplete with
  | false => rfl
  | true =>
    cases site : a.site? op.bucket? with
    | none => rfl
    | some place => exact absurd ⟨complete, by rw [site]; rfl⟩ h

theorem run_send_of_not_reaches {a : Account} (call : String) {op : Operation} (c : Conversation)
    (h : ¬ a.reaches op) : ∃ e, (a.send call op).run c = (.error e, c) :=
  ⟨_, run_send_unsent call c h⟩

theorem run_send_of_reply {a : Account} {call : String} {op : Operation} {reply : Reply} {replies : List Reply}
    {files : Files} {exchanges : List Exchange} (single : a.settings.maxAttempts ≤ 1) (h : a.reaches op) :
    (a.send call op).run ⟨files, reply :: replies, exchanges⟩ =
      ((op.outcome reply).mapError fun fault => .client call fault.message,
        ⟨files, replies, exchanges ++ [⟨op, reply⟩]⟩) :=
  run_send a call op ⟨files, reply :: replies, exchanges⟩ single h

theorem exists_reply_of_reaches {a : Account} (call : String) {op : Operation} (c : Conversation)
    (single : a.settings.maxAttempts ≤ 1) (h : a.reaches op) :
    ∃ reply after, after.exchanges = c.exchanges ++ [⟨op, reply⟩] ∧
      (a.send call op).run c = ((op.outcome reply).mapError fun fault => .client call fault.message, after) :=
  ⟨_, _, Conversation.exchanges_exchange op c, run_send a call op c single h⟩

/-- What putting an operation to the service once can come to. -/
theorem send_cases (a : Account) (call : String) (op : Operation) (c : Conversation)
    (single : a.settings.maxAttempts ≤ 1) :
    (a.reaches op ∧ ∃ reply after, after.exchanges = c.exchanges ++ [⟨op, reply⟩] ∧
        (a.send call op).run c = ((op.outcome reply).mapError fun fault => .client call fault.message, after)) ∨
      (¬ a.reaches op ∧ ∃ e, (a.send call op).run c = (.error e, c)) := by
  by_cases h : a.reaches op
  · exact Or.inl ⟨h, exists_reply_of_reaches call c single h⟩
  · exact Or.inr ⟨h, run_send_of_not_reaches call c h⟩

end Account

end BucketBench
