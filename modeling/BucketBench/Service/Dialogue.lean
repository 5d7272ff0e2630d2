import BucketBench.Secret.Vault
import BucketBench.Service.Address
import BucketBench.Service.Request
import BucketBench.Service.Response
import BucketBench.Settings.Basic

set_option autoImplicit false

/-!
# Talking to a service

A dialogue asks operations one after the other; it stops at the first error that it does not handle itself.
The other side of it is a conversation: the replies that are still to come, whatever is asked, and a record of
every exchange so far. So a law about all answers of a service is a law about all lists of replies.
-/

namespace BucketBench

/-- An operation that was put to the service, and what happened to it. -/
structure Exchange where
  operation : Operation
  reply : Reply
deriving DecidableEq

/-- The files at hand, the replies to come, and the exchanges so far, the oldest one first. When no reply is left
the line is broken. -/
structure Conversation where
  files : Files
  replies : List Reply
  exchanges : List Exchange

abbrev Dialogue := ExceptT Error (StateM Conversation)

/-- What a dialogue comes to; an error of it does not stop what follows. -/
def Dialogue.attempt {α : Type} (d : Dialogue α) : Dialogue (Except Error α) := ExceptT.lift d.run

/-- How a client reaches a service: its settings with the credentials in clear. -/
structure Account where
  settings : S3Settings
deriving DecidableEq

def Exchange.isSuccess (e : Exchange) : Bool := (e.operation.outcome e.reply).isOk

namespace Conversation

def exchange (op : Operation) : StateM Conversation Reply := fun c =>
  match c.replies with
  | [] => (.refused, { c with exchanges := c.exchanges ++ [⟨op, .refused⟩] })
  | reply :: rest => (reply, { c with replies := rest, exchanges := c.exchanges ++ [⟨op, reply⟩] })

@[simp] theorem exchanges_exchange (op : Operation) (c : Conversation) :
    (exchange op c).2.exchanges = c.exchanges ++ [⟨op, (exchange op c).1⟩] := by
  unfold exchange
  split <;> rfl

/-- The reply to an exchange is the next one of the script, and a break of the line when there is none. -/
theorem fst_exchange (op : Operation) (c : Conversation) : (exchange op c).1 = c.replies.head?.getD .refused := by
  unfold exchange
  split <;> simp [*]

@[simp] theorem replies_exchange (op : Operation) (c : Conversation) :
    (exchange op c).2.replies = c.replies.tail := by
  unfold exchange
  split <;> simp [*]

def passingStatuses : List Nat := [500, 502, 503, 504]

def passingCodes : List String :=
  ["Throttling", "ThrottlingException", "ThrottledException", "RequestThrottledException",
   "TooManyRequestsException", "ProvisionedThroughputExceededException", "TransactionInProgressException",
   "RequestLimitExceeded", "BandwidthLimitExceeded", "LimitExceededException", "RequestThrottled", "SlowDown",
   "PriorRequestNotComplete", "EC2ThrottledException", "RequestTimeout", "RequestTimeoutException",
   "InternalError"]

/-- Whether an operation that failed is worth another attempt; one without any answer is not. -/
def isPassing (reply : Reply) (fault : ServiceFault) : Bool :=
  match reply, fault with
  | .refused, _ => false
  | .answered r, .rejected code _ => r.status ∈ passingStatuses || code ∈ passingCodes
  | .answered r, _ => r.status ∈ passingStatuses

/-- Asks until there is an answer or a failure that will stay, with a number of attempts beyond the first. -/
def ask (op : Operation) : (more : Nat) → StateM Conversation (Except ServiceFault op.Answer)
  | 0 => do return op.outcome (← exchange op)
  | more + 1 => do
    let reply ← exchange op
    match op.outcome reply with
    | .ok answer => return .ok answer
    | .error fault => if isPassing reply fault then ask op more else return .error fault

theorem ask_zero (op : Operation) (c : Conversation) :
    ask op 0 c = (op.outcome (exchange op c).1, (exchange op c).2) := rfl

theorem ask_succ (op : Operation) (more : Nat) (c : Conversation) :
    ask op (more + 1) c =
      match op.outcome (exchange op c).1 with
      | .ok answer => (.ok answer, (exchange op c).2)
      | .error fault =>
        if isPassing (exchange op c).1 fault then ask op more (exchange op c).2
        else (.error fault, (exchange op c).2) := by
  rw [ask]
  show (match op.outcome (exchange op c).1 with
    | .ok answer => (pure (.ok answer) : StateM Conversation (Except ServiceFault op.Answer))
    | .error fault => if isPassing (exchange op c).1 fault then ask op more else pure (.error fault))
      (exchange op c).2 = _
  cases op.outcome (exchange op c).1 with
  | ok => rfl
  | error fault =>
    simp only
    split <;> rfl

end Conversation

namespace Account

/-- The account that settings describe; encrypted credentials are decrypted with the vault. -/
def ofSettings (settings : S3Settings) (vault : Vault) : Except Error Account := do
  let accessKey ← vault.reveal settings.accessKey
  let secretKey ← vault.reveal settings.secretKey
  let sessionToken ← settings.sessionToken.mapM vault.reveal
  return ⟨{ settings with accessKey, secretKey, sessionToken }⟩

def site? (a : Account) (bucket : Option String) : Option Site := do
  Site.of? (← Address.ofText? a.settings.endpoint) a.settings.region a.settings.forcePathStyle bucket

/-- Asks one operation under the name of the call that it belongs to. Without a request or a place to send it to,
nothing is exchanged. -/
def send (a : Account) (call : String) (op : Operation) : Dialogue op.Answer := do
  let result : Except ServiceFault op.Answer ←
    if !op.isComplete then pure (.error .incomplete)
    else if (a.site? op.bucket?).isNone then pure (.error .unreachable)
    else Conversation.ask op (a.settings.maxAttempts - 1)
  match result with
  | .ok answer => return answer
  | .error fault => throw (.client call fault.message)

def reaches (a : Account) (op : Operation) : Prop := op.isComplete = true ∧ (a.site? op.bucket?).isSome = true

theorem run_send_of_reaches {a : Account} (call : String) {op : Operation} (c : Conversation) (h : a.reaches op) :
    (a.send call op).run c =
      ((Conversation.ask op (a.settings.maxAttempts - 1) c).1.mapError fun fault => .client call fault.message,
        (Conversation.ask op (a.settings.maxAttempts - 1) c).2) := by
  obtain ⟨complete, site⟩ := h
  have reached : (a.site? op.bucket?).isNone = false := by
    cases e : a.site? op.bucket? <;> simp_all
  simp only [send, complete, reached, Bool.not_true, Bool.false_eq_true, if_false]
  show (match (Conversation.ask op (a.settings.maxAttempts - 1) c).1 with
    | .ok answer => (pure answer : Dialogue op.Answer)
    | .error fault => throw (Error.client call fault.message)).run
      (Conversation.ask op (a.settings.maxAttempts - 1) c).2 = _
  cases (Conversation.ask op (a.settings.maxAttempts - 1) c).1 <;> rfl

/-- Without further attempts, asking is one exchange, and its outcome is what the reply means. -/
theorem run_send (a : Account) (call : String) (op : Operation) (c : Conversation)
    (single : a.settings.maxAttempts ≤ 1) (h : a.reaches op) :
    (a.send call op).run c =
      ((op.outcome (Conversation.exchange op c).1).mapError fun fault => .client call fault.message,
        (Conversation.exchange op c).2) := by
  have none : a.settings.maxAttempts - 1 = 0 := by omega
  rw [run_send_of_reaches call c h, none, Conversation.ask_zero]

end Account

end BucketBench
